import Formula.Proofs.Parser.Names

/-! What reading a whole text does to variables and scopes. All of it is done while the expression
is read: what follows only concerns the tokens and the problems. -/
namespace Formula.Parser

open TokenStream (Upcoming)

variable {α β : Type} {g : Grammar} {s s' : ParserState} {p : Parser α} {f : α → Parser β}

def stateAfter : EStateM.Result Fault ParserState α → ParserState
  | .ok _ s | .error _ s => s

def LeavesStore (p : Parser α) : Prop := ∀ g s, (stateAfter (p g s)).store = s.store

theorem store_bind (leaves : ∀ a, LeavesStore (f a)) (g : Grammar) (s : ParserState) :
    (stateAfter ((p >>= f) g s)).store = (stateAfter (p g s)).store := by
  cases run : p g s with
  | ok a s' =>
    rw [bind_of_ok run]
    exact leaves a g s'
  | error e s' =>
    rw [bind_of_error run]
    rfl

theorem store_tryCatch {handler : Fault → Parser α}
    (leaves : ∀ e, LeavesStore (handler e)) (g : Grammar)
    (s : ParserState) : (stateAfter (tryCatch p handler g s)).store =
      (stateAfter (p g s)).store := by
  cases run : p g s with
  | ok a s' =>
    rw [tryCatch_of_ok run]
  | error e s' =>
    rw [tryCatch_of_error run]
    exact leaves e g s'

namespace LeavesStore

theorem pure (a : α) : LeavesStore (pure a) := fun _ _ => rfl

theorem throw (e : Fault) : LeavesStore (throw e : Parser α) := fun _ _ => rfl

theorem bind (first : LeavesStore p) (then_ : ∀ a, LeavesStore (f a)) : LeavesStore (p >>= f) :=
  fun g s => (store_bind then_ g s).trans (first g s)

theorem onTokens (m : EStateM Fault TokenStream α) : LeavesStore (onTokens m) := by
  intro g s
  unfold Parser.onTokens
  cases m s.tokens <;> rfl

theorem ofExcept (x : Except Fault α) : LeavesStore (ofExcept x) := by
  cases x with
  | ok a => exact pure a
  | error e => exact throw e

theorem reject : LeavesStore reject :=
  (onTokens _).bind fun _ => (onTokens _).bind fun _ => pure _

theorem rejectDepth : LeavesStore rejectDepth :=
  (onTokens _).bind fun _ => (onTokens _).bind fun _ => (onTokens _).bind fun _ => pure _

theorem rejectRest : LeavesStore rejectRest := by
  refine (onTokens _).bind fun t => ?_
  split
  · exact reject.bind fun _ => pure _
  · exact pure _

theorem rejectProblems : LeavesStore rejectProblems := by
  intro g s
  unfold Parser.rejectProblems
  have asked : (read : Parser Grammar) g s = .ok g s := rfl
  rw [bind_of_ok asked]
  split
  · exact onTokens _ g s
  · exact onTokens _ g s

end LeavesStore

theorem store_whole (g : Grammar) (s : ParserState) :
    (stateAfter (whole g s)).store = (stateAfter (rule .expression g s)).store := by
  have simple : (stateAfter (simplified g s)).store = (stateAfter (rule .expression g s)).store :=
    store_bind (fun e => fun g s => LeavesStore.ofExcept _ g s) g s
  have rejecting (e : Expr) : LeavesStore (do rejectRest; rejectProblems; return e) :=
    LeavesStore.rejectRest.bind fun _ => LeavesStore.rejectProblems.bind fun _ => .pure e
  unfold whole
  refine (store_bind rejecting g s).trans ((store_tryCatch (fun e => ?_) g s).trans simple)
  split
  · exact .rejectDepth
  · exact .throw _

theorem rule_of_whole {e : Expr} (ok : whole g s = .ok e s') :
    ∃ e₀ s₁, rule .expression g s = .ok e₀ s₁
    ∧ (e₀.simplify (s₁.store.knowledge g.bits)).result = .ok e := by
  obtain ⟨s₁, _, simple, _⟩ := whole_eq_ok ok
  obtain ⟨e₀, ran, result⟩ := simplified_eq_ok simple
  exact ⟨e₀, s₁, ran, result⟩

theorem whole_of_brokenSource (broken : rule .expression g s = .error .brokenSource s') :
    whole g s = .error .brokenSource s' := by
  have simple : simplified g s = .error .brokenSource s' := bind_of_error broken _
  unfold whole
  exact bind_of_error ((tryCatch_of_error simple _).trans rfl) _

/-- What reading a whole text does, wherever in the tokens it starts. -/
theorem effect_whole {st : Store} {full : List Token} (upcoming : Upcoming s.tokens full)
    (same : s.store = st) (named : st.IsNamed) (exist : g.scope < st.scopes.length) {st' : Store}
    (after : st' = (stateAfter (whole g s)).store) :
    ∃ done rest, full = done ++ rest
      ∧ ((∀ s', whole g s ≠ .error .brokenSource s')
        → Upcoming (stateAfter (rule .expression g s)).tokens rest)
      ∧ (∃ names, Store.Gains g.scope (ReadsVariable g done rest) st names st')
      ∧ (∀ e s₁, rule .expression g s = .ok e s₁ → e.Everywhere (Expr.IsResolved st' g.scope))
      ∧ ∀ e s', whole g s = .ok e s' → e.Everywhere (Expr.IsResolved st' g.scope) := by
  subst same
  have start : At g s.store full s [] full :=
    ⟨rfl, upcoming, ⟨[], .none exist (not_readsVariable_nil full)⟩, named⟩
  have runs := (names_run exist depthLimit).1 .expression (by decide) s ⟨[], full, start, nofun⟩
  rw [store_whole] at after
  unfold Names at runs
  rw [show run depthLimit .expression = rule .expression from rfl] at runs
  cases ran : rule .expression g s with
  | ok e s₁ =>
    rw [ran] at runs after
    obtain ⟨_, ⟨done, rest, here, _⟩, resolved⟩ := runs
    obtain rfl : st' = s₁.store := after
    refine ⟨done, rest, here.split, fun _ => here.upcoming, here.gains, ?_, ?_⟩
    · rintro e' s' read
      cases read
      exact resolved
    · rintro e' s' ok
      obtain ⟨e₀, s₂, read, simple⟩ := rule_of_whole ok
      cases ran.symm.trans read
      exact (Expr.everywhere_simplify (Expr.staysWith_isResolved _ _ _) e resolved).result simple
  | error f s₁ =>
    rw [ran] at runs after
    obtain ⟨done, rest, split, gains, left⟩ := runs
    obtain rfl : st' = s₁.store := after
    -- whatever else may stop the rule, the upcoming tokens are known
    refine ⟨done, rest, split, fun whole => left ?_, gains, ?_, ?_⟩
    · rintro rfl
      exact whole s₁ (whole_of_brokenSource ran)
    · rintro e' s' read
      cases read
    · rintro e' s' ok
      obtain ⟨e₀, s₂, read, _⟩ := rule_of_whole ok
      cases ran.symm.trans read

/-- The effect of reading a text on variables and scopes, whatever is wrong with the text and
however reading it ends. The tokens of the text are those that were consumed for the expression and
the rest. No variable that there was changes or is lost, and no other scope than the one in which
names are looked up gains one. It gains those that were read as variables in the consumed part and
were unknown, and none if it is strict. All references are to the variables that the names have in
the end. -/
theorem whole_gains {n : Nat} {st : Store} (src : Source) (reached : Store.Reached n st)
    (exist : g.scope < st.scopes.length) :
    let s : ParserState := ⟨.ofSource src, st⟩
    let st' := (stateAfter (whole g s)).store
    ∃ done rest, (∀ us, Upcoming s.tokens us ↔ us = done ++ rest)
      ∧ ((∀ s', whole g s ≠ .error .brokenSource s') →
          ∀ us, Upcoming (stateAfter (rule .expression g s)).tokens us ↔ us = rest)
      ∧ (∃ names, Store.Gains g.scope (ReadsVariable g done rest) st names st')
      ∧ Store.OnlyGains g.scope (ReadsVariable g done rest) st st'
      ∧ (∀ e s₁, rule .expression g s = .ok e s₁ → e.Everywhere (Expr.IsResolved st' g.scope))
      ∧ ∀ e s', whole g s = .ok e s' → e.Everywhere (Expr.IsResolved st' g.scope) := by
  intro s st'
  have named := reached.isSound.named
  obtain ⟨full, upcoming⟩ := TokenStream.exists_upcoming src
  obtain ⟨done, rest, rfl, left, ⟨names, gains⟩, raw, simple⟩ :=
    effect_whole upcoming rfl named exist (rfl : st' = _)
  exact ⟨done, rest, upcoming.iff, fun whole => (left whole).iff, ⟨names, gains⟩,
    gains.only exist named, raw, simple⟩

/-- A text that is rejected: with a quantifier, with one that there is not, a function, a constant,
and a rest. -/
theorem whole_gains_rejected :
    let st : Store := ({} : Store).afterAll 53 [.newScope none .float]
    let g : Grammar := { bits := 53, scope := 1, mode := .float, functions := .builtin }
    let s : ParserState := ⟨.ofSource (.ofString "2k + x * sin(y, 3 z) - pi) w"), st⟩
    Store.Reached 53 st ∧ g.scope < st.scopes.length ∧ (rejection? (whole g s)).isSome = true
      ∧ ∃ done rest, (∀ us, Upcoming s.tokens us ↔ us = done ++ rest)
        ∧ Store.OnlyGains g.scope (ReadsVariable g done rest) st (st.gained 1 ["x", "y"])
        ∧ ∀ e s₁, rule .expression g s = .ok e s₁
        → e.Everywhere (Expr.IsResolved (st.gained 1 ["x", "y"]) g.scope) := by
  intro st g s
  have reached : Store.Reached 53 st :=
    Store.Reached.empty.step (o := .newScope none .float) (by decide)
  have exist : g.scope < st.scopes.length := by decide
  have rejected : (rejection? (whole g s)).isSome = true := by decide +kernel
  have store : (stateAfter (whole g s)).store = st.gained 1 ["x", "y"] := by decide +kernel
  obtain ⟨done, rest, tokens, _, _, gains, resolved, _⟩ :=
    whole_gains (.ofString "2k + x * sin(y, 3 z) - pi) w") reached exist
  rw [show (stateAfter (whole g ⟨.ofSource (.ofString "2k + x * sin(y, 3 z) - pi) w"), st⟩)).store
    = _ from store]
    at gains resolved
  exact ⟨reached, exist, rejected, done, rest, tokens, gains, resolved⟩

end Formula.Parser
