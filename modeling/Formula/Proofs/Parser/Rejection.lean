import Formula.Proofs.Parser.Order
import Formula.Proofs.Parser.Progress

/-! Rejection. Whatever is wrong with a text, reading goes on to its end: it comes to the limit of
the depth or to an expression over numbers, in which functions have the arguments they take. So a
whole text, however malformed, comes to an expression or is rejected for the problems that were
found in it, and it is rejected if and only if one of them counts. All this holds where the chain of
scopes comes to an end. -/
namespace Formula.Parser

open TokenStream (Coming)

variable {g : Grammar} {s s' : ParserState} {ts : List Token}

theorem rejectDepth_rejects (coming : Coming s.tokens ts) :
    ∃ s', rejectDepth g s = .error (.rejected s'.tokens.problems) s' ∧
      s'.tokens.problems.any Problem.isError := by
  obtain ⟨t, s₁, _, looked, _⟩ := Steps.current (g := g) coming
  exact ⟨reported s₁ (tooDeep t), rejectDepth_run looked, isError_tooDeep s₁ t⟩

theorem steps_rejectRest (coming : Coming s.tokens ts) :
    Steps g s ts rejectRest fun _ _ => True := by
  refine (Steps.current coming).bind fun t s₁ ts₁ coming₁ _ _ => ?_
  split
  · exact (Steps.reject coming₁).bind fun _ _ _ coming₂ _ _ => .pure coming₂ trivial
  · exact .pure coming₁ trivial

theorem simplified_recovers (builtin : g.functions = .builtin) (coming : Coming s.tokens ts)
    (lexemes : ∀ t ∈ ts, Lexer.IsLexeme t) (numbers : s.store.HoldsNumbers g.scope)
    (ends : s.store.Ends g.scope) :
    ∃ s' ts', Coming s'.tokens ts' ∧ (simplified g s = .error .tooDeep s' ∨
      ∃ e, simplified g s = .ok e s') := by
  cases ran : rule .expression g s with
  | error f s' =>
    obtain ⟨⟨ts', coming', _⟩, excuse⟩ := run_fault coming ran
    cases excuse with
    | deep is => exact ⟨s', ts', coming', .inl (is ▸ bind_of_error ran _)⟩
    | endless is => exact absurd ends (not_ends_of_run (is ▸ ran))
    | fraction _ member is => exact absurd is.2 (plain_of_isLexeme (lexemes _ member) is.1)
  | ok e s' =>
    obtain ⟨ts', coming', _⟩ := run_advances coming ran
    obtain ⟨e', simple⟩ := simplify_of_run (builtin ▸ Registry.isTotal_builtin g.bits) numbers ran
    exact ⟨s', ts', coming', .inr ⟨e', simplified_of_run ran simple⟩⟩

/-- What a whole text may come to: an expression, where no problem counts, or else all of its
problems. -/
inductive IsSettled (g : Grammar) : EStateM.Result Fault ParserState Expr → Prop
  | accepted {e : Expr} {s : ParserState} (none : s.tokens.problems.any (counts g) = false) :
      IsSettled g (.ok e s)
  | rejected {s : ParserState} (some : s.tokens.problems.any (counts g) = true) :
      IsSettled g (.error (.rejected s.tokens.problems) s)

theorem whole_settles (builtin : g.functions = .builtin) (coming : Coming s.tokens ts)
    (lexemes : ∀ t ∈ ts, Lexer.IsLexeme t) (numbers : s.store.HoldsNumbers g.scope)
    (ends : s.store.Ends g.scope) : IsSettled g (whole g s) := by
  obtain ⟨s₁, ts₁, coming₁, deep | ⟨e, ran⟩⟩ :=
    simplified_recovers builtin coming lexemes numbers ends
  · obtain ⟨s₂, rejected, worse⟩ := rejectDepth_rejects (g := g) coming₁
    have counting : s₂.tokens.problems.any (counts g) = true := by
      obtain ⟨p, member, isError⟩ := List.any_eq_true.mp worse
      exact List.any_eq_true.mpr ⟨p, member, by simp [counts, isError]⟩
    unfold whole
    rw [bind_of_error ((tryCatch_of_error deep _).trans rejected)]
    exact .rejected counting
  · obtain ⟨_, s₂, _, rest, _⟩ := steps_rejectRest (g := g) coming₁
    have rejecting := rejectProblems_eq g s₂
    unfold whole
    rw [bind_of_ok (tryCatch_of_ok ran _), bind_of_ok rest]
    cases counting : s₂.tokens.problems.any (counts g) with
    | true =>
      rw [counting, if_pos rfl] at rejecting
      rw [bind_of_error rejecting]
      exact .rejected counting
    | false =>
      rw [counting, if_neg Bool.false_ne_true] at rejecting
      rw [bind_of_ok rejecting]
      exact .accepted counting

/-- A call of the built-in function of the name, with as many arguments as it takes. -/
def IsBuiltinCall : Expr → Prop
  | .call f name args => Registry.builtin.get? name = some f ∧ f.accepts args.length
  | _ => True

/-- Whatever is wrong with a text over numbers, reading it ends with an expression or with all of
the problems that were found, and with these if and only if one of them counts. What is simplified
on the way calls built-in functions only, with the arguments they take. -/
theorem whole_rejects_iff {src : Source} {st : Store} (steady : src.ending ≠ .breaking)
    (builtin : g.functions = .builtin) (numbers : st.HoldsNumbers g.scope)
    (ends : st.Ends g.scope) :
    IsSettled g (whole g ⟨.ofSource src, st⟩) ∧
      ∀ e s, rule .expression g ⟨.ofSource src, st⟩ = .ok e s → e.Everywhere IsBuiltinCall := by
  constructor
  · obtain ⟨ts, coming, lexemes⟩ := TokenStream.coming_ofSource steady
    exact whole_settles (s := ⟨.ofSource src, st⟩) builtin coming lexemes numbers ends
  · intro e s ran
    have read := ((goes_expression (admits_numbers g) (fixesOnly_numbers numbers)).ok ran).2
    refine Expr.Everywhere.mono read fun x here => ?_
    cases x with
    | call f name args =>
      obtain ⟨⟨rfl, rfl⟩ | named, accepted⟩ := here
      · exact ⟨rfl, accepted⟩
      · exact ⟨builtin ▸ named, accepted⟩
    | constant | reference | binary => trivial

/-- A text that is malformed in many ways, from a source that fails. -/
theorem whole_rejects_iff_malformed :
    let g : Grammar := { bits := 53, scope := 0, mode := .float, functions := .builtin }
    let st : Store :=
      { vars := [⟨"x", .float .one, false⟩], scopes := [⟨none, .float, true, [("x", 0)]⟩] }
    let src : Source := ⟨"2q + (x * max(1, -".toList, .failing "disk error"⟩
    (problemsAfter (whole g ⟨.ofSource src, st⟩)).any (counts g) = true ∧ st.Ends g.scope ∧
      IsSettled g (whole g ⟨.ofSource src, st⟩) ∧
      ∀ e s, rule .expression g ⟨.ofSource src, st⟩ = .ok e s → e.Everywhere IsBuiltinCall := by
  intro g st src
  have steady : src.ending ≠ .breaking := by decide
  have numbers : st.HoldsNumbers g.scope :=
    Store.holdsNumbers_of_vars (List.forall_mem_singleton.mpr (.float .one)) 0
  have counting : (problemsAfter (whole g ⟨.ofSource src, st⟩)).any (counts g) = true := by
    decide +kernel
  have builtin : g.functions = .builtin := rfl
  have ends : st.Ends g.scope := ⟨[0], .top rfl⟩
  exact ⟨counting, ends, whole_rejects_iff steady builtin numbers ends⟩

/-- Between scopes that lie below each other a text may come to neither. -/
theorem whole_unsettled :
    let g : Grammar := { bits := 53, scope := 1, mode := .float, functions := .builtin }
    let src : Source := .ofString "x"
    src.ending ≠ .breaking ∧ Store.looped.HoldsNumbers 1 ∧
      ¬ IsSettled g (whole g ⟨.ofSource src, .looped⟩) ∧
        IsEndless (whole g ⟨.ofSource src, .looped⟩) := by
  intro g src
  have endless : IsEndless (whole g ⟨.ofSource src, .looped⟩) := by decide +kernel
  refine ⟨by decide, Store.holdsNumbers_of_vars isNumber_of_looped 1, fun settled => ?_, endless⟩
  obtain ⟨s', run⟩ := endless
  rw [run] at settled
  cases settled

end Formula.Parser
