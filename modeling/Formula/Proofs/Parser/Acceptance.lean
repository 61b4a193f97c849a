import Formula.Proofs.Expr.Simplification
import Formula.Proofs.Parser.Completeness
import Formula.Proofs.Parser.Derivation
import Formula.Proofs.Parser.Moves
import Formula.Proofs.Parser.Soundness
import Formula.Proofs.Store.Chains

/-! Acceptance. A whole text is read without a problem if and only if the grammar derives its
tokens. -/
namespace Formula.Parser

variable {mark : Token} {g : Grammar} {v : View} {ts : List Token} {st : Store}
  {o s : ParserState} {k : Knowledge}

/-- The problems that were found by the end of a run. -/
def problemsAfter {α : Type} : EStateM.Result Fault ParserState α → List Problem
  | .ok _ s | .error _ s => s.tokens.problems

theorem run_of_reads (isEnd : mark.isEnd) {d : Nat} {r : Rule} {e : Expr} {st' : Store}
    {ps : List Problem} (reads : Reads g d r st ts e st') (sees : Sees mark s ⟨ts, st, ps⟩) :
    ∃ s', run d r g s = .ok e s' ∧ Sees mark s' ⟨[], st', ps⟩ := by
  have yields := yields_of_reads reads [] ps (stops_of_isEnd isEnd r)
  rw [List.append_nil] at yields
  exact yields s sees

theorem run_of_reads_within (isEnd : mark.isEnd) {d n : Nat} {r : Rule} {e : Expr} {st' : Store}
    {ps : List Problem} (reads : Reads g n r st ts e st') (sees : Sees mark s ⟨ts, st, ps⟩)
    (within : ¬ IsTooDeep (run d r g s)) :
    ∃ s', run d r g s = .ok e s' ∧ Sees mark s' ⟨[], st', ps⟩ := by
  obtain ⟨s', ran, sees'⟩ := run_of_reads isEnd (reads.mono (Nat.le_max_right d n)) sees
  have same := (run_approximates (Nat.le_max_left d n) r g s).resolve_left within
  exact ⟨s', same ▸ ran, sees'⟩

theorem yields_rejectRest (isEnd : mark.isEnd) (notEnd : ∀ t ∈ v.tokens, t.isEnd = false) :
    ∃ v', Yields mark g v rejectRest () v' ∧
      (v'.problems = [] ↔ v.problems = [] ∧ v.tokens = []) := by
  obtain ⟨_ | ⟨t, rest⟩, store, problems⟩ := v
  · refine ⟨⟨[], store, problems⟩, yields_current.bind ?_, by simp⟩
    rw [if_neg (by simp [View.token, isEnd])]
    exact .pure ()
  · have here := notEnd t List.mem_cons_self
    let text := "Unexpected token: '" ++ t.source ++ "'. Expected an expression."
    refine ⟨(View.mk rest store problems).complained t text, yields_current.bind ?_, ?_⟩
    · rw [if_pos (by simp [View.token, here])]
      have rejected : Yields mark g ⟨t :: rest, store, problems⟩ reject .empty _ :=
        yields_consume.bind ((yields_complain t text).bind (.pure Expr.empty))
      exact rejected.bind (.pure ())
    · simp [View.complained]

/-- Whether a problem counts: an error always does, a warning may not. -/
def counts (g : Grammar) (p : Problem) : Bool := g.failOnWarnings || p.isError

theorem rejectErrors_eq (s : TokenStream) :
    TokenStream.rejectErrors s = if s.problems.any Problem.isError
      then .error (.rejected s.problems) s else .ok () s := by
  have unfolded : TokenStream.rejectErrors s = (if s.problems.any Problem.isError
      then throw (.rejected s.problems) else pure () : EStateM Fault TokenStream Unit) s := rfl
  rw [unfolded]
  cases s.problems.any Problem.isError <;> rfl

/-- A text is rejected if and only if some problem counts, and then for all of its problems. -/
theorem rejectProblems_eq (g : Grammar) (s : ParserState) :
    rejectProblems g s = if s.tokens.problems.any (counts g)
      then .error (.rejected s.tokens.problems) s else .ok () s := by
  have problems : TokenStream.rejectProblems s.tokens = if s.tokens.problems.isEmpty
      then .ok () s.tokens else .error (.rejected s.tokens.problems) s.tokens := by
    have unfolded : TokenStream.rejectProblems s.tokens = (if !s.tokens.problems.isEmpty
        then throw (.rejected s.tokens.problems) else pure () :
        EStateM Fault TokenStream Unit) s.tokens := rfl
    rw [unfolded]
    cases s.tokens.problems.isEmpty <;> rfl
  have asked : (read : Parser Grammar) g s = .ok g s := rfl
  unfold rejectProblems counts
  rw [bind_of_ok asked]
  cases g.failOnWarnings with
  | true => cases hp : s.tokens.problems <;> simp [onTokens, problems, hp]
  | false =>
    cases worse : s.tokens.problems.any Problem.isError <;> simp [onTokens, rejectErrors_eq, worse]

theorem rejectProblems_cases (g : Grammar) (s : ParserState) :
    rejectProblems g s = .ok () s ∨
      (s.tokens.problems ≠ [] ∧ ∃ f, rejectProblems g s = .error f s) := by
  rw [rejectProblems_eq]
  split
  · rename_i some
    exact .inr ⟨fun none => by simp [none] at some, _, rfl⟩
  · exact .inl rfl

mutual

theorem isNumeric_of_read (total : g.functions.IsTotal k.bits) (known : k.fixed = o.store.fixed?) :
    ∀ e : Expr, IsRead g Value.IsNumber o e → e.IsNumeric k
  | .constant _, h => h
  | .reference v _, h => fun x fixed => h x (known ▸ fixed)
  | .binary _ l r _, h =>
    ⟨isNumeric_of_read total known l h.2.1, isNumeric_of_read total known r h.2.2⟩
  | .call f name args, h => by
    obtain ⟨⟨named, accepted⟩, others⟩ := h
    have gives : f.IsTotal k.bits := by
      rcases named with ⟨rfl, -⟩ | named
      · exact Function.isTotal_absolute
      · exact total name f named
    exact ⟨gives, accepted, areNumeric_of_areRead total known args others⟩

theorem areNumeric_of_areRead (total : g.functions.IsTotal k.bits)
    (known : k.fixed = o.store.fixed?) :
    ∀ es : List Expr, AreRead g Value.IsNumber o es → Expr.AreNumeric k es
  | [], _ => trivial
  | e :: rest, h =>
    ⟨isNumeric_of_read total known e h.1, areNumeric_of_areRead total known rest h.2⟩

end

theorem fixesOnly_numbers (numbers : s.store.HoldsNumbers g.scope) :
    s.store.FixesOnly Value.IsNumber g.scope :=
  fun name v _ found fixed => (Store.fixed?_eq_some.mp fixed).2 ▸ numbers name v found

/-- What is read over numbers can be simplified. -/
theorem simplify_of_run {e : Expr} {s' : ParserState} (total : g.functions.IsTotal g.bits)
    (numbers : s.store.HoldsNumbers g.scope) (ran : rule .expression g s = .ok e s') :
    ∃ e', (e.simplify (s'.store.knowledge g.bits)).result = .ok e' := by
  obtain ⟨moves, read⟩ := (goes_expression (admits_numbers g) (fixesOnly_numbers numbers)).ok ran
  have known : (s'.store.knowledge g.bits).fixed = s.store.fixed? := moves.fixed?
  obtain ⟨e', simple, _⟩ := Expr.succeeds_simplify e (isNumeric_of_read total known e read)
  exact ⟨e', simple⟩

theorem simplified_of_run {e e' : Expr} {s₁ : ParserState} (ran : rule .expression g s = .ok e s₁)
    (simple : (e.simplify (s₁.store.knowledge g.bits)).result = .ok e') :
    simplified g s = .ok e' s₁ := by
  rw [simplified_run ran, simple]
  rfl

theorem problemsAfter_whole {e' e : Expr} {s₁ : ParserState} {v₁ : View}
    (ran : rule .expression g s = .ok e s₁) (sees : Sees mark s₁ v₁)
    (simple : (e.simplify (s₁.store.knowledge g.bits)).result = .ok e') (isEnd : mark.isEnd)
    (notEnd : ∀ t ∈ v₁.tokens, t.isEnd = false) :
    (problemsAfter (whole g s) = [] ↔ v₁.problems = [] ∧ v₁.tokens = []) ∧
      (problemsAfter (whole g s) = [] → ∃ s', whole g s = .ok e' s') := by
  obtain ⟨v₂, rest, clean⟩ := yields_rejectRest (g := g) isEnd notEnd
  obtain ⟨s₂, ran₂, sees₂⟩ := rest s₁ sees
  rw [← clean, ← sees₂.problems]
  unfold whole
  rw [bind_of_ok (tryCatch_of_ok (simplified_of_run ran simple) _), bind_of_ok ran₂]
  rcases rejectProblems_cases g s₂ with kept | ⟨some, f, thrown⟩
  · rw [bind_of_ok kept]
    exact ⟨Iff.rfl, fun _ => ⟨s₂, rfl⟩⟩
  · rw [bind_of_error thrown]
    exact ⟨Iff.rfl, fun none => absurd none some⟩

theorem not_isCutShort {d : Nat} {r : Rule} (ends : s.store.Ends g.scope)
    (within : ¬ IsTooDeep (run d r g s)) : ¬ IsCutShort (run d r g s) := by
  rintro (deep | ⟨s', endless⟩)
  · exact within deep
  · exact not_ends_of_run endless ends

theorem not_isCutShort_of_ok {d : Nat} {r : Rule} {e : Expr} {s' : ParserState}
    (ran : run d r g s = .ok e s') : ¬ IsCutShort (run d r g s) := by
  rintro (⟨_, cut⟩ | ⟨_, cut⟩) <;> cases ran.symm.trans cut

/-- What a whole text without lexical problems comes to, unless reading it is cut short. -/
theorem whole_outcome (isEnd : mark.isEnd) (total : g.functions.IsTotal g.bits)
    (lexemes : ∀ t ∈ ts, Lexer.IsLexeme t) (numbers : st.HoldsNumbers g.scope)
    (sees : Sees mark s ⟨ts, st, []⟩) (through : ¬ IsCutShort (rule .expression g s)) :
    ∃ e s₁ v₁ e', rule .expression g s = .ok e s₁ ∧ s₁.store = v₁.store ∧
      (e.simplify (s₁.store.knowledge g.bits)).result = .ok e' ∧
      Outcome (Reads g depthLimit .expression) ⟨ts, st, []⟩ e v₁ ∧
      (problemsAfter (whole g s) = [] ↔ v₁.problems = [] ∧ v₁.tokens = []) ∧
      (problemsAfter (whole g s) = [] → ∃ s', whole g s = .ok e' s') := by
  have leads := leads_run (g := g) (v := ⟨ts, st, []⟩) isEnd depthLimit .expression lexemes nofun
  obtain ⟨e, s₁, v₁, ran, sees₁, outcome⟩ := (leads _ sees).resolve_left through
  obtain ⟨e', simple⟩ := simplify_of_run total (sees.store ▸ numbers) ran
  have notEnd : ∀ t ∈ v₁.tokens, t.isEnd = false := fun t ht =>
    (lexemes t (outcome.advances.tokens.subset ht)).notEnd
  exact ⟨e, s₁, v₁, e', ran, sees₁.store, simple, outcome,
    problemsAfter_whole ran sees₁ simple isEnd notEnd⟩

theorem reads_of_accepted (isEnd : mark.isEnd) (total : g.functions.IsTotal g.bits)
    (lexemes : ∀ t ∈ ts, Lexer.IsLexeme t) (numbers : st.HoldsNumbers g.scope)
    (sees : Sees mark s ⟨ts, st, []⟩) (through : ¬ IsCutShort (rule .expression g s))
    (accepted : problemsAfter (whole g s) = []) :
    ∃ e s', rule .expression g s = .ok e s' ∧ Reads g depthLimit .expression st ts e s'.store := by
  obtain ⟨e, s₁, v₁, _, ran, store, _, outcome, recorded, _⟩ :=
    whole_outcome isEnd total lexemes numbers sees through
  obtain ⟨problems, tokens⟩ := recorded.mp accepted
  obtain ⟨us, split, reads⟩ := outcome.reads problems
  obtain rfl : ts = us := by simpa [tokens] using split
  exact ⟨e, s₁, ran, store ▸ reads⟩

theorem accepted_of_reads (isEnd : mark.isEnd) (total : g.functions.IsTotal g.bits)
    (lexemes : ∀ t ∈ ts, Lexer.IsLexeme t) (numbers : st.HoldsNumbers g.scope)
    (sees : Sees mark s ⟨ts, st, []⟩)
    (within : ¬ IsTooDeep (rule .expression g s)) {d : Nat} {e : Expr} {st' : Store}
    (reads : Reads g d .expression st ts e st') :
    problemsAfter (whole g s) = [] ∧ ∃ e' s', whole g s = .ok e' s' := by
  obtain ⟨s', ran, sees'⟩ := run_of_reads_within isEnd reads sees within
  obtain ⟨e₁, s₁, _, e', ran', _, simple, _, _, returned⟩ :=
    whole_outcome isEnd total lexemes numbers sees (not_isCutShort_of_ok ran)
  obtain ⟨rfl, rfl⟩ := EStateM.Result.ok.inj (ran.symm.trans ran')
  have accepted := (problemsAfter_whole ran sees' simple isEnd (by simp)).1.mpr ⟨rfl, rfl⟩
  obtain ⟨s₂, ok⟩ := returned accepted
  exact ⟨accepted, e', s₂, ok⟩

/-- A text in which the lexer finds no problem is read without a problem if and only if the grammar
derives its tokens, and then it is an expression. The chain of scopes has to come to an end. -/
theorem whole_accepts_iff {src : Source}
    (lexed : TokenStream.lexed src = some (ts ++ [mark], [])) (isEnd : mark.isEnd)
    (total : g.functions.IsTotal g.bits) (numbers : st.HoldsNumbers g.scope)
    (ends : st.Ends g.scope) (within : ¬ IsTooDeep (rule .expression g ⟨.ofSource src, st⟩)) :
    (problemsAfter (whole g ⟨.ofSource src, st⟩) = [] ↔ Derives g st .expression ts) ∧
      (Derives g st .expression ts → ∃ e s', whole g ⟨.ofSource src, st⟩ = .ok e s') := by
  obtain ⟨ahead, lexemes⟩ := TokenStream.ahead_of_lexed isEnd lexed
  have sees : Sees mark ⟨.ofSource src, st⟩ ⟨ts, st, []⟩ := ⟨ahead, rfl, rfl⟩
  have accepted : Derives g st .expression ts → problemsAfter (whole g ⟨.ofSource src, st⟩) = [] ∧
      ∃ e s', whole g ⟨.ofSource src, st⟩ = .ok e s' := by
    intro derives
    obtain ⟨d, e, st', reads⟩ := (derives_iff_reads fun _ => ends).mp derives
    exact accepted_of_reads isEnd total lexemes numbers sees within reads
  refine ⟨⟨fun none => ?_, fun derives => (accepted derives).1⟩,
    fun derives => (accepted derives).2⟩
  obtain ⟨e, s', _, reads⟩ :=
    reads_of_accepted isEnd total lexemes numbers sees (not_isCutShort ends within) none
  exact derives_of_reads reads (.refl _ _)

theorem whole_accepts_iff_quantity :
    let g : Grammar := { bits := 53, scope := 0, mode := .float, functions := .builtin }
    let st : Store :=
      { vars := [⟨"x", .float .one, true⟩], scopes := [⟨none, .float, true, [("x", 0)]⟩] }
    let src : Source := .ofString "sin(x) -2k"
    let ts : List Token :=
      [⟨.identifier, "", "sin", "sin", ⟨1, 1⟩⟩, ⟨.symbol, "(", "(", "(", ⟨1, 4⟩⟩,
       ⟨.identifier, "", "x", "x", ⟨1, 5⟩⟩, ⟨.symbol, ")", ")", ")", ⟨1, 6⟩⟩,
       ⟨.integer, "", "-2", "-2", ⟨1, 8⟩⟩, ⟨.identifier, "", "k", "k", ⟨1, 10⟩⟩]
    let mark : Token := ⟨.endOfInput, "", "", "<End Of Input>", ⟨1, 10⟩⟩
    TokenStream.lexed src = some (ts ++ [mark], []) ∧ st.Ends g.scope ∧
      ¬ IsTooDeep (rule .expression g ⟨.ofSource src, st⟩) ∧
      (problemsAfter (whole g ⟨.ofSource src, st⟩) = [] ↔ Derives g st .expression ts) := by
  intro g st src ts mark
  have lexed : TokenStream.lexed src = some (ts ++ [mark], []) := by decide +kernel
  have within : ¬ IsTooDeep (rule .expression g ⟨.ofSource src, st⟩) := by decide +kernel
  have numbers : st.HoldsNumbers g.scope :=
    Store.holdsNumbers_of_vars (List.forall_mem_singleton.mpr (.float .one)) 0
  have total : g.functions.IsTotal g.bits := Registry.isTotal_builtin 53
  have ends : st.Ends g.scope := ⟨[0], .top rfl⟩
  exact ⟨lexed, ends, within, (whole_accepts_iff lexed rfl total numbers ends within).1⟩

theorem isNumber_of_looped : ∀ x ∈ Store.looped.vars, x.value.IsNumber :=
  List.forall_mem_cons.mpr ⟨.float _, List.forall_mem_singleton.mpr (.float _)⟩

/-- Between scopes that lie below each other, a name that the grammar derives is never read, and one
that it does not derive is never reported: the search for it has no end. -/
theorem whole_endless_name :
    let g : Grammar := { bits := 53, scope := 1, mode := .float, functions := .builtin }
    let src : Source := .ofString "x"
    let ts : List Token := [⟨.identifier, "", "x", "x", ⟨1, 1⟩⟩]
    let mark : Token := ⟨.endOfInput, "", "", "<End Of Input>", ⟨1, 1⟩⟩
    let strict : Store := Store.looped.setStrict 1 true
    TokenStream.lexed src = some (ts ++ [mark], []) ∧
      Store.looped.HoldsNumbers 1 ∧ Derives g .looped .expression ts ∧
      IsEndless (whole g ⟨.ofSource src, .looped⟩) ∧
      strict.HoldsNumbers 1 ∧ ¬ Derives g strict .expression ts ∧
      IsEndless (whole g ⟨.ofSource src, strict⟩) ∧
      problemsAfter (whole g ⟨.ofSource src, strict⟩) = [] := by
  intro g src ts mark strict
  have lexed : TokenStream.lexed src = some (ts ++ [mark], []) := by decide +kernel
  have free : Derives g .looped .atom ts := .variable ⟨rfl, fun strict => absurd strict (by decide)⟩
  have derives : Derives g .looped .expression ts :=
    .operand rfl (.operand rfl (.operand rfl (.operand rfl (.operand rfl free))))
  refine ⟨lexed, Store.holdsNumbers_of_vars isNumber_of_looped 1, derives, by decide +kernel,
    Store.holdsNumbers_of_vars isNumber_of_looped 1, fun derives => ?_, by decide +kernel,
    by decide +kernel⟩
  -- What is derived in a strict scope is read, but reading the name has no end.
  obtain ⟨d, e, st', reads⟩ := (derives_iff_reads fun free => absurd free (by decide)).mp derives
  obtain ⟨ahead, _⟩ := TokenStream.ahead_of_lexed rfl lexed
  have within : ¬ IsTooDeep (rule .expression g ⟨.ofSource src, strict⟩) := by decide +kernel
  have endless : IsEndless (rule .expression g ⟨.ofSource src, strict⟩) := by decide +kernel
  obtain ⟨s', ran, _⟩ := run_of_reads_within rfl reads ⟨ahead, rfl, rfl⟩ within
  obtain ⟨s'', run⟩ := endless
  cases ran.symm.trans run

end Formula.Parser
