import Formula.Proofs.Parser.Acceptance
import Formula.Proofs.Parser.Moves
import Formula.Proofs.TokenStream.Positions

/-! The order of problems. A rejected text has its problems in the order of the text, with two
exceptions: what is wrong with the characters of a token may be found before the parser rejects a
token in front of it, and the number of the arguments of a call is checked behind the call, but
reported at its name. -/
namespace Formula.Parser

open TokenStream (Placed Passed Onward Gives)
open Lexer (IsLexical)

variable {g : Grammar} {o s s' : ParserState} {ts ts' : TokenStream} {t : Token} {p : Problem}

/-- The first problem does not lie behind the second one, unless there is a reason for it. -/
inductive InOrder (p q : Problem) : Prop
  | placed (le : p.position ≤ q.position)
  /-- The characters ahead were read before a token was rejected. -/
  | ahead (lexical : IsLexical p) (syntactic : IsSyntactic q)
  | miscount (is : IsMiscount q)

/-- A stream that has reported all problems in order. -/
structure Orderly (ts : TokenStream) : Prop where
  placed : Placed ts
  sorted : ts.problems.Pairwise InOrder
  read : ∀ p ∈ ts.problems, p.position ≤ ts.source.reader.position
  passed : ∀ p ∈ ts.problems, IsLexical p ∨ Passed ts p.position

namespace Orderly

theorem ofSource (text : String) : Orderly (.ofSource (.ofString text)) where
  placed := TokenStream.placed_ofSource text
  sorted := .nil
  read := List.forall_mem_nil _
  passed := List.forall_mem_nil _

theorem onward (h : Orderly ts) (on : Onward ts ts') : Orderly ts' := by
  obtain ⟨ps, reports⟩ := on.reports
  have problems : ts'.problems = ts.problems ++ ps := reports.problems
  constructor
  · exact on.placed
  · rw [problems, List.pairwise_append]
    refine ⟨h.sorted, reports.sorted.imp .placed, ?_⟩
    intro p old q new
    exact .placed (Position.le_trans (h.read p old) (reports.ahead q new))
  · rw [problems, List.forall_mem_append]
    constructor
    · intro p old
      exact Position.le_trans (h.read p old) reports.onward
    · exact reports.passed
  · rw [problems, List.forall_mem_append]
    constructor
    · intro p old
      exact (h.passed p old).imp_right (on.passed p.position)
    · intro p new
      exact .inl (reports.lexical p new)

theorem before (h : Orderly ts) (gives : Gives ts t ts') :
    ∀ p ∈ ts'.problems, IsLexical p ∨ p.position ≤ t.position := by
  obtain ⟨ps, reports⟩ := gives.reports
  have problems : ts'.problems = ts.problems ++ ps := reports.problems
  rw [problems, List.forall_mem_append]
  constructor
  · intro p old
    exact (h.passed p old).imp_right (gives.beyond p.position)
  · intro p new
    exact .inl (reports.lexical p new)

theorem report (h : Orderly ts) (order : ∀ q ∈ ts.problems, InOrder q p)
    (here : Passed ts p.position) :
    Orderly (ts.mapLexer (·.report p)) := by
  have problems : (ts.mapLexer (·.report p)).problems = ts.problems ++ [p] := rfl
  constructor
  · exact h.placed.report p
  · rw [problems]
    exact pairwise_snoc h.sorted order
  · rw [problems, List.forall_mem_append]
    exact ⟨h.read, List.forall_mem_singleton.mpr here.reader⟩
  · rw [problems, List.forall_mem_append]
    constructor
    · intro q old
      exact (h.passed q old).imp_right (·.report p)
    · exact List.forall_mem_singleton.mpr (.inr (here.report p))

theorem reject (h : Orderly ts) (gives : Gives ts t ts') (wrong : IsSyntactic p)
    (place : p.position = t.position) :
    Orderly (ts'.mapLexer (·.report p)) := by
  apply (h.onward gives.toOnward).report
  · intro q found
    rcases h.before gives q found with lexical | le
    · exact .ahead lexical wrong
    · exact .placed (place ▸ le)
  · rw [place]
    exact gives.taken

/-- No move disturbs the order, and what has been passed stays behind. -/
theorem moves (h : Orderly s.tokens) (moves : Moves g s s') :
    Orderly s'.tokens ∧ ∀ q, Passed s.tokens q → Passed s'.tokens q := by
  induction moves with
  | none | name => exact ⟨h, fun _ => id⟩
  | trans _ _ ih ih' =>
    obtain ⟨h', first⟩ := ih h
    obtain ⟨h'', second⟩ := ih' h'
    exact ⟨h'', fun q passed => second q (first q passed)⟩
  | look run =>
    have on := h.placed.looks (Lookahead.found_at? run).1
    exact ⟨h.onward on, on.passed⟩
  | take run =>
    have gives := h.placed.consume run
    exact ⟨h.onward gives.toOnward, gives.passed⟩
  | stuck breaks => exact absurd breaks (h.placed.not_breaks _)
  | reject run wrong place =>
    have gives := h.placed.consume run
    exact ⟨h.reject gives wrong place, fun q passed => (gives.passed q passed).report _⟩
  | miss run wrong place =>
    have gives := h.placed.current run
    exact ⟨h.reject gives wrong place, fun q passed => (gives.passed q passed).report _⟩
  | miscount run call wrong place ih =>
    -- the name of the call has been passed since it was consumed
    have gives := h.placed.consume run
    obtain ⟨h', kept⟩ := ih (h.onward gives.toOnward)
    constructor
    · exact h'.report (fun q _ => .miscount wrong) (place ▸ kept _ gives.taken)
    · intro q passed
      exact (kept q (gives.passed q passed)).report _

end Orderly

section Whole

theorem goes_simplified (answers : ∀ e s f, rule .expression g o = .ok e s →
      (e.simplify (s.store.knowledge g.bits)).result = .error f → f = .tooDeep) :
    Goes g o o simplified fun _ _ => True := by
  have reads : Goes g o o (rule .expression) fun e s => rule .expression g o = .ok e s := by
    have goes := goes_expression (admits_any g) (o := o) fun _ _ _ _ _ => trivial
    cases ran : rule .expression g o with
    | ok e s => exact .of_ok ran (goes.ok ran).1 rfl
    | error f s =>
      obtain ⟨moves, excused⟩ := goes.error ran
      exact .of_error ran moves excused
  refine reads.bind fun e s moves ran => .get (.read ?_)
  cases simple : (e.simplify (s.store.knowledge g.bits)).result with
  | ok e' => exact .pure moves trivial
  | error f =>
    obtain rfl := answers e s f ran simple
    exact .throw moves (.other nofun nofun)

def tooDeep (t : Token) : Problem := ⟨.error, t.position, "Expression is nested too deeply."⟩

theorem isError_tooDeep (s : ParserState) (t : Token) :
    (reported s (tooDeep t)).tokens.problems.any Problem.isError = true :=
  List.any_eq_true.mpr ⟨tooDeep t, List.mem_append_right _ List.mem_cons_self, rfl⟩

theorem rejectDepth_run (looked : current g s = .ok t s') : rejectDepth g s =
    .error (.rejected (reported s' (tooDeep t)).tokens.problems) (reported s' (tooDeep t)) := by
  have told : complain t "Expression is nested too deeply." g s' =
      .ok () (reported s' (tooDeep t)) := rfl
  have rejected : onTokens TokenStream.rejectErrors g (reported s' (tooDeep t)) =
      .error (.rejected (reported s' (tooDeep t)).tokens.problems) (reported s' (tooDeep t)) := by
    simp only [onTokens, rejectErrors_eq, isError_tooDeep, if_true]
  exact (bind_of_ok looked _).trans ((bind_of_ok told _).trans (bind_of_error rejected _))

theorem goes_rejectDepth (moves : Moves g o s) : Goes g o s rejectDepth fun _ _ => True := by
  have looks := goes_current moves
  cases looked : current g s with
  | ok t s' =>
    have told := (looks.ok looked).2.miss (p := tooDeep t) (.depth _) rfl
    exact .of_error (rejectDepth_run looked) told (.problems rfl)
  | error f s' =>
    obtain ⟨moves', excused⟩ := looks.error looked
    exact .of_error (bind_of_error looked _) moves' excused

theorem goes_rejectRest (moves : Moves g o s) : Goes g o s rejectRest fun _ _ => True := by
  refine (goes_current moves).bind fun t s₁ moves₁ _ => ?_
  split
  · exact (goes_reject (admits_any g) moves₁).bind fun _ _ moves₂ _ => .pure moves₂ trivial
  · exact .pure moves₁ trivial

theorem goes_rejectProblems (moves : Moves g o s) : Goes g o s rejectProblems fun _ _ => True := by
  have rejecting := rejectProblems_eq g s
  split at rejecting
  · exact .of_error rejecting moves (.problems rfl)
  · exact .of_ok rejecting moves trivial

theorem goes_whole (answers : ∀ e s f, rule .expression g o = .ok e s →
      (e.simplify (s.store.knowledge g.bits)).result = .error f → f = .tooDeep) :
    Goes g o o whole fun _ _ => True := by
  apply Goes.bind
  · apply (goes_simplified answers).recover
    intro f s moves excused
    cases f with
    | tooDeep => exact goes_rejectDepth moves
    | _ => exact .throw moves excused
  · intro e _ moves _
    refine (goes_rejectRest moves).bind fun _ _ moves₁ _ => ?_
    exact (goes_rejectProblems moves₁).bind fun _ _ moves₂ _ => .pure moves₂ trivial

end Whole

theorem inOrder_of_rejected {ps : List Problem} (orderly : Orderly o.tokens)
    (rejected : whole g o = .error (.rejected ps) s') :
    ps.Pairwise InOrder ∨ ∃ e s, rule .expression g o = .ok e s ∧
      (e.simplify (s.store.knowledge g.bits)).result = .error (.rejected ps) := by
  -- A function that is computed while simplifying might itself reject a text.
  by_cases called : ∃ e s f, rule .expression g o = .ok e s ∧
      (e.simplify (s.store.knowledge g.bits)).result = .error f ∧ f ≠ .tooDeep
  · obtain ⟨e, s, f, ran, simple, other⟩ := called
    have simplifies : simplified g o = .error f s := by
      rw [simplified_run ran, simple]
      rfl
    have raised : whole g o = .error f s := by
      unfold whole
      refine bind_of_error ((tryCatch_of_error simplifies _).trans ?_) _
      split
      · exact absurd rfl other
      · rfl
    obtain ⟨rfl, _⟩ := EStateM.Result.error.inj (rejected.symm.trans raised)
    exact .inr ⟨e, s, ran, simple⟩
  · have goes := goes_whole fun e s f ran simple =>
      by_contra fun other => called ⟨e, s, f, ran, simple, other⟩
    obtain ⟨moves, excused⟩ := goes.error rejected
    cases excused with
    | other no => exact absurd rfl (no ps)
    | problems all => exact .inl (Fault.rejected.inj all ▸ (orderly.moves moves).1.sorted)
    | stuck reached breaks => exact absurd breaks ((orderly.moves reached).1.placed.not_breaks _)

/-- The problems of a rejected text are in order, unless the rejection is that of a function which
was called while the text was simplified. -/
theorem whole_inOrder {text : String} {st : Store} {ps : List Problem}
    (rejected : whole g ⟨.ofSource (.ofString text), st⟩ = .error (.rejected ps) s') :
    ps.Pairwise InOrder ∨ ∃ e s, rule .expression g ⟨.ofSource (.ofString text), st⟩ = .ok e s ∧
      (e.simplify (s.store.knowledge g.bits)).result = .error (.rejected ps) :=
  inOrder_of_rejected (Orderly.ofSource text) rejected

/-- Problems of all kinds, in nested calls and ahead of the parser. -/
theorem whole_inOrder_nested :
    let g : Grammar := { bits := 53, scope := 0, mode := .float, functions := .builtin }
    let st : Store := { vars := [], scopes := [⟨none, .float, true, []⟩] }
    let text : String := "sin(cos(1, x), foo(1 2.3.4, 'a$ )"
    ∃ ps s', whole g ⟨.ofSource (.ofString text), st⟩ = .error (.rejected ps) s' ∧ ps.length = 10 ∧
      (ps.Pairwise InOrder ∨ ∃ e s, rule .expression g ⟨.ofSource (.ofString text), st⟩ = .ok e s ∧
        (e.simplify (s.store.knowledge g.bits)).result = .error (.rejected ps)) := by
  intro g st text
  have found : (rejection? (whole g ⟨.ofSource (.ofString text), st⟩)).map List.length =
      some 10 := by decide +kernel
  obtain ⟨ps, named, length⟩ := Option.map_eq_some_iff.mp found
  obtain ⟨s', rejected⟩ := exists_of_rejection? named
  exact ⟨ps, s', rejected, length, whole_inOrder rejected⟩

/-- The second of two problems lies before the first one: the number of arguments is reported at the
name of the function, behind what is wrong with the arguments. -/
theorem whole_miscount :
    let g : Grammar := { bits := 53, scope := 0, mode := .float, functions := .builtin }
    let st : Store := { vars := [], scopes := [⟨none, .float, false, []⟩] }
    ∃ p q s', whole g ⟨.ofSource (.ofString "sin(1 2)"), st⟩ = .error (.rejected [p, q]) s' ∧
      p.position = ⟨1, 7⟩ ∧ q.position = ⟨1, 1⟩ := by
  intro g st
  have found : (rejection? (whole g ⟨.ofSource (.ofString "sin(1 2)"), st⟩)).map
      (List.map Problem.position) =
      some [⟨1, 7⟩, ⟨1, 1⟩] := by decide +kernel
  obtain ⟨ps, named, places⟩ := Option.map_eq_some_iff.mp found
  obtain ⟨s', rejected⟩ := exists_of_rejection? named
  obtain ⟨p, rest, rfl, first, others⟩ := List.map_eq_cons_iff.mp places
  obtain ⟨q, rest', rfl, second, none⟩ := List.map_eq_cons_iff.mp others
  obtain rfl := List.map_eq_nil_iff.mp none
  exact ⟨p, q, s', rejected, first, second⟩

end Formula.Parser
