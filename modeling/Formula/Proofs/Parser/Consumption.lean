import Formula.Proofs.Parser.Order
import Formula.Proofs.TokenStream.Consuming

/-! What a parser consumes. A rule does nothing to the tokens but look ahead, consume and report,
and so a text that is parsed was read to its end. -/
namespace Formula.Parser

open TokenStream (Consumed Halfway)
open Lexer (Splits)

variable {α : Type} {g : Grammar} {s s' : ParserState}

theorem onTokens_eq_ok {m : EStateM Fault TokenStream α} {a : α} (run : onTokens m g s = .ok a s') :
    m s.tokens = .ok a s'.tokens := by
  unfold onTokens at run
  cases ran : m s.tokens with
  | ok b ts =>
    simp only [ran] at run
    cases run
    rfl
  | error f ts => simp [ran] at run

/-- No move does anything to the tokens but look ahead, consume and report. -/
theorem Moves.consumed (h : Orderly s.tokens) (moves : Moves g s s') :
    ∃ ts, Consumed s.tokens ts s'.tokens := by
  induction moves with
  | none | name => exact ⟨[], .none⟩
  | trans first _ ih ih' =>
    obtain ⟨ts, before⟩ := ih h
    obtain ⟨us, after⟩ := ih' (h.moves first).1
    exact ⟨ts ++ us, before.trans after⟩
  | look run => exact ⟨[], .look .none run⟩
  | take run => exact Consumed.exists_of_consume run
  | stuck breaks => exact absurd breaks (h.placed.not_breaks _)
  | reject run =>
    obtain ⟨ts, taken⟩ := Consumed.exists_of_consume run
    exact ⟨ts, .report _ taken⟩
  | miss run => exact ⟨[], .report _ (.look .none run)⟩
  | miscount run _ _ _ ih =>
    obtain ⟨ts, taken⟩ := Consumed.exists_of_consume run
    obtain ⟨us, called⟩ := ih (h.onward (h.placed.consume run).toOnward)
    exact ⟨ts ++ us, .report _ (taken.trans called)⟩

theorem simplified_moves {e : Expr} (ran : simplified g s = .ok e s') : Moves g s s' := by
  obtain ⟨e', parsed, _⟩ := simplified_eq_ok ran
  exact ((goes_expression (admits_any g) fun _ _ _ _ _ => trivial).ok parsed).1

theorem rejectDepth_ne_ok (e : Expr) : rejectDepth g s ≠ .ok e s' := by
  intro run
  cases looked : current g s with
  | ok t s₁ => cases (rejectDepth_run looked).symm.trans run
  | error f s₁ => cases (bind_of_error looked _).symm.trans run

theorem error_of_reject {e : Expr} (run : reject g s = .ok e s') :
    ∃ p ∈ s'.tokens.problems, p.isError := by
  obtain ⟨t, s₁, _, run⟩ := bind_eq_ok run
  obtain ⟨_, s₂, reported, run⟩ := bind_eq_ok run
  cases reported
  cases run
  exact ⟨_, List.mem_append_right _ List.mem_cons_self, rfl⟩

theorem rejectProblems_eq_ok (run : rejectProblems g s = .ok () s') :
    s' = s ∧ ∀ p ∈ s.tokens.problems, p.isError = false := by
  rw [rejectProblems_eq] at run
  split at run
  · cases run
  · rename_i none
    cases run
    refine ⟨rfl, fun p hp => Bool.eq_false_iff.mpr fun isError => none ?_⟩
    exact List.any_eq_true.mpr ⟨p, hp, by simp [counts, isError]⟩

/-- A text that is parsed has no error, and after it is simplified the current token is the end. -/
theorem whole_eq_ok {e : Expr} (ok : whole g s = .ok e s') :
    ∃ s₁ t, simplified g s = .ok e s₁ ∧ current g s₁ = .ok t s' ∧ t.isEnd ∧
      ∀ p ∈ s'.tokens.problems, p.isError = false := by
  obtain ⟨e', s₁, caught, run⟩ := bind_eq_ok ok
  obtain ⟨_, s₂, rest, run⟩ := bind_eq_ok run
  obtain ⟨_, s₃, kept, run⟩ := bind_eq_ok run
  cases run
  obtain ⟨rfl, clean⟩ := rejectProblems_eq_ok kept
  obtain ⟨t, s₃, looked, rest⟩ := bind_eq_ok rest
  -- a token that is left over is rejected, which is an error
  have isEnd : t.isEnd = true := by
    by_contra more
    have more : t.isEnd = false := by simpa using more
    rw [more, Bool.not_false, if_pos rfl] at rest
    have rest : (reject >>= fun _ => pure ()) g s₃ = .ok () s' := rest
    obtain ⟨_, s₄, rejected, same⟩ := bind_eq_ok rest
    cases same
    obtain ⟨p, member, isError⟩ := error_of_reject rejected
    simp [clean p member] at isError
  rw [isEnd, Bool.not_true, if_neg Bool.false_ne_true] at rest
  cases rest
  refine ⟨s₁, t, ?_, looked, isEnd, clean⟩
  cases ran : simplified g s with
  | ok e₁ s₂ => exact (tryCatch_of_ok ran _).symm.trans caught
  | error f s₂ =>
    rw [tryCatch_of_error ran] at caught
    cases f with
    | tooDeep => exact absurd caught (rejectDepth_ne_ok e)
    | _ => cases caught

/-- A text that is parsed was read to its end, or to its first null character: it consists of the
tokens that the parser consumed, of blanks and of complete comments. -/
theorem whole_consumes {text : String} {st : Store} {e : Expr}
    (ok : whole g ⟨.ofSource (.ofString text), st⟩ = .ok e s') :
    ∃ ts cs stop, Consumed (.ofSource (.ofString text)) ts s'.tokens ∧ text.toList = cs ++ stop ∧
      endMark ∉ cs ∧ stop.getD 0 endMark = endMark ∧ Splits {} stop [] ts cs [] := by
  obtain ⟨s₁, t, ran, looked, isEnd, clean⟩ := whole_eq_ok ok
  obtain ⟨ts, consumed⟩ := (simplified_moves ran).consumed (Orderly.ofSource text)
  have shown : Lookahead.at? 0 s₁.tokens = .ok t s'.tokens := onTokens_eq_ok looked
  have typed := Lexer.Settings.wellTyped_standard
  obtain ⟨half, place⟩ := (Halfway.ofSource.consumed typed consumed).at? typed shown
  have ended : s'.tokens.ended = true ∧ s'.tokens.buffer.length ≤ 0 := by
    rcases place with waits | ⟨ended, empty, _⟩
    · simp [half.lexemes t (List.mem_of_getElem? waits)] at isEnd
    · exact ⟨ended, empty⟩
  obtain ⟨cs, stop, ps, spelled, visible, stops, splits, found⟩ :=
    half.split_of_end ended.1 (List.length_eq_zero_iff.mp (Nat.le_zero.mp ended.2))
  -- all that is wrong with the characters is an error, and the text has none
  obtain rfl : ps = [] := by
    apply List.eq_nil_iff_forall_not_mem.mpr
    intro p hp
    have isError := splits.isError p hp
    simp [clean p (found p hp)] at isError
  exact ⟨ts, cs, stop, .look consumed shown, spelled, visible, stops, splits⟩

theorem whole_consumes_comments :
    let g : Grammar := { bits := 53, scope := 0, mode := .float, functions := .builtin }
    let st : Store := { vars := [], scopes := [⟨none, .float, false, []⟩] }
    let text : String := "1 /* + */ - 2\t// 3"
    ∃ e s', whole g ⟨.ofSource (.ofString text), st⟩ = .ok e s' ∧
      ∃ ts cs stop, Consumed (.ofSource (.ofString text)) ts s'.tokens ∧ text.toList = cs ++ stop ∧
        endMark ∉ cs ∧ stop.getD 0 endMark = endMark ∧ Splits {} stop [] ts cs [] := by
  intro g st text
  have parsed : (match whole g ⟨.ofSource (.ofString text), st⟩ with
      | .ok _ _ => true
      | .error _ _ => false) = true := by decide +kernel
  cases ok : whole g ⟨.ofSource (.ofString text), st⟩ with
  | ok e s' => exact ⟨e, s', rfl, whole_consumes ok⟩
  | error f s' =>
    rw [ok] at parsed
    cases parsed

/-- A null character ends a text, and what follows it is neither read nor reported. -/
theorem whole_null :
    let g : Grammar := { bits := 53, scope := 0, mode := .float, functions := .builtin }
    let st : Store := { vars := [], scopes := [⟨none, .float, false, []⟩] }
    let src : Source := .ofString "1\x00+2"
    (∃ e s', whole g ⟨.ofSource src, st⟩ = .ok e s' ∧ s'.tokens.problems = [] ∧
      s'.tokens.source.reader.rest = ['\x00', '+', '2']) ∧
    TokenStream.lexed src = some ([⟨.integer, "", "1", "1", ⟨1, 1⟩⟩,
      ⟨.endOfInput, "", "", "<End Of Input>", ⟨1, 2⟩⟩], []) := by
  intro g st src
  have outcome : (match whole g ⟨.ofSource src, st⟩ with
      | .ok _ s => s.tokens.problems.isEmpty && s.tokens.source.reader.rest == ['\x00', '+', '2']
      | .error _ _ => false) = true := by decide +kernel
  refine ⟨?_, by decide +kernel⟩
  cases ok : whole g ⟨.ofSource src, st⟩ with
  | ok e s =>
    rw [ok] at outcome
    simp only [Bool.and_eq_true, List.isEmpty_iff, beq_iff_eq] at outcome
    exact ⟨e, s, rfl, outcome⟩
  | error f s =>
    rw [ok] at outcome
    cases outcome

end Formula.Parser
