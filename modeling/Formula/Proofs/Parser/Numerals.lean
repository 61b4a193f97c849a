import Formula.Proofs.Parser.RoundTrip
import Formula.Proofs.TokenStream.Layout
import Formula.Proofs.Value.WrittenNumbers

/-! A number by itself. A text that is read as a single number is an expression in both modes, but
in the precise mode a point with only zeros behind it is rejected as an invalid number. -/
namespace Formula

open Lexer (Lexeme StandsAlone StartsUnsigned Numeral Splits)

section Tokens

variable {st : Lexer.Settings} {stop before cs : List Char} {ts : List Token} {t mark : Token}
  {ps : List Problem}

theorem Lexer.Splits.length_source_le (h : Splits st stop before ts cs ps) :
    ∀ t ∈ ts, t.source.toList.length ≤ cs.length := by
  induction h with
  | done => exact List.forall_mem_nil _
  | token _ _ _ _ _ _ ih =>
    intro u hu
    simp only [List.length_append]
    rcases List.mem_cons.mp hu with rfl | later
    · omega
    · have := ih u later
      omega

theorem TokenStream.length_source_le {text : String}
    (read : lexed (.ofString text) = some (ts ++ [mark], ps)) :
    ∀ t ∈ ts, t.source.toList.length ≤ text.length := by
  obtain ⟨us, last, s, cs, stop, _, run, _, split, _, _, splits, _⟩ :=
    @splits_source text _ Lexer.Settings.wellTyped_standard
  rw [show (ofSource (.ofString text)).changeSettings
    (fun _ => {}) = ofSource (.ofString text) from rfl] at run
  rw [lexed_eq run] at read
  obtain ⟨same, _⟩ := Prod.mk.inj (Option.some.inj read)
  obtain ⟨rfl, _⟩ := List.append_inj' same rfl
  have long : text.length = cs.length + stop.length := by
    rw [← String.length_toList, split, List.length_append]
  intro t ht
  have := splits.length_source_le t ht
  omega

theorem Lexer.StandsAlone.numeral (alone : StandsAlone t) (number : t.isNumber) :
    ∃ w k cs, StartsUnsigned w ∧ Numeral .integer w k cs ∧ w.length ≤ t.source.toList.length ∧
      (t.content = String.ofList cs ∨ t.content = String.ofList ('-' :: cs)) := by
  have lexeme := alone.lexeme [] (.inr rfl)
  have isNumber : t.word.IsNumber := by
    simpa [Token.isNumber, Lexer.Word.IsNumber, Token.word, or_assoc] using number
  have content : t.word.content = t.content := rfl
  generalize t.word = word at lexeme isNumber content
  generalize t.source.toList = source at lexeme ⊢
  cases lexeme with
  | quoted => exact absurd isNumber (by simp [Lexer.Word.IsNumber])
  | spelled spells =>
    cases spells with
    | number starts reads => exact ⟨source, _, _, starts, reads, Nat.le_refl _, .inl content.symm⟩
    | @negative w ds _ k starts reads =>
      exact ⟨w, _, _, starts, reads, Nat.le_succ _, .inr content.symm⟩
    | name | bracket | bar | symbol | double =>
      exact absurd isNumber (by simp [Lexer.Word.IsNumber])

end Tokens

namespace Parser

variable {g : Grammar} {t mark : Token} {s : ParserState} {st : Store} {v : Value}

theorem simplified_number (isEnd : mark.isEnd) (number : t.isNumber)
    (value : Value.ofNumeral g.mode g.bits t.content = .ok v) (sees : Sees mark s ⟨[t], st, []⟩) :
    ∃ s', simplified g s = .ok (.constant v) s' ∧ Sees mark s' ⟨[], st, []⟩ := by
  have noName : ([].getD 0 mark).isKind .identifier = false := by
    apply Bool.eq_false_iff.mpr
    intro name
    exact absurd isEnd (ne_true_of_eq_false (not_isEnd_of_isName name))
  have atom : Yields mark g ⟨[t], st, []⟩ (run 995 .atom) (.constant v) ⟨[], st, []⟩ :=
    yields_numeral .absent number (yields_number number value (yields_quantified_none v noName))
  obtain ⟨s', ran, sees'⟩ := yields_expression_atom isEnd rfl atom s sees
  exact ⟨s', simplified_of_run ran rfl, sees'⟩

/-- A number before the end that has no value is an error. -/
theorem simplified_invalid (isEnd : mark.isEnd) (number : t.isNumber)
    (invalid : Value.ofNumeral g.mode g.bits t.content = .error .malformedValue)
    (sees : Sees mark s ⟨[t], st, []⟩) :
    ∃ s', simplified g s = .ok .empty s' ∧
      Sees mark s' (View.complained ⟨[], st, []⟩ t ("Invalid number: '" ++ t.source ++ "'")) := by
  have atom : Yields mark g ⟨[t], st, []⟩ (run 995 .atom) .empty
      (View.complained ⟨[], st, []⟩ t ("Invalid number: '" ++ t.source ++ "'")) :=
    yields_numeral .absent number (yields_number_malformed number invalid)
  obtain ⟨s', ran, sees'⟩ := yields_expression_atom isEnd rfl atom s sees
  exact ⟨s', simplified_of_run ran rfl, sees'⟩

theorem whole_of_simplified {e : Expr} {s₁ : ParserState} {ps : List Problem} (isEnd : mark.isEnd)
    (ran : simplified g s = .ok e s₁) (sees : Sees mark s₁ ⟨[], st, ps⟩) :
    ∃ s', whole g s = (if ps.any (counts g) then .error (.rejected ps) s' else .ok e s') ∧
      Sees mark s' ⟨[], st, ps⟩ := by
  have nothing : Yields mark g ⟨[], st, ps⟩ rejectRest () ⟨[], st, ps⟩ := by
    apply yields_current.bind
    rw [if_neg (by simp [View.token, isEnd])]
    exact .pure ()
  obtain ⟨s₂, ran₂, sees₂⟩ := nothing s₁ sees
  have check := rejectProblems_eq g s₂
  rw [sees₂.problems] at check
  refine ⟨s₂, ?_, sees₂⟩
  unfold whole
  rw [bind_of_ok (tryCatch_of_ok ran _), bind_of_ok ran₂]
  split
  · rename_i counting
    rw [if_pos counting] at check
    exact bind_of_error check _
  · rename_i harmless
    rw [if_neg harmless] at check
    exact bind_of_ok check _

/-- A text that is read as a single number, which has fewer than 4000 characters, is an expression:
the number. In the precise mode only a point with nothing but zeros behind it is not, and it is the
only problem. -/
theorem whole_numeral {text : String}
    (read : TokenStream.lexed (.ofString text) = some ([t, mark], []))
    (number : t.isNumber) (short : text.length < 4000) (g : Grammar) (st : Store) :
    (g.mode.refuses t.content = false → ∃ v s, Value.ofNumeral g.mode g.bits t.content = .ok v ∧
        whole g ⟨.ofSource (.ofString text), st⟩ = .ok (.constant v) s ∧
        s.tokens.problems = [] ∧ s.store = st) ∧
      (g.mode.refuses t.content = true → ∃ s, whole g ⟨.ofSource (.ofString text), st⟩ =
        .error (.rejected [⟨.error, t.position, "Invalid number: '" ++ t.source ++ "'"⟩]) s) := by
  have read : TokenStream.lexed (.ofString text) = some ([t] ++ [mark], []) := read
  have isEnd := TokenStream.isEnd_of_lexed read
  obtain ⟨supplied, _⟩ := TokenStream.supplies_of_lexed isEnd read
  have start : Position.start = Position.start.afterAll [] := rfl
  obtain ⟨alone, _⟩ := Lexer.standsAlone_of_supplies rfl ⟨rfl, rfl⟩ start rfl supplied
  obtain ⟨w, k, cs, starts, numeral, inside, content⟩ := (alone t List.mem_cons_self).numeral number
  have few : w.length ≤ Number.maxIntegerDigits := by
    have := TokenStream.length_source_le read t List.mem_cons_self
    have : Number.maxIntegerDigits = 4300 := rfl
    omega
  -- Whether it has a value depends on nothing but the mode and the content.
  obtain ⟨v, value⟩ := ofNumeral_numeral (p := g.bits) starts numeral few g.mode content
  have sees : Sees mark ⟨.ofSource (.ofString text), st⟩ ⟨[t], st, []⟩ :=
    ⟨(TokenStream.ahead_of_lexed isEnd read).1, rfl, rfl⟩
  constructor
  · intro accepted
    rw [accepted] at value
    obtain ⟨s₁, ran, sees₁⟩ := simplified_number isEnd number value sees
    obtain ⟨s', run, sees'⟩ := whole_of_simplified isEnd ran sees₁
    exact ⟨v, s', value, run, sees'.problems, sees'.store⟩
  · intro refused
    rw [refused] at value
    obtain ⟨s₁, ran, sees₁⟩ := simplified_invalid isEnd number value sees
    obtain ⟨s', run, _⟩ := whole_of_simplified isEnd ran sees₁
    have counting : counts g ⟨.error, t.position, "Invalid number: '" ++ t.source ++ "'"⟩ = true :=
      Bool.or_true _
    exact ⟨s', by simpa [View.complained, counting] using run⟩

theorem whole_numeral_grouped :
    let t : Token := ⟨.scientific, "", "-.25e+3", "-.2_5E+3", ⟨1, 1⟩⟩
    let mark : Token := ⟨.endOfInput, "", "", "<End Of Input>", ⟨1, 8⟩⟩
    let g : Grammar := { bits := 53, scope := 0, mode := .precise, functions := .builtin }
    TokenStream.lexed (.ofString "-.2_5E+3") = some ([t, mark], []) ∧ t.isNumber = true ∧
      "-.2_5E+3".length < 4000 ∧ g.mode.refuses t.content = false ∧
      ∃ v s, Value.ofNumeral g.mode g.bits t.content = .ok v ∧
        whole g ⟨.ofSource (.ofString "-.2_5E+3"), {}⟩ = .ok (.constant v) s ∧
          s.tokens.problems = [] ∧ s.store = {} := by
  intro t mark g
  have read : TokenStream.lexed (.ofString "-.2_5E+3") = some ([t, mark], []) := by decide +kernel
  have number : t.isNumber = true := by decide
  have short : "-.2_5E+3".length < 4000 := by decide
  have accepted : g.mode.refuses t.content = false := by decide
  exact ⟨read, number, short, accepted, (whole_numeral read number short g {}).1 accepted⟩

/-- A number that is read in one mode only. -/
theorem whole_numeral_bare :
    let g (m : Mode) : Grammar := { bits := 53, scope := 0, mode := m, functions := .builtin }
    let run (m : Mode) := whole (g m) ⟨.ofSource (.ofString ".0"), {}⟩
    (∃ t mark, TokenStream.lexed (.ofString ".0") = some ([t, mark], []) ∧ t.isNumber = true) ∧
      (∃ e s, run .float = .ok e s ∧ e.constant? = some (.float (.zero false))) ∧
      ∃ s, run .precise = .error (.rejected [⟨.error, ⟨1, 1⟩, "Invalid number: '.0'"⟩]) s := by
  intro g run
  let t : Token := ⟨.decimal, "", ".0", ".0", ⟨1, 1⟩⟩
  let mark : Token := ⟨.endOfInput, "", "", "<End Of Input>", ⟨1, 2⟩⟩
  have read : TokenStream.lexed (.ofString ".0") = some ([t, mark], []) := by decide +kernel
  have float : endsWith (fun e _ => decide (e.constant? = some (.float (.zero false))))
      (run .float) = true := by
    decide +kernel
  have precise : rejection? (run .precise) = some [⟨.error, ⟨1, 1⟩, "Invalid number: '.0'"⟩] := by
    decide +kernel
  obtain ⟨e, s, ran, zero⟩ := exists_of_endsWith float
  exact ⟨⟨t, mark, read, rfl⟩, ⟨e, s, ran, of_decide_eq_true zero⟩, exists_of_rejection? precise⟩

end Parser

end Formula
