import Formula.Proofs.Lexer.Progress

/-! What the tokens of a text are like. None of them is the mark of the end, and the content of a
number holds digits, a point, an exponent mark and signs only. -/
namespace Formula.Lexer

open Formula.Text (isDigit)

def IsNumeric (c : Char) : Prop := isDigit c ∨ c ∈ ['.', 'e', '+', '-']

/-- A token that was read from a text. -/
structure IsLexeme (t : Token) : Prop where
  notEnd : t.isEnd = false
  numeric : t.isNumber → ∀ c ∈ t.content.toList, IsNumeric c

def IsVerbal (t : Token) : Prop :=
  t.kind ∈ [.identifier, .specialIdentifier, .keyword, .string, .symbol]

theorem IsVerbal.noNumber {t : Token} (h : IsVerbal t) : t.isNumber = false := by
  obtain ⟨kind, _⟩ := t
  cases kind <;> first | rfl | exact absurd h (by simp [IsVerbal])

theorem IsVerbal.isLexeme {t : Token} (h : IsVerbal t) : IsLexeme t := by
  refine ⟨?_, fun number => absurd number (ne_true_of_eq_false h.noNumber)⟩
  obtain ⟨kind, _⟩ := t
  cases kind <;> first | rfl | exact absurd h (by simp [IsVerbal])

/-- A property of unfinished numbers that each step of their reading keeps. -/
structure Kept (st : Settings) (P : TokenBuilder → Prop) : Prop where
  source {b : TokenBuilder} (c : Char) (h : P b) : P (b.addSource c)
  content {b : TokenBuilder} {c : Char} (h : P b) (is : isDigit c ∨ c = '+' ∨ c = '-') :
    P (b.addContent c)
  decimal {b b' : TokenBuilder} (h : P b)
    (added : addEffective (b.retype .decimal) st.effectiveDecimalSeparator = .ok b') : P b'
  exponent {b b' : TokenBuilder} (h : P b)
    (added : addEffective (b.retype .scientific) st.effectiveExponentSeparator = .ok b') : P b'

section Numbers

variable {st : Settings} {P : TokenBuilder → Prop} {b : TokenBuilder} {r r' : Reader} {t : Token}

theorem Kept.scanNumberTail (kept : Kept st P) (n : Nat) (h : P b)
    (read : scanNumberTail st n b r = (.ok t, r')) :
    ∃ b', P b' ∧ b'.freeze = t := by
  -- Every branch of a step keeps the property and goes on, or ends the number.
  induction n generalizing b r with
  | zero => exact ⟨b, h, Except.ok.inj (Prod.mk.inj read).1⟩
  | succ n ih =>
    simp only [Lexer.scanNumberTail] at read
    split at read
    · exact ⟨b, h, Except.ok.inj (Prod.mk.inj read).1⟩
    rename_i goesOn
    split at read
    · exact ih (kept.source _ h) read
    rename_i noGroup
    split at read
    · split at read
      · split at read
        · cases read
        · rename_i added
          exact ih (kept.source _ (kept.decimal h added)) read
      · exact ih (kept.source _ h) read
    rename_i noPoint
    split at read
    · split at read
      · exact ih (kept.source _ h) read
      · split at read
        · cases read
        rename_i added
        have marked (c : Char) := kept.source c (kept.exponent h added)
        split at read
        · rename_i signed
          refine ih (kept.content (marked _) (.inr ?_)) read
          simpa using signed
        · exact ih (marked _) read
    · rename_i noExponent
      -- What continues a number and is no separator is a digit.
      refine ih (kept.content h (.inl ?_)) read
      simp only [Settings.continuesNumber, Bool.not_eq_true', Bool.not_eq_false,
        Bool.or_eq_true, Bool.and_eq_true] at goesOn
      rcases goesOn with ((digit | point) | ⟨group, _⟩) | ⟨exponent, _⟩
      · exact digit
      · exact absurd point noPoint
      · exact absurd group noGroup
      · exact absurd exponent noExponent

theorem Kept.scanNumber (kept : Kept st P) (empty : P { kind := .integer, position := r.position })
    (starts : st.startsNumber r.rest) (read : scanNumber st r = (.ok t, r')) :
    ∃ b', P b' ∧ b'.freeze = t := by
  simp only [Lexer.scanNumber] at read
  split at read
  · split at read
    · cases read
    · rename_i added
      exact kept.scanNumberTail _ (kept.source _ (kept.decimal empty added)) read
  · rename_i noPoint
    refine kept.scanNumberTail _ (kept.content empty ?_) read
    cases hr : r.rest with
    | nil => simp [hr, Settings.startsNumber] at starts
    | cons c rest =>
      have hc : r.char 0 = c := by simp [Reader.char, hr]
      rw [hc] at noPoint ⊢
      simp only [hr, Settings.startsNumber, Bool.or_eq_true, Bool.and_eq_true, beq_iff_eq] at starts
      rcases starts with ((digit | ⟨minus, _⟩) | ⟨⟨minus, _⟩, _⟩) | ⟨point, _⟩
      · exact .inl digit
      · exact .inr (.inr minus)
      · exact .inr (.inr minus)
      · exact absurd point noPoint

theorem kept_isNumber : Kept st (·.freeze.isNumber) where
  source _ h := h
  content h _ := h
  decimal _ added := by
    revert added
    cases st.effectiveDecimalSeparator <;> rintro ⟨⟩
    rfl
  exponent _ added := by
    revert added
    cases st.effectiveExponentSeparator <;> rintro ⟨⟩
    rfl

theorem scanNumber_isNumber (starts : st.startsNumber r.rest)
    (read : scanNumber st r = (.ok t, r')) : t.isNumber := by
  obtain ⟨b, number, rfl⟩ := kept_isNumber.scanNumber rfl starts read
  exact number

theorem kept_numeric : Kept {} fun b => ∀ c ∈ b.content.toList, IsNumeric c where
  source _ h := h
  content h is c hc := by
    simp only [TokenBuilder.addContent, String.toList_push, List.mem_append,
      List.mem_singleton] at hc
    rcases hc with hc | rfl
    · exact h c hc
    · exact is.imp_right (by rintro (rfl | rfl) <;> simp)
  decimal h added c hc := by
    cases added
    rw [TokenBuilder.addSilently, String.toList_append, List.mem_append] at hc
    rcases hc with hc | hc
    · exact h c hc
    · exact .inr (by simp_all)
  exponent h added c hc := by
    cases added
    rw [TokenBuilder.addSilently, String.toList_append, List.mem_append] at hc
    rcases hc with hc | hc
    · exact h c hc
    · exact .inr (by simp_all)

theorem notEnd_of_isNumber (h : t.isNumber) : t.isEnd = false := by
  obtain ⟨kind, _⟩ := t
  cases kind <;> first | rfl | cases h

theorem scanNumber_isLexeme (starts : ({} : Settings).startsNumber r.rest)
    (read : scanNumber {} r = (.ok t, r')) :
    IsLexeme t := by
  refine ⟨notEnd_of_isNumber (scanNumber_isNumber starts read), fun _ => ?_⟩
  obtain ⟨b, numeric, rfl⟩ := kept_numeric.scanNumber (by simp) starts read
  exact numeric

end Numbers

theorem freezeName_isVerbal (st : Settings) {b : TokenBuilder}
    (h : b.kind = .identifier ∨ b.kind = .specialIdentifier) : IsVerbal (freezeName st b) := by
  unfold freezeName
  split
  · simp [IsVerbal, TokenBuilder.freeze, TokenBuilder.retype]
  · rcases h with h | h <;> simp [IsVerbal, TokenBuilder.freeze, h]

theorem scanNameTail_kind (n : Nat) (b : TokenBuilder) (r : Reader) :
    (scanNameTail n b r).1.kind = b.kind := by
  induction n generalizing b r with
  | zero => rfl
  | succ n ih =>
    simp only [scanNameTail]
    split
    · exact ih _ _
    · rfl

theorem scanName_isVerbal (st : Settings) (r : Reader) : IsVerbal (scanName st r).1 := by
  simp only [scanName]
  split
  · exact freezeName_isVerbal st (.inr rfl)
  · exact freezeName_isVerbal st (.inl (scanNameTail_kind _ _ _))

theorem scanSpecialName_isVerbal (st : Settings) (r : Reader) : IsVerbal (scanSpecialName st r).1 :=
  freezeName_isVerbal st (.inr (scanNameTail_kind _ _ _))

theorem scanSymbol_isVerbal (r : Reader) : IsVerbal (scanSymbol r).1 := by
  simp only [scanSymbol]
  split <;> simp [IsVerbal, TokenBuilder.freeze, TokenBuilder.addTrigger]

theorem scanBracket_isVerbal (r : Reader) : IsVerbal (scanBracket r).1 := by
  simp [IsVerbal, scanBracket, TokenBuilder.freeze, TokenBuilder.ofCharacter]

theorem scanStringTail_kind (delimiter : Char) (escape : SettingValue) (n : Nat)
    (b : TokenBuilder) (r : Reader) :
    (scanStringTail delimiter escape n b r).1.kind = b.kind := by
  induction n generalizing b r with
  | zero => rfl
  | succ n ih =>
    simp only [scanStringTail]
    repeat' split
    · rfl
    all_goals exact ih _ _

theorem scanString_isVerbal (escape : SettingValue) (r : Reader) :
    IsVerbal (scanString escape r).1 := by
  have tail := scanStringTail_kind (r.char 0) escape r.rest.length
    (TokenBuilder.addTrigger { kind := .string, position := r.position } (r.char 0)) r.advance
  have kind : (scanString escape r).1.kind = .string := by
    simp only [scanString]
    split <;> exact tail
  simp [IsVerbal, kind]

theorem scanToken_cases {st : Settings} {r r' : Reader} {t : Token}
    (h : scanToken st r = (.ok (.done (some t)), r')) :
    st.startsNumber r.rest ∧ scanNumber st (r.reach (st.numberReach r.rest)) = (.ok t, r') ∨
    IsVerbal t := by
  have done {out : Token × Reader}
      (same : ((.ok (.done (some out.1)), out.2) : Scanned Step) = (.ok (.done (some t)), r')) :
      out.1 = t := Option.some.inj (Step.done.inj (Except.ok.inj (Prod.mk.inj same).1))
  simp only [scanToken] at h
  split at h
  · rename_i starts
    split at h
    · rename_i read
      cases h
      exact .inl ⟨by simpa using starts, read⟩
    · simp at h
  · right
    split at h
    · exact done h ▸ scanName_isVerbal st _
    · split at h
      · exact done h ▸ scanString_isVerbal _ _
      · split at h
        · exact done h ▸ scanBracket_isVerbal _
        · split at h
          · exact done h ▸ scanSpecialName_isVerbal st _
          · split at h
            · simp at h
            · exact done h ▸ scanSymbol_isVerbal _

section Tokens

variable {st : Settings} {r r' : Reader} {t : Token}

theorem scanToken_notEnd (h : scanToken st r = (.ok (.done (some t)), r')) : t.isEnd = false := by
  rcases scanToken_cases h with ⟨starts, read⟩ | verbal
  · exact notEnd_of_isNumber (scanNumber_isNumber (by simpa using starts) read)
  · exact verbal.isLexeme.notEnd

theorem scanToken_isLexeme (h : scanToken {} r = (.ok (.done (some t)), r')) : IsLexeme t := by
  rcases scanToken_cases h with ⟨starts, read⟩ | verbal
  · exact scanNumber_isLexeme (by simpa using starts) read
  · exact verbal.isLexeme

theorem exists_of_step (h : step st r = (.ok (.done (some t)), r')) :
    ∃ r₁, scanToken st r₁ = (.ok (.done (some t)), r') := by
  simp only [step] at h
  split at h
  · simp at h
  · split at h
    · simp at h
    · simp at h
    · exact ⟨_, h⟩

theorem exists_of_scanWithin (n : Nat) (h : scanWithin st n r = (.ok (some t), r')) :
    ∃ r₁, scanToken st r₁ = (.ok (.done (some t)), r') := by
  induction n generalizing r with
  | zero => simp [scanWithin] at h
  | succ n ih =>
    rw [scanWithin] at h
    rcases afterStep_eq_token h with read | ⟨r₁, _, more⟩
    · exact exists_of_step read
    · exact ih more

theorem scan_notEnd (h : scan st r = (.ok (some t), r')) : t.isEnd = false := by
  obtain ⟨r₁, read⟩ := exists_of_scanWithin (r.rest.length + 1) h
  exact scanToken_notEnd read

theorem scan_isLexeme (h : scan {} r = (.ok (some t), r')) : IsLexeme t := by
  obtain ⟨r₁, read⟩ := exists_of_scanWithin (r.rest.length + 1) h
  exact scanToken_isLexeme read

end Tokens

end Formula.Lexer
