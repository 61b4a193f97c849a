import Formula.Proofs.Lexer.Separators

/-! Reading what is spelled. Where the characters that follow spell a word, the lexer reads the word
without a problem and stands behind it. -/
namespace Formula.Lexer

open Formula.Text (isDigit isLetter isBlank isControl)
open Reader (Stands)

variable {cs rest : List Char} {ps : List Problem} {r : Reader}

def marked (b : TokenBuilder) (k : TokenKind) (mark c : Char) : TokenBuilder :=
  ((b.retype k).addSilently (String.singleton mark)).addSource c

theorem extends_marked (b : TokenBuilder) (k : TokenKind) (mark c : Char) :
    Extends b [mark] (marked b k mark c) :=
  ⟨rfl, by simp [marked, TokenBuilder.addSilently, TokenBuilder.retype, TokenBuilder.addSource]⟩

theorem addContentText_addContent (b : TokenBuilder) (c : Char) (w : List Char) :
    (b.addContent c).addContentText (String.ofList w) =
      b.addContentText (String.ofList (c :: w)) := by
  have push (s : String) : s.push c ++ String.ofList w = s ++ String.ofList (c :: w) := by
    rw [← String.toList_inj]
    simp
  simp only [TokenBuilder.addContent, TokenBuilder.addContentText, push]

theorem scanNameTail_spelled {w : List Char} (names : ∀ c ∈ w, isNameChar c)
    (stop : isNameChar (rest.getD 0 endMark) = false) (n : Nat) (b : TokenBuilder)
    (stands : Stands (w ++ rest) ps r) (enough : w.length ≤ n) :
    ∃ r', scanNameTail n b r = (b.addContentText (String.ofList w), r') ∧ Stands rest ps r' := by
  induction w generalizing n b r with
  | nil =>
    have same : b.addContentText (String.ofList []) = b := by simp [TokenBuilder.addContentText]
    rw [same]
    cases n with
    | zero => exact ⟨r, rfl, stands⟩
    | succ n =>
      refine ⟨r.reach 0, ?_, stands.reach 0⟩
      have ended : isNameChar ((r.reach 0).char 0) = false := (stands.reach 0).char 0 ▸ stop
      simp only [scanNameTail, ended, Bool.false_eq_true, if_false]
  | cons c w ih =>
    obtain ⟨n, rfl⟩ : ∃ m, n = m + 1 := ⟨n - 1, by simp at enough; omega⟩
    have here : (r.reach 0).char 0 = c := (stands.reach 0).char 0
    have name : isNameChar c := names c List.mem_cons_self
    obtain ⟨r', run, stands'⟩ := ih (fun d hd => names d (List.mem_cons_of_mem c hd))
      n (b.addContent c) (stands.reach 0).advance (Nat.le_of_succ_le_succ enough)
    refine ⟨r', ?_, stands'⟩
    simp only [scanNameTail, here, name, if_true, run, addContentText_addContent]

def terminator (terminators : List String) (cs : List Char) : List Char :=
  (cs.take 1).filter fun c => c ≠ endMark && terminators.contains (String.singleton c)

theorem terminator_append_drop (terminators : List String) (cs : List Char) :
    terminator terminators cs ++ cs.drop (terminator terminators cs).length = cs := by
  cases cs with
  | nil => rfl
  | cons c cs =>
    simp only [terminator, List.take_succ_cons, List.take_zero, List.filter_cons, List.filter_nil]
    split <;> rfl

def spelledName (place : Position) (name behind : List Char) : TokenBuilder where
  kind := if behind = [] then .identifier else .specialIdentifier
  position := place
  trigger := String.ofList behind
  content := String.ofList name
  source := String.ofList (name ++ behind)

theorem addSource_spelledName (place : Position) (name : List Char) (c : Char) :
    ((spelledName place name []).retype .specialIdentifier (some (String.singleton c))).addSource c
      = spelledName place name [c] := by
  simp [spelledName, TokenBuilder.retype, TokenBuilder.addSource]

theorem scanName_eq (st : Settings) {c : Char} {w : List Char} (names : ∀ d ∈ w, isNameChar d)
    (stop : isNameChar (rest.getD 0 endMark) = false) (stands : Stands (c :: (w ++ rest)) ps r) :
    ∃ r', scanName st r =
      (freezeName st (spelledName r.position (c :: w) (terminator st.specialTerminators rest)), r')
      ∧ Stands (rest.drop (terminator st.specialTerminators rest).length) ps r' := by
  have here : r.char 0 = c := stands.char 0
  let b : TokenBuilder := { kind := .identifier, position := r.position }
  obtain ⟨r', run, stands'⟩ :=
    scanNameTail_spelled names stop r.rest.length (b.addContent c) stands.advance
    (by rw [stands.rest]; simp; omega)
  have read : (b.addContent c).addContentText (String.ofList w) =
      spelledName r.position (c :: w) [] := by
    rw [addContentText_addContent]
    simp [b, TokenBuilder.addContentText, spelledName]
  simp only [scanName, here]
  rw [run, read]
  cases rest with
  | nil =>
    have ended : r'.char 0 = endMark := stands'.char 0
    simp only [ended, terminator]
    exact ⟨r', rfl, stands'⟩
  | cons d rest =>
    have next : r'.char 0 = d := stands'.char 0
    simp only [next, terminator, List.take_succ_cons, List.take_zero, List.filter_cons,
      List.filter_nil]
    split
    · refine ⟨r'.advance, ?_, stands'.advance⟩
      rw [addSource_spelledName]
    · exact ⟨r', rfl, stands'⟩

theorem freezeName_standard (b : TokenBuilder) : freezeName {} b = b.freeze := by
  simp [freezeName, Settings.keyword?, Settings.caseMatters, SettingValue.isOn]

theorem scanName_spelled {c : Char} {w : List Char} (names : ∀ d ∈ w, isNameChar d)
    (stop : isNameChar (rest.getD 0 endMark) = false) (stands : Stands (c :: (w ++ rest)) ps r) :
    ∃ t r', scanName {} r = (t, r') ∧ Stands rest ps r'
      ∧ t.word = ⟨.identifier, "", String.ofList (c :: w)⟩ := by
  have plain : terminator ({} : Settings).specialTerminators rest = [] :=
    List.filter_eq_nil_iff.mpr fun d _ => by simp
  obtain ⟨r', run, stands'⟩ := scanName_eq {} names stop stands
  rw [plain] at run stands'
  exact ⟨_, r', run, stands', by rw [freezeName_standard]; rfl⟩

section Characters

variable {c d : Char}

@[simp] theorem isDecimalSeparator_standard :
    ({} : Settings).isDecimalSeparator c = decide (c = '.') :=
  Separators.isDecimalSeparator_eq (s := .standard)

@[simp] theorem isGroupingSeparator_standard :
    ({} : Settings).isGroupingSeparator c = decide (c = '_') :=
  Separators.isGroupingSeparator_eq (s := .standard)

@[simp] theorem isExponentSeparator_standard :
    ({} : Settings).isExponentSeparator c = (decide (c = 'e') || decide (c = 'E')) := by
  rw [← Bool.decide_or]
  exact Separators.isExponentSeparator_eq (s := .standard)

theorem ne_of_isDigit (h : isDigit c) (other : d ∈ ['.', '_', 'e', 'E', '+', '-', endMark]) :
    c ≠ d := by
  rintro rfl
  have all : ∀ c ∈ ['.', '_', 'e', 'E', '+', '-', endMark], isDigit c = false :=
    forall_mem_of_all (by decide +kernel)
  simp [all c other] at h

theorem head_append_of_isDigit (h : isDigit (cs.getD 0 endMark)) (rest : List Char) :
    (cs ++ rest).getD 0 endMark = cs.getD 0 endMark := by
  cases cs with
  | nil => exact absurd rfl (ne_of_isDigit h (by simp))
  | cons c cs => rfl

end Characters

theorem scanNumberTail_stop (stop : ({} : Settings).continuesNumber cs = false) (n : Nat)
    (b : TokenBuilder) (stands : Stands cs ps r) :
    ∃ r', scanNumberTail {} n b r = (.ok b.freeze, r') ∧ Stands cs ps r' := by
  cases n with
  | zero => exact ⟨r, rfl, stands⟩
  | succ n =>
    have stands' := stands.reach (({} : Settings).continuationReach r.rest)
    refine ⟨_, ?_, stands'⟩
    simp only [scanNumberTail, stands'.rest, stop, Bool.not_false, if_true]

theorem scanNumberTail_cons {c : Char}
    (goesOn : ({} : Settings).continuesNumber (c :: cs)) (n : Nat)
    (b : TokenBuilder) (stands : Stands (c :: cs) ps r) :
    ∃ r₁, Stands (c :: cs) ps r₁ ∧ scanNumberTail {} (n + 1) b r =
      if c = '_' then scanNumberTail {} n (b.addSource c) r₁.advance
      else if c = '.' then
        if b.kind = .integer then
          scanNumberTail {} n (marked b .decimal '.' c) r₁.advance
        else
          scanNumberTail {} n (b.addSource c)
            (r₁.report ⟨.error, r₁.position, "Unexpected decimal separators"⟩).advance
      else if c = 'e' ∨ c = 'E' then
        if b.kind = .scientific then
          scanNumberTail {} n (b.addSource c)
            (r₁.report ⟨.error, r₁.position, "Unexpected scientific notation separators"⟩).advance
        else
          let b := marked b .scientific 'e' c
          let s := cs.getD 0 endMark
          if s = '+' ∨ s = '-' then scanNumberTail {} n (b.addContent s) r₁.advance.advance
          else scanNumberTail {} n b r₁.advance
      else scanNumberTail {} n (b.addContent c) r₁.advance := by
  obtain ⟨r₁, stands₁, step⟩ := Separators.scanNumberTail_step (s := .standard) n b stands
  refine ⟨r₁, stands₁, step.trans (if_neg ?_)⟩
  rw [Separators.settings_standard, goesOn]
  decide

theorem scanNumberTail_spelled {k k' : TokenKind} {w ds : List Char} (reads : Numeral k w k' ds)
    (stop : ({} : Settings).continuesNumber rest = false) (n : Nat) (b : TokenBuilder)
    (stands : Stands (w ++ rest) ps r) (enough : w.length ≤ n) (kind : b.kind = k) :
    ∃ b' r', scanNumberTail {} n b r = (.ok b'.freeze, r') ∧ Stands rest ps r' ∧ b'.kind = k'
      ∧ Extends b ds b' := by
  -- By induction on the spelling: each character is one step and one unit of fuel.
  induction reads generalizing n b r with
  | done =>
    obtain ⟨r', run, stands'⟩ := scanNumberTail_stop stop n b stands
    exact ⟨b, r', run, stands', kind, .refl b⟩
  | @digit k k' c cs ds is more ih =>
    obtain ⟨n, rfl⟩ : ∃ m, n = m + 1 := ⟨n - 1, by simp at enough; omega⟩
    have goesOn : ({} : Settings).continuesNumber (c :: (cs ++ rest)) := by
      simp [Settings.continuesNumber, is]
    obtain ⟨r₁, stands₁, step⟩ := scanNumberTail_cons goesOn n b stands
    obtain ⟨b', r', run, stands', kind', grown⟩ := ih n (b.addContent c) stands₁.advance
      (Nat.le_of_succ_le_succ enough) kind
    refine ⟨b', r', ?_, stands', kind', (Extends.addContent b c).trans grown⟩
    have noExponent : ¬ (c = 'e' ∨ c = 'E') := by
      rintro (same | same) <;> exact ne_of_isDigit is (by simp) same
    rw [step, if_neg (ne_of_isDigit is (by simp)), if_neg (ne_of_isDigit is (by simp)),
      if_neg noExponent, run]
  | @group k k' cs ds before more ih =>
    obtain ⟨n, rfl⟩ : ∃ m, n = m + 1 := ⟨n - 1, by simp at enough; omega⟩
    have goesOn : ({} : Settings).continuesNumber ('_' :: (cs ++ rest)) := by
      have next : isDigit ((cs ++ rest).getD 0 endMark) :=
        head_append_of_isDigit before rest ▸ before
      simp only [Settings.continuesNumber, List.getD_cons_zero, List.getD_cons_succ, next]
      simp
    obtain ⟨r₁, stands₁, step⟩ := scanNumberTail_cons goesOn n b stands
    obtain ⟨b', r', run, stands', kind', grown⟩ := ih n (b.addSource '_') stands₁.advance
      (Nat.le_of_succ_le_succ enough) kind
    refine ⟨b', r', ?_, stands', kind', (Extends.addSource b '_').trans grown⟩
    rw [step, if_pos rfl, run]
  | @point k' cs ds more ih =>
    obtain ⟨n, rfl⟩ : ∃ m, n = m + 1 := ⟨n - 1, by simp at enough; omega⟩
    have goesOn : ({} : Settings).continuesNumber ('.' :: (cs ++ rest)) := by
      simp [Settings.continuesNumber]
    obtain ⟨r₁, stands₁, step⟩ := scanNumberTail_cons goesOn n b stands
    obtain ⟨b', r', run, stands', kind', grown⟩ := ih n (marked b .decimal '.' '.')
      stands₁.advance (Nat.le_of_succ_le_succ enough) rfl
    refine ⟨b', r', ?_, stands', kind', (extends_marked b .decimal '.' '.').trans grown⟩
    rw [step, if_neg (by decide), if_pos rfl, if_pos kind, run]
  | @exponent k k' c cs ds is first before more ih =>
    obtain ⟨n, rfl⟩ : ∃ m, n = m + 1 := ⟨n - 1, by simp at enough; omega⟩
    have next := head_append_of_isDigit before rest
    have goesOn : ({} : Settings).continuesNumber (c :: (cs ++ rest)) := by
      have digit : isDigit ((cs ++ rest).getD 0 endMark) := next ▸ before
      simp only [Settings.continuesNumber, List.getD_cons_zero, List.getD_cons_succ, digit]
      rcases is with rfl | rfl <;> simp
    obtain ⟨r₁, stands₁, step⟩ := scanNumberTail_cons goesOn n b stands
    obtain ⟨b', r', run, stands', kind', grown⟩ := ih n (marked b .scientific 'e' c)
      stands₁.advance (Nat.le_of_succ_le_succ enough) rfl
    refine ⟨b', r', ?_, stands', kind', (extends_marked b .scientific 'e' c).trans grown⟩
    -- The step looks for a sign behind the exponent, but a digit stands there.
    have noSign : ¬ ((cs ++ rest).getD 0 endMark = '+' ∨ (cs ++ rest).getD 0 endMark = '-') := by
      rw [next]
      rintro (same | same) <;> exact ne_of_isDigit before (by simp) same
    rw [step, if_neg (by rcases is with rfl | rfl <;> decide),
      if_neg (by rcases is with rfl | rfl <;> decide), if_pos is, if_neg (kind ▸ first)]
    simp only [noSign, if_false]
    exact run
  | @signed k k' c s cs ds is first sign before more ih =>
    obtain ⟨n, rfl⟩ : ∃ m, n = m + 1 := ⟨n - 1, by simp at enough; omega⟩
    have goesOn : ({} : Settings).continuesNumber (c :: s :: (cs ++ rest)) := by
      have digit : isDigit ((cs ++ rest).getD 0 endMark) :=
        head_append_of_isDigit before rest ▸ before
      simp only [Settings.continuesNumber, List.getD_cons_zero, List.getD_cons_succ, digit]
      rcases is with rfl | rfl <;> rcases sign with rfl | rfl <;> simp
    obtain ⟨r₁, stands₁, step⟩ := scanNumberTail_cons goesOn n b stands
    obtain ⟨b', r', run, stands', kind', grown⟩ := ih n ((marked b .scientific 'e' c).addContent s)
      stands₁.advance.advance (by simp at enough; omega) rfl
    have both := (extends_marked b .scientific 'e' c).trans (.addContent _ s)
    refine ⟨b', r', ?_, stands', kind', both.trans grown⟩
    rw [step, if_neg (by rcases is with rfl | rfl <;> decide),
      if_neg (by rcases is with rfl | rfl <;> decide), if_pos is, if_neg (kind ▸ first)]
    simp only [List.getD_cons_zero, sign, if_true]
    exact run

theorem word_of_extends {b b' : TokenBuilder} {k : TokenKind} {ds : List Char}
    (grown : Extends b ds b') (kind : b'.kind = k) (fresh : b.trigger = "" ∧ b.content = "") :
    b'.freeze.word = ⟨k, "", String.ofList ds⟩ := by
  have content : b'.content = String.ofList ds := by
    rw [← String.toList_inj, grown.content, fresh.2]
    simp
  simp only [Token.word, TokenBuilder.freeze, kind, grown.trigger, fresh.1, content]

theorem StartsUnsigned.head {w : List Char} (h : StartsUnsigned w) :
    ∃ c cs, w = c :: cs ∧ (isDigit c ∨ c = '.') := by
  cases w with
  | nil =>
    rcases h with digit | ⟨point, _⟩
    · exact absurd rfl (ne_of_isDigit digit (by simp))
    · exact absurd point (by decide)
  | cons c cs => exact ⟨c, cs, rfl, h.imp id And.left⟩

theorem StartsUnsigned.ne {c d : Char} {cs : List Char} (h : StartsUnsigned (c :: cs))
    (other : d ∈ ['_', 'e', 'E', '+', '-', endMark]) : c ≠ d := by
  obtain ⟨c', cs', same, first⟩ := h.head
  obtain ⟨rfl, rfl⟩ := List.cons.inj same
  rcases first with digit | rfl
  · exact ne_of_isDigit digit (List.mem_cons_of_mem '.' other)
  · rintro rfl
    exact absurd other (by decide)

theorem scanNumber_unsigned {k : TokenKind} {w ds : List Char} (starts : StartsUnsigned w)
    (reads : Numeral .integer w k ds) (stop : ({} : Settings).continuesNumber rest = false)
    (stands : Stands (w ++ rest) ps r) :
    ∃ t r', scanNumber {} r = (.ok t, r') ∧ Stands rest ps r'
      ∧ t.word = ⟨k, "", String.ofList ds⟩ := by
  let b : TokenBuilder := { kind := .integer, position := r.position }
  have here := stands.char 0
  have tail (b₁ : TokenBuilder) {k₁ : TokenKind} {cs ds : List Char} (more : Numeral k₁ cs k ds)
      (stands₁ : Stands (cs ++ rest) ps r.advance) (kind : b₁.kind = k₁)
      (short : cs.length ≤ w.length) :=
    scanNumberTail_spelled more stop r.rest.length b₁ stands₁
      (by rw [stands.rest, List.length_append]; omega) kind
  cases reads with
  | @digit _ _ c cs ds is more =>
    obtain ⟨b', r', run, stands', kind, grown⟩ :=
      tail (b.addContent c) more stands.advance rfl (by simp)
    refine ⟨b'.freeze, r', ?_, stands', ?_⟩
    · have noPoint : c ≠ '.' := ne_of_isDigit is (by simp)
      simp only [scanNumber, here, List.cons_append, List.getD_cons_zero,
        isDecimalSeparator_standard, noPoint, decide_false, Bool.false_eq_true, if_false]
      exact run
    · exact word_of_extends ((Extends.addContent b c).trans grown) kind ⟨rfl, rfl⟩
  | @point _ cs ds more =>
    obtain ⟨b', r', run, stands', kind, grown⟩ :=
      tail (marked b .decimal '.' '.') more stands.advance rfl (by simp)
    refine ⟨b'.freeze, r', ?_, stands', ?_⟩
    · simp only [scanNumber, here, List.cons_append, List.getD_cons_zero,
        isDecimalSeparator_standard, decide_true, if_true]
      exact run
    · exact word_of_extends ((extends_marked b .decimal '.' '.').trans grown) kind ⟨rfl, rfl⟩
  -- No number without a sign starts in the other ways in which its rest may go on.
  | done =>
    obtain ⟨c, cs, same, _⟩ := starts.head
    cases same
  | group => exact absurd rfl (starts.ne (d := '_') (by simp))
  | exponent is =>
    rcases is with rfl | rfl
    · exact absurd rfl (starts.ne (d := 'e') (by simp))
    · exact absurd rfl (starts.ne (d := 'E') (by simp))
  | signed is =>
    rcases is with rfl | rfl
    · exact absurd rfl (starts.ne (d := 'e') (by simp))
    · exact absurd rfl (starts.ne (d := 'E') (by simp))

theorem scanNumber_negative {k : TokenKind} {w ds : List Char} (reads : Numeral .integer w k ds)
    (stop : ({} : Settings).continuesNumber rest = false)
    (stands : Stands ('-' :: (w ++ rest)) ps r) :
    ∃ t r', scanNumber {} r = (.ok t, r') ∧ Stands rest ps r'
      ∧ t.word = ⟨k, "", String.ofList ('-' :: ds)⟩ := by
  let b : TokenBuilder := { kind := .integer, position := r.position }
  have here := stands.char 0
  obtain ⟨b', r', run, stands', kind, grown⟩ := scanNumberTail_spelled reads stop r.rest.length
    (b.addContent '-') stands.advance (by rw [stands.rest]; simp; omega) rfl
  refine ⟨b'.freeze, r', ?_, stands', ?_⟩
  · simp only [scanNumber, here, List.getD_cons_zero, isDecimalSeparator_standard,
      show ('-' = '.') = False by decide, decide_false, Bool.false_eq_true, if_false]
    exact run
  · exact word_of_extends ((Extends.addContent b '-').trans grown) kind ⟨rfl, rfl⟩

theorem scanBracket_spelled {c : Char} (visible : c ≠ endMark) (stands : Stands (c :: rest) ps r) :
    ∃ t r', scanBracket r = (t, r') ∧ Stands rest ps r'
      ∧ t.word = ⟨.symbol, String.singleton c, String.singleton c⟩ := by
  have here : r.char 0 = c := stands.char 0
  refine ⟨_, r.advance, rfl, stands.advance, ?_⟩
  have shown : (r.characterAt 0).text = String.singleton c := by
    simp [Reader.characterAt, here, Character.text, Character.isEnd, visible]
  simp [Token.word, TokenBuilder.freeze, TokenBuilder.ofCharacter, shown]

theorem scanSymbol_eq {c : Char} (stands : Stands (c :: rest) ps r) :
    scanSymbol r =
      let b := TokenBuilder.addTrigger { kind := .symbol, position := r.position } c
      let r₁ := r.advance.reach 0
      if joins c (rest.getD 0 endMark) then
        ((b.addTrigger (rest.getD 0 endMark)).freeze, r₁.advance)
      else (b.freeze, r₁) := by
  have here : r.char 0 = c := stands.char 0
  simp only [scanSymbol, here, (stands.advance.reach 0).char 0]
  rfl

theorem scanSymbol_single {c : Char} (single : joins c (rest.getD 0 endMark) = false)
    (stands : Stands (c :: rest) ps r) :
    ∃ t r', scanSymbol r = (t, r') ∧ Stands rest ps r'
      ∧ t.word = ⟨.symbol, String.singleton c, ""⟩ := by
  rw [scanSymbol_eq stands]
  simp only [single, Bool.false_eq_true, if_false]
  exact ⟨_, _, rfl, stands.advance.reach 0, rfl⟩

theorem scanSymbol_double {c d : Char} (joined : joins c d)
    (stands : Stands (c :: d :: rest) ps r) :
    ∃ t r', scanSymbol r = (t, r') ∧ Stands rest ps r'
      ∧ t.word = ⟨.symbol, String.ofList [c, d], ""⟩ := by
  rw [scanSymbol_eq stands]
  simp only [List.getD_cons_zero, joined, if_true]
  refine ⟨_, _, rfl, (stands.advance.reach 0).advance, ?_⟩
  simp [Token.word, TokenBuilder.freeze, TokenBuilder.addTrigger]

theorem startsNumber_eq {c : Char} : ({} : Settings).startsNumber (c :: cs) =
    (isDigit c || (c == '-' && isDigit (cs.getD 0 endMark))
      || (c == '-' && decide (cs.getD 0 endMark = '.') && isDigit (cs.getD 1 endMark))
      || (decide (c = '.') && isDigit (cs.getD 0 endMark))) :=
  Separators.startsNumber_eq (s := .standard)

theorem startsNumber_of_ne {c : Char} (noDigit : isDigit c = false) (noMinus : c ≠ '-')
    (noPoint : c ≠ '.') : ({} : Settings).startsNumber (c :: cs) = false := by
  simp [startsNumber_eq, noDigit, noMinus, noPoint]

theorem startsNumber_of_unsigned {w : List Char} (starts : StartsUnsigned w) :
    ({} : Settings).startsNumber (w ++ rest) = true := by
  obtain ⟨c, cs, rfl, _⟩ := starts.head
  rcases starts with digit | ⟨point, digit⟩
  · rw [List.cons_append, startsNumber_eq, show isDigit c from digit]
    rfl
  · have next : isDigit ((cs ++ rest).getD 0 endMark) := head_append_of_isDigit digit rest ▸ digit
    rw [List.cons_append, startsNumber_eq, show c = '.' from point, next]
    rfl

theorem startsNumber_of_negative {w : List Char} (starts : StartsUnsigned w) :
    ({} : Settings).startsNumber ('-' :: (w ++ rest)) = true := by
  obtain ⟨c, cs, rfl, _⟩ := starts.head
  rcases starts with digit | ⟨point, digit⟩
  · simp [startsNumber_eq, show isDigit c from digit]
  · have next : isDigit ((cs ++ rest).getD 0 endMark) := head_append_of_isDigit digit rest ▸ digit
    rw [startsNumber_eq, List.cons_append, List.getD_cons_zero, List.getD_cons_succ, next,
      show c = '.' from point]
    rfl

theorem atBracket_eq {c : Char} (stands : Stands (c :: cs) ps r) :
    ∃ r', Stands (c :: cs) ps r' ∧ atBracket {} r =
      (decide (({} : Settings).isBracket c ∨ c = '|' ∧ cs.getD 0 endMark ≠ '|'), r') := by
  have here : r.char 0 = c := stands.char 0
  simp only [atBracket, here]
  cases bracket : ({} : Settings).isBracket c with
  | true => exact ⟨r, stands, by simp⟩
  | false =>
    by_cases bar : c = '|'
    · have next : (r.reach 1).char 1 = cs.getD 0 endMark := (stands.reach 1).char 1
      exact ⟨r.reach 1, stands.reach 1, by simp [bar, SettingValue.isOn, next]⟩
    · exact ⟨r, stands, by simp [bar]⟩

/-- What stands at a character, by the characters that follow. -/
theorem scanToken_eq {c : Char} (stands : Stands (c :: cs) ps r) :
    ∃ r₁, Stands (c :: cs) ps r₁ ∧ scanToken {} r =
      if ({} : Settings).startsNumber (c :: cs) then
        match scanNumber {} r₁ with
        | (.ok t, r) => (.ok (.done (some t)), r)
        | (.error f, r) => (.error f, r)
      else if isLetter c then (.ok (.done (some (scanName {} r₁).1)), (scanName {} r₁).2)
      else match ({} : Settings).escapeOf? c with
        | some escape =>
          (.ok (.done (some (scanString escape r₁).1)), (scanString escape r₁).2)
        | none =>
          if ({} : Settings).isBracket c ∨ c = '|' ∧ cs.getD 0 endMark ≠ '|' then
            (.ok (.done (some (scanBracket r₁).1)), (scanBracket r₁).2)
          else if isControl c then
            (.ok .skipped, (r₁.report ⟨.error, r₁.position,
              "Invalid character in input: '" ++ String.singleton c ++ "'"⟩).advance)
          else (.ok (.done (some (scanSymbol r₁).1)), (scanSymbol r₁).2) := by
  have stands₁ := stands.reach (({} : Settings).numberReach r.rest)
  have here : r.char 0 = c := stands.char 0
  simp only [scanToken, here, stands₁.rest]
  generalize r.reach _ = r₁ at stands₁
  -- The test for a bracket may look ahead, so which reader goes on depends on the case.
  obtain ⟨r', stands', brackets⟩ := atBracket_eq stands₁
  cases number : ({} : Settings).startsNumber (c :: cs) with
  | true => exact ⟨r₁, stands₁, rfl⟩
  | false =>
    cases letter : isLetter c with
    | true => exact ⟨r₁, stands₁, rfl⟩
    | false =>
      cases delimiter : ({} : Settings).escapeOf? c with
      | some escape => exact ⟨r₁, stands₁, rfl⟩
      | none =>
        refine ⟨r', stands', ?_⟩
        rw [brackets]
        by_cases bracket : ({} : Settings).isBracket c ∨ c = '|' ∧ cs.getD 0 endMark ≠ '|'
        · simp only [bracket]
          rfl
        · simp only [bracket]
          rfl

theorem mem_of_isBracket {c : Char} (is : ({} : Settings).isBracket c) :
    c ∈ ['(', '[', '\x7b', '\x7d', ']', ')'] := by
  obtain ⟨_, listed⟩ := Bool.and_eq_true_iff.mp is
  have same : ({} : Settings).brackets =
      ['(', '[', '\x7b', '\x7d', ']', ')'].map String.singleton := rfl
  rw [same, List.contains_iff_mem] at listed
  obtain ⟨d, member, equal⟩ := List.mem_map.mp listed
  have : d = c := by simpa using congrArg String.toList equal
  exact this ▸ member

theorem isBracket_other {c : Char} (is : ({} : Settings).isBracket c ∨ c = '|') :
    (∀ cs, ({} : Settings).startsNumber (c :: cs) = false) ∧ isLetter c = false
      ∧ ({} : Settings).escapeOf? c = none ∧ c ≠ endMark := by
  have listed : c ∈ ['|', '(', '[', '\x7b', '\x7d', ']', ')'] := by
    rcases is with bracket | rfl
    · exact List.mem_cons_of_mem _ (mem_of_isBracket bracket)
    · exact List.mem_cons_self
  have all : ∀ c ∈ ['|', '(', '[', '\x7b', '\x7d', ']', ')'],
      (isDigit c = false ∧ c ≠ '-' ∧ c ≠ '.') ∧ isLetter c = false
        ∧ (({} : Settings).escapeOf? c).isNone ∧ c ≠ endMark := forall_mem_of_all (by decide)
  obtain ⟨⟨digit, minus, point⟩, letter, delimiter, visible⟩ := all c listed
  exact ⟨fun _ => startsNumber_of_ne digit minus point, letter,
    Option.isNone_iff_eq_none.mp delimiter, visible⟩

theorem scanToken_eq_of_none {c : Char} (noNumber : ({} : Settings).startsNumber (c :: cs) = false)
    (noLetter : isLetter c = false) (noDelimiter : ({} : Settings).escapeOf? c = none)
    (stands : Stands (c :: cs) ps r) :
    ∃ r₁, Stands (c :: cs) ps r₁ ∧ scanToken {} r =
      if ({} : Settings).isBracket c ∨ c = '|' ∧ cs.getD 0 endMark ≠ '|' then
        (.ok (.done (some (scanBracket r₁).1)), (scanBracket r₁).2)
      else if isControl c then
        (.ok .skipped, (r₁.report ⟨.error, r₁.position,
          "Invalid character in input: '" ++ String.singleton c ++ "'"⟩).advance)
      else (.ok (.done (some (scanSymbol r₁).1)), (scanSymbol r₁).2) := by
  obtain ⟨r₁, stands₁, same⟩ := scanToken_eq stands
  refine ⟨r₁, stands₁, ?_⟩
  rw [same, if_neg (ne_true_of_eq_false noNumber),
    if_neg (ne_true_of_eq_false noLetter), noDelimiter]

theorem scanToken_symbol {c : Char} (starts : StartsSymbol c cs) (stands : Stands (c :: cs) ps r) :
    ∃ r₁, Stands (c :: cs) ps r₁ ∧
      scanToken {} r = (.ok (.done (some (scanSymbol r₁).1)), (scanSymbol r₁).2) := by
  obtain ⟨r₁, stands₁, same⟩ :=
    scanToken_eq_of_none starts.noNumber starts.noLetter starts.noDelimiter stands
  refine ⟨r₁, stands₁, ?_⟩
  have noBracket : ¬ (({} : Settings).isBracket c ∨ c = '|' ∧ cs.getD 0 endMark ≠ '|') := by
    rintro (bracket | ⟨bar, single⟩)
    · exact absurd bracket (ne_true_of_eq_false starts.noBracket)
    · exact single (starts.noBar bar)
  rw [same, if_neg noBracket, if_neg (ne_true_of_eq_false starts.noControl)]

theorem scanToken_spelled {w : List Char} {word : Word} (h : Spells w word rest)
    (stands : Stands (w ++ rest) ps r) :
    ∃ t r', scanToken {} r = (.ok (.done (some t)), r') ∧ Stands rest ps r' ∧ t.word = word := by
  -- All words but numbers are read by scans that cannot fail.
  have token {out : Token × Reader}
      (h : ∃ t r', out = (t, r') ∧ Stands rest ps r' ∧ t.word = word) :
      ∃ t r', ((.ok (.done (some out.1)), out.2) : Scanned Step) = (.ok (.done (some t)), r')
        ∧ Stands rest ps r' ∧ t.word = word := by
    obtain ⟨t, r', rfl, done⟩ := h
    exact ⟨t, r', rfl, done⟩
  cases h with
  | @name c cs _ letter noDigit more stop =>
    rw [List.cons_append] at stands
    obtain ⟨r₁, stands₁, same⟩ := scanToken_eq stands
    have noNumber : ({} : Settings).startsNumber (c :: (cs ++ rest)) = false := by
      refine startsNumber_of_ne noDigit ?_ ?_ <;> rintro rfl <;> exact absurd letter (by decide)
    rw [same, if_neg (ne_true_of_eq_false noNumber), if_pos letter]
    exact token (scanName_spelled more stop stands₁)
  | number starts reads stop =>
    have isNumber : ({} : Settings).startsNumber (w ++ rest) = true :=
      startsNumber_of_unsigned starts
    obtain ⟨c, cs, rfl, _⟩ := starts.head
    rw [List.cons_append] at stands isNumber
    obtain ⟨r₁, stands₁, same⟩ := scanToken_eq stands
    obtain ⟨t, r', run, done⟩ := scanNumber_unsigned starts reads stop stands₁
    rw [same, if_pos isNumber, run]
    exact ⟨t, r', rfl, done⟩
  | @negative cs ds _ k starts reads stop =>
    rw [List.cons_append] at stands
    obtain ⟨r₁, stands₁, same⟩ := scanToken_eq stands
    obtain ⟨t, r', run, done⟩ := scanNumber_negative reads stop stands₁
    rw [same, if_pos (startsNumber_of_negative starts), run]
    exact ⟨t, r', rfl, done⟩
  | @bracket c _ is =>
    obtain ⟨noNumber, noLetter, noDelimiter, visible⟩ := isBracket_other (.inl is)
    obtain ⟨r₁, stands₁, same⟩ := scanToken_eq_of_none (noNumber rest) noLetter noDelimiter stands
    rw [same, if_pos (.inl is)]
    exact token (scanBracket_spelled visible stands₁)
  | bar single =>
    obtain ⟨noNumber, noLetter, noDelimiter, visible⟩ := isBracket_other (.inr rfl)
    obtain ⟨r₁, stands₁, same⟩ := scanToken_eq_of_none (noNumber rest) noLetter noDelimiter stands
    rw [same, if_pos (.inr ⟨rfl, single⟩)]
    exact token (scanBracket_spelled visible stands₁)
  | symbol starts single =>
    obtain ⟨r₁, stands₁, same⟩ := scanToken_symbol starts stands
    exact same ▸ token (scanSymbol_single single stands₁)
  | double starts joined =>
    obtain ⟨r₁, stands₁, same⟩ := scanToken_symbol starts stands
    exact same ▸ token (scanSymbol_double joined stands₁)

end Formula.Lexer
