import Formula.Proofs.Lexer.Lexemes
import Formula.Proofs.Value.SignedNumerals

/-! Numbers as the lexer writes them: digits, a point with more digits, and an exponent. Both modes
read such a text as a decimal, but a precise number is not read where only zeros follow a point that
nothing precedes. -/
namespace Formula

open Number
open Text (isDigit)
open Lexer (IsNumeric Numeral StartsUnsigned ne_of_isDigit)

/-- A point and only zeros, up to the exponent. -/
def isBareZero (cs : List Char) : Bool :=
  match (takeSign cs).2 with
  | '.' :: rest => (rest.takeWhile (· ≠ 'e')).all (· == '0')
  | _ => false

/-- A number that has the form of a number but is not read in the mode. -/
def Mode.refuses (m : Mode) (s : String) : Bool := m = .precise ∧ isBareZero s.toList

inductive IsFraction : List Char → List Char → Prop
  | none : IsFraction [] []
  | digits {ds : List Char} (digits : ∀ d ∈ ds, isDigit d) : IsFraction ('.' :: ds) ds

inductive IsExponent : List Char → Bool → List Char → Prop
  | none : IsExponent [] false []
  | plain {d : Char} {ds : List Char} (digits : ∀ c ∈ d :: ds, isDigit c) :
      IsExponent ('e' :: d :: ds) false (d :: ds)
  | signed {s d : Char} {ds : List Char} (sign : s = '+' ∨ s = '-')
      (digits : ∀ c ∈ d :: ds, isDigit c) :
      IsExponent ('e' :: s :: d :: ds) (s == '-') (d :: ds)

/-- The parts of a number without a sign. -/
structure IsWritten (cs whole fraction exponent : List Char) (isNegative : Bool) : Prop where
  parts : ∃ point power, cs = whole ++ (point ++ power) ∧ IsFraction point fraction ∧
    IsExponent power isNegative exponent
  digits : ∀ d ∈ whole, isDigit d
  nonempty : whole ≠ [] ∨ fraction ≠ []

section Lexing

variable {k k' : TokenKind} {w cs ds : List Char}

theorem Lexer.Numeral.isNumeric (h : Numeral k w k' cs) : ∀ c ∈ cs, IsNumeric c := by
  induction h with
  | done => exact List.forall_mem_nil _
  | digit is _ ih => exact List.forall_mem_cons.mpr ⟨.inl is, ih⟩
  | group _ _ ih => exact ih
  | point _ ih => exact List.forall_mem_cons.mpr ⟨.inr (by simp), ih⟩
  | exponent _ _ _ _ ih => exact List.forall_mem_cons.mpr ⟨.inr (by simp), ih⟩
  | @signed _ _ _ s _ _ _ _ sign _ _ ih =>
    have isSign : s ∈ ['.', 'e', '+', '-'] := by
      rcases sign with rfl | rfl <;> simp
    exact List.forall_mem_cons.mpr ⟨.inr (by simp), List.forall_mem_cons.mpr ⟨.inr isSign, ih⟩⟩

theorem not_startsUnsigned {c : Char} (is : c = 'e' ∨ c = 'E') : ¬ StartsUnsigned (c :: cs) := by
  intro starts
  rcases is with rfl | rfl
  · exact starts.ne (d := 'e') (by simp) rfl
  · exact starts.ne (d := 'E') (by simp) rfl

theorem Lexer.Numeral.isUnsigned (starts : StartsUnsigned w) (h : Numeral .integer w k cs) :
    IsUnsigned cs := by
  apply IsUnsigned.mk h.isNumeric
  cases h with
  | done => exact fun _ none => by cases none
  | digit is =>
    rintro c ⟨⟩
    exact ⟨ne_of_isDigit is (by simp), ne_of_isDigit is (by simp)⟩
  | point =>
    rintro c ⟨⟩
    decide
  | group => exact absurd rfl (starts.ne (by simp))
  | exponent is | signed is => exact absurd starts (not_startsUnsigned is)

theorem Lexer.Numeral.length_le (h : Numeral k w k' cs) : cs.length ≤ w.length := by
  induction h with
  | done => exact Nat.le_refl _
  | digit _ _ ih | group _ _ ih | point _ ih | exponent _ _ _ _ ih | signed _ _ _ _ _ ih =>
    simp only [List.length_cons]
    omega

theorem Lexer.Numeral.head (h : Numeral k w k' cs) (digit : isDigit (w.getD 0 endMark)) :
    ∃ d ds, cs = d :: ds ∧ isDigit d := by
  have starts : StartsUnsigned w := .inl digit
  cases h with
  | done => exact absurd rfl (ne_of_isDigit digit (by simp))
  | @digit _ _ c _ ds is => exact ⟨c, ds, rfl, is⟩
  | group => exact absurd rfl (starts.ne (by simp))
  | point => exact absurd rfl (ne_of_isDigit digit (by simp))
  | exponent is | signed is => exact absurd starts (not_startsUnsigned is)

theorem Lexer.Numeral.scientific (h : Numeral .scientific w k' cs) : ∀ c ∈ cs, isDigit c := by
  generalize same : TokenKind.scientific = k at h
  induction h with
  | done => exact List.forall_mem_nil _
  | digit is _ ih => exact List.forall_mem_cons.mpr ⟨is, ih same⟩
  | group _ _ ih => exact ih same
  | point => cases same
  | exponent _ first => exact absurd same.symm first
  | signed _ first => exact absurd same.symm first

theorem Lexer.Numeral.power (h : Numeral .scientific w k' cs) (digit : isDigit (w.getD 0 endMark)) :
    ∃ d ds, cs = d :: ds ∧ ∀ c ∈ d :: ds, isDigit c := by
  obtain ⟨d, ds, rfl, _⟩ := h.head digit
  exact ⟨d, ds, rfl, h.scientific⟩

theorem Lexer.Numeral.decimal (h : Numeral .decimal w k' cs) :
    ∃ fraction power isNegative exponent, cs = fraction ++ power ∧ (∀ d ∈ fraction, isDigit d) ∧
      IsExponent power isNegative exponent := by
  generalize same : TokenKind.decimal = k at h
  induction h with
  | done => exact ⟨[], [], _, _, rfl, List.forall_mem_nil _, .none⟩
  | @digit _ _ c _ _ is _ ih =>
    obtain ⟨fraction, power, isNegative, exponent, rfl, digits, isExponent⟩ := ih same
    exact ⟨c :: fraction, power, isNegative, exponent, rfl,
      List.forall_mem_cons.mpr ⟨is, digits⟩, isExponent⟩
  | group _ _ ih => exact ih same
  | point => cases same
  | exponent _ _ before more =>
    obtain ⟨d, ds, rfl, digits⟩ := more.power before
    exact ⟨[], _, _, _, rfl, List.forall_mem_nil _, .plain digits⟩
  | signed _ _ sign before more =>
    obtain ⟨d, ds, rfl, digits⟩ := more.power before
    exact ⟨[], _, _, _, rfl, List.forall_mem_nil _, .signed sign digits⟩

theorem Lexer.Numeral.integer (h : Numeral .integer w k' cs) :
    ∃ whole point power fraction isNegative exponent,
      cs = whole ++ (point ++ power) ∧ (∀ d ∈ whole, isDigit d) ∧
      IsFraction point fraction ∧ IsExponent power isNegative exponent := by
  generalize same : TokenKind.integer = k at h
  induction h with
  | done => exact ⟨[], [], [], _, _, _, rfl, List.forall_mem_nil _, .none, .none⟩
  | @digit _ _ c _ _ is _ ih =>
    obtain ⟨whole, point, power, fraction, isNegative, exponent, rfl, digits, others⟩ := ih same
    exact ⟨c :: whole, point, power, fraction, isNegative, exponent, rfl,
      List.forall_mem_cons.mpr ⟨is, digits⟩, others⟩
  | group _ _ ih => exact ih same
  | point more =>
    obtain ⟨fraction, power, isNegative, exponent, rfl, digits, isExponent⟩ := more.decimal
    exact ⟨[], '.' :: fraction, power, _, _, _, rfl, List.forall_mem_nil _,
      .digits digits, isExponent⟩
  | exponent _ _ before more =>
    obtain ⟨d, ds, rfl, digits⟩ := more.power before
    exact ⟨[], [], _, _, _, _, rfl, List.forall_mem_nil _, .none, .plain digits⟩
  | signed _ _ sign before more =>
    obtain ⟨d, ds, rfl, digits⟩ := more.power before
    exact ⟨[], [], _, _, _, _, rfl, List.forall_mem_nil _, .none, .signed sign digits⟩

theorem Lexer.Numeral.starts (starts : StartsUnsigned w) (h : Numeral .integer w k cs) :
    StartsUnsigned cs := by
  cases h with
  | done => exact starts
  | digit is => exact .inl is
  | group => exact absurd rfl (starts.ne (by simp))
  | point more =>
    rcases starts with digit | ⟨_, digit⟩
    · exact absurd rfl (ne_of_isDigit digit (by simp))
    · obtain ⟨d, ds, rfl, is⟩ := more.head digit
      exact .inr ⟨rfl, is⟩
  | exponent is | signed is => exact absurd starts (not_startsUnsigned is)

theorem isWritten_of_numeral (starts : StartsUnsigned w) (h : Numeral .integer w k cs) :
    ∃ whole fraction exponent isNegative, IsWritten cs whole fraction exponent isNegative := by
  have starts := h.starts starts
  obtain ⟨whole, point, power, fraction, isNegative, exponent, rfl, digits, isFraction,
      isExponent⟩ := h.integer
  refine ⟨whole, fraction, exponent, isNegative,
    ⟨point, power, rfl, isFraction, isExponent⟩, digits, ?_⟩
  by_contra none
  obtain ⟨rfl, rfl⟩ : whole = [] ∧ fraction = [] := by simpa using none
  have noDigit : isDigit 'e' = false ∧ isDigit '.' = false ∧ isDigit endMark = false := by decide
  cases isFraction with
  | none => cases isExponent <;> simp [StartsUnsigned, noDigit] at starts
  | digits => cases isExponent <;> simp [StartsUnsigned, noDigit] at starts

end Lexing

section Reading

variable {p : Nat} {cs ds rest point power whole fraction exponent : List Char} {isNegative : Bool}

theorem asciiForm_ne {c d : Char} (h : isDigit c)
    (other : d ∈ ['_', '-', '+', '/', 'l', 'i', 'n', '.', 'e']) :
    asciiForm c ≠ d := by
  rintro rfl
  exact (plainDigit (isAsciiDigit_asciiForm h)).other other

theorem span_digits (digits : ∀ d ∈ ds, isDigit d)
    (stop : isDigitOrBar (rest.getD 0 endMark) = false) :
    (ds.map asciiForm ++ rest).takeWhile isDigitOrBar = ds.map asciiForm ∧
      (ds.map asciiForm ++ rest).dropWhile isDigitOrBar = rest := by
  have parts : ∀ c ∈ ds.map asciiForm, isDigitOrBar c := by
    intro c hc
    obtain ⟨d, hd, rfl⟩ := List.mem_map.mp hc
    exact (plainDigit (isAsciiDigit_asciiForm (digits d hd))).isPart
  have stays : rest.takeWhile isDigitOrBar = [] ∧ rest.dropWhile isDigitOrBar = rest := by
    cases rest with
    | nil => exact ⟨rfl, rfl⟩
    | cons c rest =>
      have here : ¬ isDigitOrBar c = true := ne_true_of_eq_false stop
      exact ⟨List.takeWhile_cons_of_neg here, List.dropWhile_cons_of_neg here⟩
  rw [List.takeWhile_append_of_pos parts, List.dropWhile_append_of_pos parts, stays.1, stays.2,
    List.append_nil]
  exact ⟨rfl, rfl⟩

theorem IsExponent.read (h : IsExponent power isNegative exponent) :
    readExponent? (power.map asciiForm) = some (isNegative, exponent.map asciiForm) := by
  have parts {d : Char} {ds : List Char} (digits : ∀ c ∈ d :: ds, isDigit c) :
      (!((d :: ds).map asciiForm).isEmpty && ((d :: ds).map asciiForm).all isDigitOrBar) =
      true := by
    rw [List.map_cons, List.isEmpty_cons, ← List.map_cons, List.all_map,
      Bool.not_false, Bool.true_and, List.all_eq_true]
    exact fun c hc => (plainDigit (isAsciiDigit_asciiForm (digits c hc))).isPart
  have marked {sign : Bool} {es es' : List Char} (signed : takeSign es = (sign, es'))
      (digits : (!es'.isEmpty && es'.all isDigitOrBar) = true) :
      readExponent? ('e' :: es) = some (sign, es') := by
    simp only [readExponent?, true_or, if_true, signed, digits]
  cases h with
  | none => rfl
  | @plain d ds digits =>
    have first := digits d List.mem_cons_self
    have unsigned : takeSign ((d :: ds).map asciiForm) = (false, (d :: ds).map asciiForm) := by
      rw [List.map_cons, takeSign]
      · exact fun _ same => asciiForm_ne first (by simp) (List.cons.inj same).1
      · exact fun _ same => asciiForm_ne first (by simp) (List.cons.inj same).1
    exact marked unsigned (parts digits)
  | signed sign digits =>
    rcases sign with rfl | rfl
    · exact marked rfl (parts digits)
    · exact marked rfl (parts digits)

theorem IsExponent.stop (h : IsExponent power isNegative exponent) :
    isDigitOrBar ((power.map asciiForm).getD 0 endMark) = false := by
  cases h <;> rfl

theorem IsWritten.readDecimal? (h : IsWritten cs whole fraction exponent isNegative) :
    readDecimal? false (cs.map asciiForm) =
      some ⟨false, whole.map asciiForm, fraction.map asciiForm,
      exponent.map asciiForm, isNegative⟩ := by
  obtain ⟨⟨point, power, rfl, isFraction, isExponent⟩, digits, nonempty⟩ := h
  have some : ((whole.map asciiForm).isEmpty && (fraction.map asciiForm).isEmpty) = false := by
    rcases nonempty with nonempty | nonempty <;> simp [nonempty]
  rw [List.map_append, List.map_append]
  cases isFraction with
  | none =>
    obtain ⟨taken, left⟩ := span_digits digits isExponent.stop
    -- what follows is no point, so that the second branch of the match is taken
    have noPoint : ∀ rest, power.map asciiForm ≠ '.' :: rest := by
      intro rest same
      cases isExponent with
      | none => cases same
      | plain | signed => exact absurd (List.cons.inj same).1 (by decide)
    simp only [Number.readDecimal?, List.map_nil, List.nil_append, taken, left,
      isExponent.read] at some ⊢
    rw [some]
    rfl
  | digits inside =>
    have head : ('.' :: fraction).map asciiForm ++ power.map asciiForm
      = '.' :: (fraction.map asciiForm ++ power.map asciiForm) := rfl
    have stop : isDigitOrBar
        (('.' :: (fraction.map asciiForm ++ power.map asciiForm)).getD 0 endMark) = false := rfl
    obtain ⟨taken, left⟩ := span_digits digits stop
    obtain ⟨taken', left'⟩ := span_digits inside isExponent.stop
    simp only [Number.readDecimal?, head, taken, left, taken', left', some, isExponent.read]
    rfl

theorem IsWritten.head (h : IsWritten cs whole fraction exponent isNegative) :
    ∃ c rest, cs = c :: rest ∧ (isDigit c ∨ c = '.') := by
  obtain ⟨⟨point, power, rfl, isFraction, _⟩, digits, nonempty⟩ := h
  cases whole with
  | cons d whole => exact ⟨d, _, rfl, .inl (digits d List.mem_cons_self)⟩
  | nil =>
    cases isFraction with
    | none => simp at nonempty
    | digits => exact ⟨'.', _, rfl, .inr rfl⟩

theorem IsWritten.noWord (h : IsWritten cs whole fraction exponent isNegative) {s : String}
    (letter : s.toList.head? = some 'i' ∨ s.toList.head? = some 'n') :
    String.ofList ((cs.map asciiForm).map Char.toLower) ≠ s := by
  rintro rfl
  obtain ⟨c, rest, rfl, first⟩ := h.head
  simp only [List.map_cons, String.toList_ofList, List.head?_cons, Option.some.injEq] at letter
  rcases first with digit | rfl
  · rw [(plainDigit (isAsciiDigit_asciiForm digit)).toLower] at letter
    rcases letter with letter | letter
    · exact asciiForm_ne digit (by simp) letter
    · exact asciiForm_ne digit (by simp) letter
  · rcases letter with letter | letter
    · exact absurd letter (by decide)
    · exact absurd letter (by decide)

theorem IsWritten.read? (h : IsWritten cs whole fraction exponent isNegative)
    (unsigned : IsUnsigned cs) :
    Numeral.read? cs = some (.decimal ⟨false, whole.map asciiForm, fraction.map asciiForm,
      exponent.map asciiForm, isNegative⟩) := by
  have noBar : '_' ∉ cs.map asciiForm := by
    intro bar
    obtain ⟨c, hc, same⟩ := List.mem_map.mp bar
    have marks : ∀ c ∈ ['.', 'e', '+', '-'], asciiForm c ≠ '_' := forall_mem_of_all (by decide)
    rcases unsigned.numeric c hc with digit | mark
    · exact asciiForm_ne digit (by simp) same
    · exact marks c mark same
  simp only [Number.Numeral.read?, plainForm_numeric unsigned.numeric, isGrouped_of_noBar noBar,
    unsigned.takeSign_eq, h.readDecimal?, h.noWord (s := "inf") (.inl rfl),
    h.noWord (s := "infinity") (.inl rfl), h.noWord (s := "nan") (.inr rfl)]
  rfl

theorem takeSign_unsigned (unsigned : IsUnsigned cs) : takeSign cs = (false, cs) := by
  cases cs with
  | nil => rfl
  | cons c cs =>
    obtain ⟨minus, plus⟩ := unsigned.noSign c rfl
    rw [takeSign]
    · exact fun _ same => minus (List.cons.inj same).1
    · exact fun _ same => plus (List.cons.inj same).1

theorem isBareZero_minus (unsigned : IsUnsigned cs) : isBareZero ('-' :: cs) = isBareZero cs := by
  have signed : takeSign ('-' :: cs) = (true, cs) := rfl
  rw [isBareZero, isBareZero, takeSign_unsigned unsigned, signed]

theorem IsExponent.takeWhile (h : IsExponent power isNegative exponent) (noMark : 'e' ∉ ds) :
    (ds ++ power).takeWhile (· ≠ 'e') = ds := by
  have others : ∀ c ∈ ds, decide (c ≠ 'e') = true := by
    intro c hc
    apply decide_eq_true
    rintro rfl
    exact noMark hc
  have stops : power.takeWhile (· ≠ 'e') = [] := by
    cases h <;> rfl
  rw [List.takeWhile_append_of_pos others, stops, List.append_nil]

theorem noMark_of_digits (digits : ∀ d ∈ ds, isDigit d) : 'e' ∉ ds :=
  fun mark => ne_of_isDigit (digits 'e' mark) (d := 'e') (by simp) rfl

/-- There are as many zeros at the end as there are digits if and only if all digits are zeros. -/
theorem length_le_finalZeros (ds : List Char) :
    ds.length ≤ (('.' :: ds).reverse.takeWhile (· == '0')).length ↔ ds.all (· == '0') := by
  have cut : ('.' :: ds).reverse.takeWhile (· == '0') = ds.reverse.takeWhile (· == '0') := by
    rw [List.reverse_cons, List.takeWhile_append]
    split
    · rename_i all
      rw [(List.takeWhile_prefix _).eq_of_length all]
      simp
    · rfl
  rw [cut, ← List.all_reverse, ← List.length_reverse, List.all_eq_true,
    ← List.takeWhile_eq_self_iff]
  constructor
  · intro long
    apply (List.takeWhile_prefix _).eq_of_length
    have short := (List.takeWhile_prefix (l := ds.reverse) (· == '0')).length_le
    omega
  · intro same
    rw [same]

theorem IsWritten.isEmpty (h : IsWritten cs whole fraction exponent isNegative)
    (unsigned : IsUnsigned cs) :
    (whole.map asciiForm ++ (fraction.map asciiForm).take
      ((fraction.map asciiForm).length - finalZeros cs)).isEmpty
      = isBareZero cs := by
  obtain ⟨⟨point, power, rfl, isFraction, isExponent⟩, digits, nonempty⟩ := h
  cases whole with
  | cons d whole =>
    have noPoint : d ≠ '.' := ne_of_isDigit (digits d List.mem_cons_self) (by simp)
    rw [isBareZero, takeSign_unsigned unsigned]
    simp [noPoint]
  | nil =>
    cases isFraction with
    | none => simp at nonempty
    | digits inside =>
      have noMark := noMark_of_digits inside
      have zeros : finalZeros ('.' :: (fraction ++ power)) =
          (('.' :: fraction).reverse.takeWhile (· == '0')).length := by
        rw [finalZeros, ← List.cons_append, isExponent.takeWhile (by simpa using noMark)]
      have bare : isBareZero ('.' :: (fraction ++ power)) = fraction.all (· == '0') :=
        congrArg (fun ds : List Char => ds.all (· == '0')) (isExponent.takeWhile noMark)
      rw [List.nil_append, List.cons_append, zeros, bare, Bool.eq_iff_iff,
        ← length_le_finalZeros, List.map_nil, List.nil_append, List.isEmpty_iff,
        List.take_eq_nil_iff, List.length_map, ← List.length_eq_zero_iff, List.length_map]
      omega

theorem IsWritten.length_le (h : IsWritten cs whole fraction exponent isNegative) :
    whole.length + fraction.length + exponent.length ≤ cs.length := by
  obtain ⟨⟨point, power, rfl, isFraction, isExponent⟩, _, _⟩ := h
  have behind : fraction.length ≤ point.length := by
    cases isFraction with
    | none => exact Nat.le_refl _
    | digits => exact Nat.le_succ _
  have last : exponent.length ≤ power.length := by
    cases isExponent with
    | none => exact Nat.le_refl _
    | plain | signed =>
      simp only [List.length_cons]
      omega
  simp only [List.length_append]
  omega

theorem IsWritten.fraction_ne (h : IsWritten cs whole fraction exponent isNegative) {n : Nat} :
    ((fraction.map asciiForm).take n).getLast? ≠ some '_' := by
  obtain ⟨⟨point, power, rfl, isFraction, _⟩, _, _⟩ := h
  intro last
  obtain ⟨c, hc, same⟩ := List.mem_map.mp (List.mem_of_mem_take (List.mem_of_getLast? last))
  cases isFraction with
  | none => cases hc
  | digits inside => exact asciiForm_ne (inside c hc) (by simp) same

/-- A number without a sign is read in both modes, unless it is precise and a bare zero. -/
theorem ofNumeral_written {s : String} (h : IsWritten s.toList whole fraction exponent isNegative)
    (unsigned : IsUnsigned s.toList) (short : s.toList.length ≤ maxIntegerDigits) (m : Mode) :
    ∃ v, Value.ofNumeral m p s = if m.refuses s then .error .malformedValue else .ok v := by
  have read := h.read? unsigned
  cases m with
  | float =>
    simp only [Value.ofNumeral, Value.convert, Value.toFloat?, Binary64.read?, read]
    exact ⟨_, rfl⟩
  | precise =>
    have length := h.length_le
    let kept := (fraction.map asciiForm).take
      ((fraction.map asciiForm).length - finalZeros s.toList)
    have few : ((whole.map asciiForm ++ kept).filter isAsciiDigit).length ≤ maxIntegerDigits := by
      have filtered := List.length_filter_le isAsciiDigit (whole.map asciiForm ++ kept)
      have cut : kept.length ≤ fraction.length := by simp [kept]
      rw [List.length_append, List.length_map] at filtered
      omega
    have few' : ((exponent.map asciiForm).filter isAsciiDigit).length ≤ maxIntegerDigits := by
      have filtered := List.length_filter_le isAsciiDigit (exponent.map asciiForm)
      rw [List.length_map] at filtered
      omega
    have noBar : (kept.getLast? == some '_') = false := beq_eq_false_iff_ne.mpr h.fraction_ne
    have empty : (whole.map asciiForm ++ kept).isEmpty = isBareZero s.toList := h.isEmpty unsigned
    -- of all that may be wrong with a precise number, only that nothing remains of it can be
    have wrong : ((whole.map asciiForm ++ kept).isEmpty || kept.getLast? == some '_'
        || decide (maxIntegerDigits < ((whole.map asciiForm ++ kept).filter isAsciiDigit).length)
        || decide (maxIntegerDigits < ((exponent.map asciiForm).filter isAsciiDigit).length))
        = isBareZero s.toList := by
      rw [empty, noBar, decide_eq_false (Nat.not_lt.mpr few), decide_eq_false (Nat.not_lt.mpr few')]
      simp only [Bool.or_false]
    obtain ⟨x, text⟩ : ∃ x, Precise.read p s =
        if isBareZero s.toList then .error .malformed else .ok x := by
      rw [Precise.read_numeric unsigned.numeric, read, ← wrong]
      exact ⟨_, rfl⟩
    simp only [Value.ofNumeral, Value.convert, Value.toPrecise?, Value.readPrecise,
      text, Mode.refuses]
    refine ⟨.precise x, ?_⟩
    cases isBareZero s.toList <;> rfl

theorem ofNumeral_numeral {w cs : List Char} {k : TokenKind} (starts : StartsUnsigned w)
    (h : Numeral .integer w k cs) (short : w.length ≤ maxIntegerDigits) (m : Mode) {s : String}
    (content : s = String.ofList cs ∨ s = String.ofList ('-' :: cs)) :
    ∃ v, Value.ofNumeral m p s = if m.refuses s then .error .malformedValue else .ok v := by
  have unsigned : IsUnsigned (String.ofList cs).toList := by
    rw [String.toList_ofList]
    exact h.isUnsigned starts
  obtain ⟨whole, fraction, exponent, isNegative, written⟩ := isWritten_of_numeral starts h
  have few : (String.ofList cs).toList.length ≤ maxIntegerDigits := by
    have := h.length_le
    rw [String.toList_ofList]
    omega
  rw [← String.toList_ofList (l := cs)] at written
  obtain ⟨v, read⟩ := ofNumeral_written (p := p) written unsigned few m
  rcases content with rfl | rfl
  · exact ⟨v, read⟩
  · have minus : String.ofList ('-' :: cs) = "-" ++ String.ofList cs := by
      apply String.toList_inj.mp
      simp
    have refuses : m.refuses (String.ofList ('-' :: cs)) = m.refuses (String.ofList cs) := by
      rw [Mode.refuses, Mode.refuses, String.toList_ofList, String.toList_ofList,
        isBareZero_minus (h.isUnsigned starts)]
    rw [refuses, minus, Value.ofNumeral_minus unsigned, read]
    refine ⟨v.opposite, ?_⟩
    cases m.refuses (String.ofList cs) <;> rfl

end Reading

end Formula
