import Formula.Proofs.Lexer.Front
import Formula.Proofs.Value.Digits
import Formula.Proofs.Value.Kinds
import Formula.Proofs.Value.Numerals
import Formula.Proofs.Value.Opposite

/-! Numerals with a sign. A minus sign in front of a number, with digits of whatever script, gives
the opposite number. -/
namespace Formula

open Number

namespace Text

theorem isDigit_cases {c : Char} (h : isDigit c) :
    isAsciiDigit c ∨ ∃ r ∈ digitRanges, (r.1 ≤ c.toNat ∧ c.toNat ≤ r.2) ∧
      digitValue? c = some ((c.toNat - r.1) % 10) := by
  unfold isDigit digitValue? at h
  split at h
  · split at h
    · rename_i ascii
      exact .inl (by simpa [isAsciiDigit] using ascii)
    · cases h
  · rename_i beyond
    rw [Option.isSome_map] at h
    obtain ⟨r, found⟩ := Option.isSome_iff_exists.mp h
    have inside := List.find?_some found
    simp only [Bool.and_eq_true, decide_eq_true_eq] at inside
    refine .inr ⟨r, List.mem_of_find?_eq_some found, inside, ?_⟩
    rw [digitValue?, if_neg beyond, found]
    rfl

theorem digitRanges_apart : ∀ r ∈ digitRanges, 128 ≤ r.1 ∧ (0x3A3 < r.1 ∨ r.2 < 0x3A3) ∧
    (0x130 < r.1 ∨ r.2 < 0x130) ∧ ∀ b ∈ caseRuns, b.last < r.1 ∨ r.2 < b.first := by
  decide +kernel

end Text

open Text (isDigit isBlank digitValue? lowerChar lowerAfter caseRuns)
open Lexer (IsNumeric)

/-- What counts about a character of a number when a text is read. -/
structure PlainPart (c : Char) : Prop where
  noSpacing : isSpacing (asciiForm c) = false
  noBlank : isBlank c = false
  noSigma : c ≠ 'Σ'
  lower : lowerChar c = [c]
  sign : ∀ s, s = '-' ∨ s = '+' → asciiForm c = s → c = s
  other : c ∉ ['/', 'l', 'i', 'n']

theorem isAsciiDigit_asciiForm {c : Char} (h : isDigit c) : isAsciiDigit (asciiForm c) := by
  rcases Text.isDigit_cases h with ascii | ⟨r, listed, ⟨low, _⟩, value⟩
  · exact (plainDigit ascii).form.symm ▸ ascii
  · have beyond := (Text.digitRanges_apart r listed).1
    have all : ∀ v < 10, isAsciiDigit (Char.ofNat (48 + v)) := by decide
    rw [asciiForm, if_neg (by omega), Text.isBlank_of_isDigit h, value]
    exact all _ (Nat.mod_lt _ (by decide))

theorem plainPart_of_isDigit {c : Char} (h : isDigit c) : PlainPart c := by
  have form := isAsciiDigit_asciiForm h
  have noBlank := Text.isBlank_of_isDigit h
  -- The first ten digits are checked one by one; all others lie far from the special characters.
  rcases Text.isDigit_cases h with ascii | ⟨r, listed, ⟨low, high⟩, _⟩
  · have digit := plainDigit ascii
    have noSign : c ≠ '-' ∧ c ≠ '+' := by
      constructor <;> rintro rfl <;> exact digit.other (by decide)
    have other : c ∉ ['/', 'l', 'i', 'n'] := fun member =>
      digit.other
        ((by decide : ['/', 'l', 'i', 'n'] ⊆ ['_', '-', '+', '/', 'l', 'i', 'n', '.', 'e'])
          member)
    exact ⟨(plainDigit form).noSpacing, noBlank, digit.noSigma, digit.lower,
      fun s _ same => digit.form ▸ same, other⟩
  · obtain ⟨beyond, sigma, dotted, capitals⟩ := Text.digitRanges_apart r listed
    have large : 128 ≤ c.toNat := Nat.le_trans beyond low
    have far (d : Char) (small : d.toNat < 128) : c ≠ d := by
      rintro rfl
      omega
    have noSigma : c ≠ 'Σ' := by
      rintro rfl
      have code : 'Σ'.toNat = 0x3A3 := rfl
      omega
    have lower : lowerChar c = [c] := by
      have noDot : c ≠ '\u0130' := by
        rintro rfl
        have code : '\u0130'.toNat = 0x130 := rfl
        omega
      have small : caseRuns.find? (·.contains c.toNat) = none := by
        rw [List.find?_eq_none]
        intro b member
        have := capitals b member
        simp only [Text.CaseRun.contains, Bool.and_eq_true, decide_eq_true_eq]
        omega
      rw [lowerChar, if_neg (by omega), if_neg noDot, small]
    refine ⟨(plainDigit form).noSpacing, noBlank, noSigma, lower, fun s sign same => ?_, ?_⟩
    · rcases sign with rfl | rfl <;> exact absurd (by rw [same]; decide) (plainDigit form).other
    · simp [far]

theorem plainPart {c : Char} (h : IsNumeric c) : PlainPart c := by
  rcases h with digit | mark
  · exact plainPart_of_isDigit digit
  · have all : ∀ c ∈ ['.', 'e', '+', '-'], isSpacing (asciiForm c) = false ∧
        isBlank c = false ∧ c ≠ 'Σ' ∧
        lowerChar c = [c] ∧ asciiForm c = c ∧ c ∉ ['/', 'l', 'i', 'n'] :=
      forall_mem_of_all (by decide +kernel)
    obtain ⟨spacing, blank, sigma, lower, form, other⟩ := all c mark
    exact ⟨spacing, blank, sigma, lower, fun s _ same => form ▸ same, other⟩

namespace Number

def NumeralText.opposite (t : NumeralText) : NumeralText := { t with negative := !t.negative }

def Numeral.opposite : Numeral → Numeral
  | nan => nan
  | infinity n => infinity (!n)
  | decimal t => decimal t.opposite

theorem Binary64.neg_neg (x : Binary64) : x.neg.neg = x := by
  cases x <;> simp [neg]

theorem Binary64.ofScaled_not (negative : Bool) (n : Nat) (e : Int) :
    ofScaled (!negative) n e = (ofScaled negative n e).neg := by
  unfold ofScaled
  dsimp only
  split
  · rfl
  · split
    · rfl
    · split
      · rfl
      · split <;> cases negative <;> simp [neg_neg]

namespace Precise

variable {p : Nat}

theorem ofScaled_neg (n e : Int) : ofScaled p (-n) e = (ofScaled p n e).opposite := by
  have cast (m : Int) : ((-m : Int) : Dyadic) = -(m : Dyadic) := by
    apply Dyadic.toRat_inj.mp
    simp [Dyadic.toRat_neg]
  unfold ofScaled
  split
  · rw [cast, truncateTo_neg, Dyadic.neg_mul, roundTo_neg]
    rfl
  · split
    · rw [Int.neg_mul, cast, roundTo_neg]
      rfl
    · rw [cast, stickyQuotient_neg, roundTo_neg]
      rfl

theorem ofScaled_not (negative : Bool) (n e : Int) :
    ofScaled p (if !negative then -n else n) e =
      (ofScaled p (if negative then -n else n) e).opposite := by
  cases negative <;> simp [ofScaled_neg]

theorem ofNumeralText_opposite (t : NumeralText) (zeros : Nat) :
    ofNumeralText p t.opposite zeros = (ofNumeralText p t zeros).map opposite := by
  obtain ⟨negative, whole, fraction, exponent, below⟩ := t
  have turned : (NumeralText.mk negative whole fraction exponent below).opposite =
    ⟨!negative, whole, fraction, exponent, below⟩ := rfl
  rw [turned]
  unfold ofNumeralText
  dsimp only
  rw [ofScaled_not]
  split <;> rfl

end Precise

section Texts

variable {p : Nat} {cs : List Char}

theorem plainForm_numeric (h : ∀ c ∈ cs, IsNumeric c) : plainForm cs = cs.map asciiForm :=
  plainForm_eq_map fun c hc => (plainPart (h c hc)).noSpacing

theorem groupedFrom_sign (cs : List Char) : groupedFrom '-' cs = groupedFrom ' ' cs := by
  cases cs <;> rfl

theorem readDecimal?_sign (cs : List Char) :
    readDecimal? true cs = (readDecimal? false cs).map NumeralText.opposite := by
  have turned (whole fraction rest : List Char) :
      (readExponent? rest).map (fun e => NumeralText.mk true whole fraction e.2 e.1) =
        ((readExponent? rest).map fun e => NumeralText.mk false whole fraction e.2 e.1).map
          NumeralText.opposite := by
    rw [Option.map_map]
    rfl
  unfold readDecimal?
  dsimp only
  split <;> split <;> first | rfl | exact turned _ _ _

structure IsUnsigned (cs : List Char) : Prop where
  numeric : ∀ c ∈ cs, IsNumeric c
  noSign : ∀ c ∈ cs.head?, c ≠ '-' ∧ c ≠ '+'

theorem isNumeric_minus : IsNumeric '-' := .inr (by decide)

theorem IsUnsigned.signed (h : IsUnsigned cs) : ∀ c ∈ '-' :: cs, IsNumeric c :=
  List.forall_mem_cons.mpr ⟨isNumeric_minus, h.numeric⟩

theorem IsUnsigned.takeSign_eq (h : IsUnsigned cs) :
    takeSign (cs.map asciiForm) = (false, cs.map asciiForm) := by
  cases cs with
  | nil => rfl
  | cons c cs =>
    obtain ⟨minus, plus⟩ := h.noSign c rfl
    have part := plainPart (h.numeric c List.mem_cons_self)
    rw [List.map_cons, takeSign]
    · exact fun _ equal => minus (part.sign '-' (.inl rfl) (List.cons.inj equal).1)
    · exact fun _ equal => plus (part.sign '+' (.inr rfl) (List.cons.inj equal).1)

/-- A sign in front of a text of a number changes the sign of the numeral. -/
theorem Numeral.read?_minus (h : IsUnsigned cs) :
    Numeral.read? ('-' :: cs) = (Numeral.read? cs).map Numeral.opposite := by
  have grouped : isGrouped ('-' :: cs.map asciiForm) = isGrouped (cs.map asciiForm) :=
    groupedFrom_sign _
  have sign : takeSign ('-' :: cs.map asciiForm) = (true, cs.map asciiForm) := rfl
  have form : plainForm ('-' :: cs) = '-' :: cs.map asciiForm := plainForm_numeric h.signed
  simp only [Numeral.read?, plainForm_numeric h.numeric, form, grouped, sign, h.takeSign_eq,
    readDecimal?_sign]
  split
  · rfl
  · split
    · rfl
    · split
      · rfl
      · rw [Option.map_map, Option.map_map]
        rfl

theorem Binary64.read?_minus (h : IsUnsigned cs) : read? ('-' :: cs) = (read? cs).map neg := by
  unfold read?
  rw [Numeral.read?_minus h, Option.map_map, Option.map_map]
  congr 1
  funext n
  cases n with
  | nan | infinity => rfl
  | decimal t => exact ofScaled_not _ _ _

def Precise.ofNumeral? (p zeros : Nat) : Option Numeral → Except NumeralFault Precise
  | some (.decimal t) => ofNumeralText p t zeros
  | _ => .error .malformed

theorem Precise.ofNumeral?_opposite (zeros : Nat) (n : Option Numeral) :
    ofNumeral? p zeros (n.map Numeral.opposite) = (ofNumeral? p zeros n).map opposite := by
  cases n with
  | none => rfl
  | some n =>
    cases n with
    | nan | infinity => rfl
    | decimal t => exact ofNumeralText_opposite t zeros

theorem finalZeros_minus (cs : List Char) : finalZeros ('-' :: cs) = finalZeros cs := by
  have before : ('-' :: cs).takeWhile (· ≠ 'e') = '-' :: cs.takeWhile (· ≠ 'e') :=
    List.takeWhile_cons_of_pos (by decide)
  rw [finalZeros, before, List.reverse_cons, List.takeWhile_append]
  split
  · rename_i all
    rw [List.takeWhile_cons_of_neg (by decide), List.append_nil]
    exact all.symm
  · rfl

theorem Precise.read_numeric {s : String} (numeric : ∀ c ∈ s.toList, IsNumeric c) :
    read p s = ofNumeral? p (finalZeros s.toList) (Numeral.read? s.toList) := by
  have strip : Text.strip s.toList = s.toList :=
    trim_eq_self fun c hc => (plainPart (numeric c hc)).noBlank
  have lower : (Text.lower s).toList = s.toList := by
    have kept : ∀ c ∈ s.toList, c ≠ 'Σ' ∧ lowerChar c = [c] := fun c hc =>
      ⟨(plainPart (numeric c hc)).noSigma, (plainPart (numeric c hc)).lower⟩
    rw [Text.lower, lowerAfter_eq_self kept, String.toList_ofList]
  have without {c : Char} (listed : c ∈ ['/', 'l', 'i', 'n']) : c ∉ s.toList :=
    fun member => (plainPart (numeric c member)).other listed
  have noWord {w : List Char} (h : 'i' ∈ w ∨ 'n' ∈ w) : s.toList ≠ w := by
    rintro rfl
    rcases h with h | h
    · exact without (by decide) h
    · exact without (by decide) h
  have noSlash : s.toList.contains '/' = false := by
    rw [List.contains_eq_mem]
    exact decide_eq_false (without (by decide))
  have noL : dropFinalL s.toList = s.toList := dropFinalL_eq_self (without (by decide))
  simp only [read, lower, strip, noSlash, noL, noWord (w := "inf".toList) (by decide),
    noWord (w := "+inf".toList) (by decide), noWord (w := "-inf".toList) (by decide),
    noWord (w := "nan".toList) (by decide), or_self, Bool.false_eq_true, if_false]
  rfl

end Texts

end Number

namespace Value

variable {p : Nat} {m : Mode}

/-- A minus sign in front of a number gives the opposite number. -/
theorem ofNumeral_minus {s : String} (h : IsUnsigned s.toList) :
    ofNumeral m p ("-" ++ s) = (ofNumeral m p s).map opposite := by
  have chars : ("-" ++ s).toList = '-' :: s.toList := String.toList_append
  cases m with
  | float =>
    simp only [ofNumeral, convert, toFloat?, chars, Binary64.read?_minus h]
    cases Binary64.read? s.toList <;> rfl
  | precise =>
    have signed : ∀ c ∈ ("-" ++ s).toList, IsNumeric c := chars ▸ h.signed
    simp only [ofNumeral, convert, toPrecise?, readPrecise, Precise.read_numeric signed, chars,
      Precise.read_numeric h.numeric, Numeral.read?_minus h, finalZeros_minus,
      Precise.ofNumeral?_opposite]
    cases Precise.ofNumeral? p (finalZeros s.toList) (Numeral.read? s.toList) with
    | ok x => rfl
    | error f => cases f <;> rfl

theorem ofNumeral_isSigned {s : String} {v : Value} (h : ofNumeral m p s = .ok v) : v.IsSigned := by
  rcases ofNumeral_cases h with ⟨_, x, rfl⟩ | ⟨_, x, rfl⟩ <;> exact trivial

theorem ofNumeral_plain {s : String} {v : Value} (h : ofNumeral m p s = .ok v) (mode : m = .float) :
    v.IsPlain := by
  rcases ofNumeral_cases h with ⟨_, x, rfl⟩ | ⟨other, _⟩
  · rfl
  · cases mode.symm.trans other

theorem ofNumeral_precise {s : String} {v : Value} (h : ofNumeral m p s = .ok v)
    (mode : m = .precise) :
    v.isPrecise := by
  rcases ofNumeral_cases h with ⟨other, _⟩ | ⟨_, x, rfl⟩
  · cases mode.symm.trans other
  · rfl

end Value

namespace Parser

variable {p : Nat} {v : Value}

theorem scaled_opposite (signed : v.IsSigned) (e : Int) :
    Value.AreOpposite (scaled p v e) (scaled p v.opposite e) := by
  unfold scaled
  split
  · exact Value.quotient_opposite signed _
  · exact Value.mul_opposite signed _

theorem scaled_plain (plain : v.IsPlain) (e : Int) : Value.Keeps Value.IsPlain (scaled p v e) := by
  unfold scaled
  split
  · exact Value.quotient_plain plain rfl
  · exact Value.mul_plain plain rfl

theorem scaled_precise (precise : v.isPrecise) (e : Int) :
    Value.Keeps Value.IsPreciseOrInvalid (scaled p v e) := by
  unfold scaled
  split
  · exact fun w same => .inl (Value.quotient_precise precise _ w same)
  · exact Value.mul_precise (.inl (.inl precise))

end Parser

end Formula
