import Mathlib.Data.List.TakeWhile
import Formula.Proofs.Entries
import Formula.Value

/-! Texts of digits. A text that consists of the digits from zero to nine denotes the number that is
written so, and a precise number may have no more than so many of them. -/
namespace Formula

open Number
open Text (isDigit isBlank digitValue? lowerChar lowerAfter)

/-- What counts about a digit when a text is read. -/
structure PlainDigit (c : Char) : Prop where
  isDigit : isDigit c
  form : asciiForm c = c
  noSpacing : isSpacing c = false
  noBlank : isBlank c = false
  isPart : isDigitOrBar c
  noSigma : c ≠ 'Σ'
  lower : lowerChar c = [c]
  toLower : c.toLower = c
  other : c ∉ ['_', '-', '+', '/', 'l', 'i', 'n', '.', 'e']

theorem mem_digits {c : Char} (h : isAsciiDigit c) :
    c ∈ ['0', '1', '2', '3', '4', '5', '6', '7', '8', '9'] := by
  simp only [isAsciiDigit, Bool.and_eq_true, decide_eq_true_eq] at h
  have low : 48 ≤ c.toNat := h.1
  have high : c.toNat ≤ 57 := h.2
  have same : c = Char.ofNat c.toNat := (Char.ofNat_toNat c).symm
  generalize c.toNat = n at low high same
  subst same
  have all : ∀ n ≤ 57, 48 ≤ n
      → Char.ofNat n ∈ ['0', '1', '2', '3', '4', '5', '6', '7', '8', '9'] := by
    decide
  exact all n high low

theorem plainDigit {c : Char} (h : isAsciiDigit c) : PlainDigit c := by
  have all : ∀ c ∈ ['0', '1', '2', '3', '4', '5', '6', '7', '8', '9'],
      isDigit c ∧ asciiForm c = c ∧ isSpacing c = false ∧ isBlank c = false
        ∧ isDigitOrBar c ∧ c ≠ 'Σ'
        ∧ lowerChar c = [c] ∧ c.toLower = c ∧ c ∉ ['_', '-', '+', '/', 'l', 'i', 'n', '.', 'e'] :=
    forall_mem_of_all (by decide +kernel)
  obtain ⟨digit, form, spacing, blank, part, sigma, lower, toLower, other⟩ := all c (mem_digits h)
  exact ⟨digit, form, spacing, blank, part, sigma, lower, toLower, other⟩

structure Digits where
  chars : List Char
  nonempty : chars ≠ []
  plain : ∀ c ∈ chars, isAsciiDigit c

namespace Digits

variable (d : Digits)

def value : Nat := digitsValue d.chars

theorem head : ∃ c cs, d.chars = c :: cs ∧ isAsciiDigit c := by
  obtain ⟨c, cs, same⟩ := List.exists_cons_of_ne_nil d.nonempty
  exact ⟨c, cs, same, d.plain c (same ▸ List.mem_cons_self)⟩

end Digits

section Trimming

variable {p : Char → Bool} {cs : List Char}

theorem trim_eq_self (h : ∀ c ∈ cs, p c = false) :
    ((cs.dropWhile p).reverse.dropWhile p).reverse = cs := by
  have front {ds : List Char} (h : ∀ c ∈ ds, p c = false) : ds.dropWhile p = ds := by
    cases ds with
    | nil => rfl
    | cons d ds => exact List.dropWhile_cons_of_neg (by simp [h d])
  rw [front h, front fun c hc => h c (List.mem_reverse.mp hc), List.reverse_reverse]

theorem dropFinalL_eq_self (h : 'l' ∉ cs) : dropFinalL cs = cs := by
  have back : cs.reverse.dropWhile (· == 'l') = cs.reverse := by
    cases reversed : cs.reverse with
    | nil => rfl
    | cons c ds =>
      have member : c ∈ cs := List.mem_reverse.mp (reversed ▸ List.mem_cons_self)
      have other : c ≠ 'l' := fun same => h (same ▸ member)
      exact List.dropWhile_cons_of_neg (by simpa using other)
  rw [dropFinalL, back, List.reverse_reverse]

theorem plainForm_eq_map (h : ∀ c ∈ cs, isSpacing (asciiForm c) = false) :
    plainForm cs = cs.map asciiForm := by
  apply trim_eq_self
  intro d member
  obtain ⟨c, inside, rfl⟩ := List.mem_map.mp member
  exact h c inside

theorem isGrouped_of_noBar (noBar : '_' ∉ cs) : isGrouped cs = true := by
  have grouped (before : Char) (first : before ≠ '_') : groupedFrom before cs = true := by
    induction cs generalizing before with
    | nil => simpa [groupedFrom] using first
    | cons c cs ih =>
      obtain ⟨other, rest⟩ := List.ne_and_not_mem_of_not_mem_cons noBar
      simp [groupedFrom, other.symm, first, ih rest c other.symm]
  exact grouped ' ' (by decide)

theorem lowerAfter_eq_self (h : ∀ c ∈ cs, c ≠ 'Σ' ∧ lowerChar c = [c]) (before : List Char) :
    lowerAfter before cs = cs := by
  induction cs generalizing before with
  | nil => rfl
  | cons c cs ih =>
    obtain ⟨⟨sigma, same⟩, others⟩ := List.forall_mem_cons.mp h
    simp [lowerAfter, sigma, same, ih others]

end Trimming

namespace Digits

variable (d : Digits)

theorem plainForm_eq : plainForm d.chars = d.chars := by
  have forms : d.chars.map asciiForm = d.chars :=
    (List.map_congr_left fun c hc => (plainDigit (d.plain c hc)).form).trans (List.map_id _)
  have visible : ∀ c ∈ d.chars, isSpacing (asciiForm c) = false := fun c hc =>
    (plainDigit (d.plain c hc)).form.symm ▸ (plainDigit (d.plain c hc)).noSpacing
  rw [plainForm_eq_map visible, forms]

theorem isGrouped_eq : isGrouped d.chars = true := by
  apply isGrouped_of_noBar
  intro bar
  exact (plainDigit (d.plain _ bar)).other (by simp)

theorem takeSign_eq : takeSign d.chars = (false, d.chars) := by
  obtain ⟨c, cs, same, digit⟩ := d.head
  have minus : c ≠ '-' := fun equal => (plainDigit digit).other (by simp [equal])
  have plus : c ≠ '+' := fun equal => (plainDigit digit).other (by simp [equal])
  rw [same, takeSign]
  · exact fun _ equal => minus (List.cons.inj equal).1
  · exact fun _ equal => plus (List.cons.inj equal).1

theorem ne_word {w : List Char} (h : w.any (· ∈ ['i', 'n'])) : d.chars ≠ w := by
  obtain ⟨c, member, listed⟩ := List.any_eq_true.mp h
  have listed := of_decide_eq_true listed
  rintro same
  refine (plainDigit (d.plain c (same ▸ member))).other ?_
  simp only [List.mem_cons, List.not_mem_nil, or_false] at listed
  rcases listed with rfl | rfl <;> simp

theorem readDecimal?_eq : readDecimal? false d.chars = some ⟨false, d.chars, [], [], false⟩ := by
  have part : ∀ c ∈ d.chars, isDigitOrBar c = true := fun c hc => (plainDigit (d.plain c hc)).isPart
  have whole : d.chars.takeWhile isDigitOrBar = d.chars := List.takeWhile_eq_self_iff.mpr part
  have rest : d.chars.dropWhile isDigitOrBar = [] := List.dropWhile_eq_nil_iff.mpr part
  have nonempty : d.chars.isEmpty = false := List.isEmpty_eq_false_iff.mpr d.nonempty
  simp [readDecimal?, whole, rest, nonempty, readExponent?]

theorem read?_eq : Numeral.read? d.chars = some (.decimal ⟨false, d.chars, [], [], false⟩) := by
  have lower : d.chars.map Char.toLower = d.chars :=
    (List.map_congr_left fun c hc => (plainDigit (d.plain c hc)).toLower).trans (List.map_id _)
  have noWord {s : String} (h : s.toList.any (· ∈ ['i', 'n'])) : String.ofList d.chars ≠ s :=
    fun same => d.ne_word h (by simp [← same])
  simp only [Numeral.read?, d.plainForm_eq, d.isGrouped_eq, d.takeSign_eq, lower, Bool.not_true,
    Bool.false_eq_true, if_false, noWord (s := "inf") (by decide),
    noWord (s := "infinity") (by decide), noWord (s := "nan") (by decide), or_self,
    d.readDecimal?_eq, Option.map_some]

theorem ofNumeral_float (p : Nat) :
    Value.ofNumeral .float p (String.ofList d.chars) =
      .ok (.float (.ofScaled false d.value 0)) := by
  have value : Binary64.read? d.chars = some (.ofScaled false d.value 0) := by
    simp [Binary64.read?, d.read?_eq, NumeralText.scaled, value, digitsValue]
  simp only [Value.ofNumeral, Value.convert, Value.toFloat?, String.toList_ofList, value]
  rfl

theorem lower_eq : Text.lower (String.ofList d.chars) = String.ofList d.chars := by
  have kept : ∀ c ∈ d.chars, c ≠ 'Σ' ∧ lowerChar c = [c] := fun c hc =>
    ⟨(plainDigit (d.plain c hc)).noSigma, (plainDigit (d.plain c hc)).lower⟩
  rw [Text.lower, String.toList_ofList, lowerAfter_eq_self kept]

theorem ofNumeral_precise (p : Nat) :
    Value.ofNumeral .precise p (String.ofList d.chars) =
      if d.chars.length ≤ maxIntegerDigits then .ok (.precise (.ofScaled p d.value 0))
      else .error .malformedValue := by
  have strip : Text.strip d.chars = d.chars :=
    trim_eq_self fun c hc => (plainDigit (d.plain c hc)).noBlank
  have noSlash : d.chars.contains '/' = false := by
    rw [List.contains_eq_mem]
    exact decide_eq_false fun member => (plainDigit (d.plain _ member)).other (by simp)
  have noL : dropFinalL d.chars = d.chars :=
    dropFinalL_eq_self fun member => (plainDigit (d.plain _ member)).other (by simp)
  have noWord {w : List Char} (h : w.any (· ∈ ['i', 'n'])) : d.chars ≠ w := d.ne_word h
  -- Nothing is stripped from the digits, and they are neither a fraction nor a word.
  have denoted : Precise.read p (String.ofList d.chars)
      = Precise.ofNumeralText p ⟨false, d.chars, [], [], false⟩ (finalZeros d.chars) := by
    simp only [Precise.read, d.lower_eq, String.toList_ofList, strip, noSlash, noL, d.read?_eq,
      noWord (w := "inf".toList) (by decide), noWord (w := "+inf".toList) (by decide),
      noWord (w := "-inf".toList) (by decide), noWord (w := "nan".toList) (by decide), or_self,
      Bool.false_eq_true, if_false]
  have count : d.chars.filter isAsciiDigit = d.chars := List.filter_eq_self.mpr d.plain
  have nonempty : d.chars.isEmpty = false := List.isEmpty_eq_false_iff.mpr d.nonempty
  simp only [Value.ofNumeral, Value.convert, Value.toPrecise?, Value.readPrecise, denoted,
    Precise.ofNumeralText, List.take_nil, List.append_nil, count, nonempty]
  by_cases short : d.chars.length ≤ maxIntegerDigits
  · simp [short, Nat.not_lt.mpr short, digitsValue, value]
  · simp [short, Nat.not_le.mp short]

end Digits

end Formula
