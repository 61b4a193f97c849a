import Mathlib.Computability.Language
import Mathlib.Tactic.NoncommRing
import Formula.Proofs.Lexer.Numbers

/-! The language of numbers. The lexer accepts a text as a number exactly if the text is in a
regular language. -/
namespace Formula.Lexer

open Formula.Text (isDigit)
open scoped Computability

section Languages

variable {p : Char → Prop} {l : Language Char} {c : Char} {w : List Char}

def one (p : Char → Prop) : Language Char := {w | ∃ c, p c ∧ w = [c]}

def optional (l : Language Char) : Language Char := 1 + l

theorem mem_one_mul : w ∈ one p * l ↔ ∃ c cs, w = c :: cs ∧ p c ∧ cs ∈ l := by
  rw [Language.mem_mul]
  constructor
  · rintro ⟨_, ⟨c, is, rfl⟩, cs, rest, rfl⟩
    exact ⟨c, cs, rfl, is, rest⟩
  · rintro ⟨c, cs, rfl, is, rest⟩
    exact ⟨[c], ⟨c, is, rfl⟩, cs, rest, rfl⟩

theorem cons_mem_one_mul : c :: w ∈ one p * l ↔ p c ∧ w ∈ l := by
  rw [mem_one_mul]
  constructor
  · rintro ⟨_, _, same, is, rest⟩
    obtain ⟨rfl, rfl⟩ := List.cons.inj same
    exact ⟨is, rest⟩
  · rintro ⟨is, rest⟩
    exact ⟨c, w, rfl, is, rest⟩

theorem nil_mem_one_mul : ¬ [] ∈ one p * l := by
  rintro h
  obtain ⟨c, cs, same, -⟩ := mem_one_mul.mp h
  cases same

end Languages

namespace Separators

def digit : Language Char := one fun c => isDigit c

def sign : Language Char := one fun c => c = '+' ∨ c = '-'

variable (s : Separators)

def digits : Language Char := (optional (one (· = s.grouping)) * digit)∗

def integral : Language Char := digit * s.digits

def fraction : Language Char := optional (one (· = s.grouping)) * digit * s.digits

def point : Language Char := one (· = s.decimal)

def exponentPart : Language Char := one s.IsExponent * optional sign * s.integral

/-- Numbers: an integer that may have a fraction, or a fraction alone, with a minus sign and an
exponent where these are given. -/
def numeral : Language Char :=
  optional (one (· = '-'))
    * (s.integral * optional (s.point * optional s.fraction) + s.point * s.integral)
    * optional s.exponentPart

/-- What may follow behind all digits of a number that is of the given kind so far. -/
def ending (k : TokenKind) : Language Char :=
  if k = .integer then optional s.exponentPart + s.point * (s.digits * optional s.exponentPart)
  else if k = .scientific then 1
  else optional s.exponentPart

def remainder (k : TokenKind) : Language Char := s.digits * s.ending k

variable {s} {c : Char} {cs : List Char} {k : TokenKind} {l : Language Char}

theorem digits_mul : s.digits * l =
    l + digit * (s.digits * l) + one (· = s.grouping) * (digit * (s.digits * l)) := by
  have unfolded : 1 + optional (one (· = s.grouping)) * digit * s.digits = s.digits :=
    Language.one_add_self_mul_kstar_eq_kstar _
  nth_rewrite 1 [← unfolded]
  rw [optional]
  noncomm_ring

theorem optional_fraction : optional s.fraction = s.digits :=
  Language.one_add_self_mul_kstar_eq_kstar _

theorem ending_integer :
    s.ending .integer = optional s.exponentPart + s.point * s.remainder .decimal := rfl

theorem ending_decimal : s.ending .decimal = optional s.exponentPart := rfl

theorem ending_scientific : s.ending .scientific = 1 := rfl

theorem integral_eq : s.integral = digit * s.remainder .scientific := by
  rw [integral, remainder, ending_scientific, mul_one]

theorem numeral_eq : s.numeral = optional (one (· = '-')) *
    (digit * s.remainder .integer + s.point * (digit * s.remainder .decimal)) := by
  rw [numeral, optional_fraction]
  simp only [remainder, ending_integer, ending_decimal, integral, optional]
  noncomm_ring

theorem nil_mem_optional : [] ∈ optional l := .inl rfl

theorem cons_mem_optional : c :: cs ∈ optional l ↔ c :: cs ∈ l := by
  rw [optional, Language.mem_add, Language.mem_one]
  exact or_iff_right (List.cons_ne_nil c cs)

theorem cons_mem_exponentPart :
    c :: cs ∈ s.exponentPart ↔ s.IsExponent c ∧
    cs ∈ optional sign * (digit * s.remainder .scientific) := by
  rw [exponentPart, mul_assoc, cons_mem_one_mul, integral_eq]

theorem nil_mem_ending : [] ∈ s.ending k := by
  rw [ending]
  split_ifs
  · exact .inl nil_mem_optional
  · rfl
  · exact nil_mem_optional

theorem cons_mem_ending : c :: cs ∈ s.ending k ↔
    k = .integer ∧ c = s.decimal ∧ cs ∈ s.remainder .decimal ∨
      k ≠ .scientific ∧ s.IsExponent c ∧
      cs ∈ optional sign * (digit * s.remainder .scientific) := by
  by_cases whole : k = .integer
  · subst whole
    rw [ending_integer, Language.mem_add, cons_mem_optional, cons_mem_exponentPart, point,
      cons_mem_one_mul, or_comm]
    simp
  by_cases signed : k = .scientific
  · subst signed
    rw [ending_scientific, Language.mem_one]
    simp
  · rw [ending, if_neg whole, if_neg signed, cons_mem_optional, cons_mem_exponentPart]
    simp [whole, signed]

theorem nil_mem_remainder : [] ∈ s.remainder k := by
  rw [remainder, digits_mul]
  exact .inl (.inl nil_mem_ending)

theorem cons_mem_remainder : c :: cs ∈ s.remainder k ↔
    c :: cs ∈ s.ending k ∨ isDigit c ∧ cs ∈ s.remainder k ∨
    c = s.grouping ∧ cs ∈ digit * s.remainder k := by
  have unfolded : s.remainder k =
      s.ending k + digit * s.remainder k + one (· = s.grouping) * (digit * s.remainder k) :=
        digits_mul
  nth_rewrite 1 [unfolded]
  rw [Language.mem_add, Language.mem_add, digit, cons_mem_one_mul, cons_mem_one_mul, or_assoc]

theorem mem_digit_mul (shorter : ∀ ds, ds.length < cs.length →
    (s.goesOn k ds ↔ ds ∈ s.remainder k)) :
    cs ∈ digit * s.remainder k ↔ isDigit (cs.getD 0 endMark) ∧ s.goesOn k cs := by
  cases cs with
  | nil => exact iff_of_false nil_mem_one_mul fun ended =>
    Bool.false_ne_true (isDigit_endMark.symm.trans ended.1)
  | cons d ds =>
    rw [digit, cons_mem_one_mul, List.getD_cons_zero]
    refine and_congr_right fun is => ?_
    rw [goesOn_digit is]
    exact (shorter ds (Nat.lt_succ_self _)).symm

theorem mem_optional_mul {m : Language Char} : cs ∈ optional m * l ↔ cs ∈ l ∨ cs ∈ m * l := by
  rw [optional, add_mul, one_mul, Language.mem_add]

theorem goesOn_exponent_iff (is : s.IsExponent c)
    (shorter : ∀ ds, ds.length < cs.length →
      (s.goesOn .scientific ds ↔ ds ∈ s.remainder .scientific)) :
    s.goesOn k (c :: cs) ↔ k ≠ .scientific ∧
    cs ∈ optional sign * (digit * s.remainder .scientific) := by
  rw [mem_optional_mul, mem_digit_mul shorter]
  cases cs with
  | nil => simp [goesOn_last is, nil_mem_one_mul, sign, isDigit_endMark]
  | cons d ds =>
    have shorter' ds' (less : ds'.length < ds.length) := shorter ds' (Nat.lt_succ_of_lt less)
    rw [sign, cons_mem_one_mul, mem_digit_mul shorter']
    by_cases sign : d = '+' ∨ d = '-'
    · have noDigit : isDigit d = false := by rcases sign with rfl | rfl <;> decide
      rw [goesOn_signed is sign]
      simp [noDigit, sign]
    · rw [goesOn_exponent is sign]
      cases digit : isDigit d <;> simp [sign, digit, goesOn_digit]

theorem goesOn_iff : s.goesOn k cs ↔ cs ∈ s.remainder k := by
  -- on the length, since an exponent takes the sign behind it at once
  induction n : cs.length using Nat.strong_induction_on generalizing k cs with
  | h n ih =>
    subst n
    cases cs with
    | nil => exact iff_of_true rfl nil_mem_remainder
    | cons c cs =>
      have here {k} : s.goesOn k cs ↔ cs ∈ s.remainder k := ih _ (Nat.lt_succ_self _) rfl
      have shorter {k} (ds : List Char) (less : ds.length < cs.length) :
          s.goesOn k ds ↔ ds ∈ s.remainder k :=
        ih _ (Nat.lt_succ_of_lt less) rfl
      rw [cons_mem_remainder, cons_mem_ending]
      by_cases digit : isDigit c
      · have plain : s.IsPlain c := isPlain_of_isDigit digit
        rw [goesOn_digit digit, here]
        simp [digit, plain.noDecimal, plain.noGrouping, plain.noExponent]
      by_cases grouping : c = s.grouping
      · subst grouping
        have noExponent : ¬ s.IsExponent s.grouping := fun is => is.ne.1 rfl
        rw [goesOn_grouping, Bool.and_eq_true, ← mem_digit_mul shorter]
        simp [noDigit_grouping, grouping_ne_decimal, noExponent]
      by_cases decimal : c = s.decimal
      · subst decimal
        have noExponent : ¬ s.IsExponent s.decimal := fun is => is.ne.2 rfl
        rw [goesOn_decimal, Bool.and_eq_true, decide_eq_true_eq, here]
        simp [noDigit_decimal, grouping_ne_decimal.symm, noExponent]
      by_cases exponent : s.IsExponent c
      · rw [goesOn_exponent_iff exponent shorter]
        simp [digit, grouping, decimal, exponent]
      · rw [goesOn_plain (Bool.eq_false_iff.mpr digit) ⟨grouping, decimal, exponent⟩]
        simp [digit, grouping, decimal, exponent]

theorem mem_magnitude :
    cs ∈ digit * s.remainder .integer + s.point * (digit * s.remainder .decimal) ↔
    (isDigit (cs.getD 0 endMark) || decide (cs.getD 0 endMark = s.decimal) &&
      isDigit (cs.getD 1 endMark))
      ∧ s.goesOn .integer cs := by
  have shorter {k} (ds : List Char) : s.goesOn k ds ↔ ds ∈ s.remainder k := goesOn_iff
  rw [Language.mem_add, mem_digit_mul fun ds _ => shorter ds, point]
  cases cs with
  | nil => simp [nil_mem_one_mul, isPlain_endMark.noDecimal]
  | cons c cs =>
    rw [cons_mem_one_mul, mem_digit_mul fun ds _ => shorter ds]
    by_cases decimal : c = s.decimal
    · subst decimal
      rw [goesOn_decimal]
      simp [noDigit_decimal]
    · simp [decimal]

/-- A text is accepted as a number exactly if it is a numeral. -/
theorem accepts_iff : s.accepts cs ↔ cs ∈ s.numeral := by
  rw [numeral_eq, mem_optional_mul, mem_magnitude, accepts, Bool.and_eq_true]
  cases cs with
  | nil => simp [nil_mem_one_mul, Settings.startsNumber, isDigit_endMark]
  | cons c cs =>
    rw [cons_mem_one_mul, mem_magnitude, startsNumber_eq, List.getD_cons_zero, List.getD_cons_succ]
    by_cases minus : c = '-'
    · subst minus
      have noDecimal := (isPlain_of_sign (s := s) (.inr rfl : '-' = '+' ∨ '-' = '-')).noDecimal
      have noDigit : isDigit '-' = false := by decide
      simp [noDecimal, noDigit, unsigned]
    · rw [unsigned_of_ne minus]
      simp [minus]

instance : DecidablePred (· ∈ s.numeral) := fun _ => decidable_of_iff _ accepts_iff

example : "-1_234.5e-6".toList ∈ standard.numeral := by decide +kernel

end Separators

end Formula.Lexer
