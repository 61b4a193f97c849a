import Mathlib.Data.Sign.Basic
import Formula.Proofs.Number.Remainders
import Formula.Proofs.Value.Opposite

/-! Remainders of precise values. For numbers that fit the precision the remainder is exact: it is
what the dividend has beyond a multiple of the divisor, where the factor is the quotient without its
digits behind the point. -/
namespace Formula

open Number

namespace Number

/-- The truncated remainder has the sign of the dividend, and the size of the remainder of the
sizes. -/
theorem sub_mul_integerPart (a b : ℚ) :
    a - b * integerPart (a / b) =
      if a < 0 then -(|a| - |b| * ⌊|a| / |b|⌋) else |a| - |b| * ⌊|a| / |b|⌋ := by
  have whole : integerPart (|a| / |b|) = ⌊|a| / |b|⌋ := integerPart_of_nonneg (by positivity)
  rw [← whole]
  rcases lt_or_ge a 0 with negative | least
  · rw [if_pos negative, abs_of_neg negative]
    rcases lt_or_ge b 0 with negative' | least'
    · rw [abs_of_neg negative', neg_div_neg_eq]
      ring
    · rw [abs_of_nonneg least', neg_div, integerPart_neg]
      push_cast
      ring
  · rw [if_neg (not_lt.mpr least), abs_of_nonneg least]
    rcases lt_or_ge b 0 with negative' | least'
    · rw [abs_of_neg negative', div_neg, integerPart_neg]
      push_cast
      ring
    · rw [abs_of_nonneg least']

/-- The truncated remainder is zero or has the sign of the dividend, and it is smaller than the
divisor. -/
theorem sign_remainder {a b r : ℚ} (nonzero : b ≠ 0) (exactly : r = a - b * integerPart (a / b)) :
    (r = 0 ∨ SignType.sign r = SignType.sign a) ∧ |r| < |b| := by
  have size := exactly.trans (sub_mul_integerPart a b)
  have positive : 0 < |b| := abs_pos.mpr nonzero
  have scaled : |a| = |b| * (|a| / |b|) := by field_simp
  have low := mul_le_mul_of_nonneg_left (Int.floor_le (|a| / |b|)) positive.le
  have high := mul_lt_mul_of_pos_left (Int.lt_floor_add_one (|a| / |b|)) positive
  -- The remainder of the sizes lies between zero and the divisor.
  rcases lt_trichotomy a 0 with negative | rfl | more
  · rw [if_pos negative] at size
    have least : r ≤ 0 := by linarith
    constructor
    · rcases least.eq_or_lt with zero | less
      · exact .inl zero
      · exact .inr (by rw [sign_neg less, sign_neg negative])
    · rw [abs_of_nonpos least]
      linarith
  · have zero : r = 0 := by simpa [integerPart] using exactly
    exact ⟨.inl zero, by rwa [zero, abs_zero]⟩
  · rw [if_neg (not_lt.mpr more.le)] at size
    have least : 0 ≤ r := by linarith
    constructor
    · rcases least.eq_or_lt with zero | less
      · exact .inl zero.symm
      · exact .inr (by rw [sign_pos less, sign_pos more])
    · rw [abs_of_nonneg least]
      linarith

end Number

namespace Value

variable {p : Nat} {a b : Dyadic}

theorem width_pos (nonzero : a ≠ 0) : 0 < width a := by
  cases a with
  | zero => contradiction
  | ofOdd n k odd => exact Nat.succ_pos _

theorem neg_finite (fits : width a ≤ p) : (Precise.finite a).neg p = .finite (-a) := by
  rw [Precise.neg_eq, Precise.round, roundTo_of_width fits, Precise.opposite]

theorem abs_finite (fits : width a ≤ p) : (Precise.finite a).abs p = .finite (magnitude a) := by
  rw [Precise.abs, roundTo_of_width ((width_magnitude a).trans_le fits)]

theorem le_finite (a : Dyadic) : (Precise.ofInt 0).le (.finite a) = !isNegative a := by
  by_cases zero : a = 0
  · subst zero
    rfl
  · have other : Precise.eq (.ofInt 0) (.finite a) = false := decide_eq_false (Ne.symm zero)
    have less : Precise.lt (.ofInt 0) (.finite a) = !isNegative a := zero_less zero
    rw [Precise.le, less, other, Bool.or_false]

theorem modulo_finite (nonzero : b ≠ 0) :
    Value.modulo p (.precise (.finite a)) (.precise (.finite b)) =
      .ok (.precise (signedRemainder p (.finite a) ((Precise.finite b).abs p))) := by
  have divisor : (Value.precise (.finite b)).isZero p = false := by
    simp [isZero, parts?, real?, Precise.isZero, nonzero]
  have sign : (Value.integer 0).atMost p (.precise (.finite a)) =
      .ok ((Precise.ofInt 0).le (.finite a)) := rfl
  simp only [modulo, isPrecise, Bool.or_self, if_true, divisor, Bool.false_eq_true,
    if_false, Value.abs, preciseOperand?, real?, sign, signedRemainder, bind, Except.bind]
  split <;> rfl

theorem signedRemainder_exact (fits : width a ≤ p) (fits' : width b ≤ p) (nonzero : b ≠ 0) :
    ∃ r, signedRemainder p (.finite a) ((Precise.finite b).abs p) = .finite r ∧ roundTo p r = r ∧
      r.toRat = a.toRat - b.toRat * integerPart (a.toRat / b.toRat) := by
  have digits : 0 < p := (width_pos nonzero).trans_le fits'
  have size := (width_magnitude a).trans_le fits
  have size' := (width_magnitude b).trans_le fits'
  have least : 0 ≤ (magnitude a).toRat := by
    rw [toRat_magnitude]
    exact abs_nonneg _
  have pos : 0 < (magnitude b).toRat := by
    rw [toRat_magnitude, abs_pos]
    exact mt Dyadic.toRat_eq_zero_iff.mp nonzero
  obtain ⟨r, remainder, exactly⟩ := Precise.floorMod_exact least pos size size'
  have kept : roundTo p r = r := by
    have rounded : (Precise.finite (magnitude a)).round p = .finite (magnitude a) :=
      congrArg Precise.finite (roundTo_of_width size)
    have once := Precise.floorMod_round digits rounded (.finite (magnitude b))
    rw [remainder] at once
    exact Precise.finite.inj once
  rw [signedRemainder, abs_finite fits, abs_finite fits', remainder, le_finite, sub_mul_integerPart]
  rw [toRat_magnitude, toRat_magnitude] at exactly
  -- The size is exact, and its sign is that of the dividend.
  cases negative : isNegative a with
  | true =>
    refine ⟨-r, congrArg Precise.finite ((roundTo_neg p r).trans (congrArg _ kept)), ?_, ?_⟩
    · rw [roundTo_neg, kept]
    · rw [if_pos ((isNegative_iff a).mp negative), Dyadic.toRat_neg, exactly]
  | false =>
    have least : ¬ a.toRat < 0 := by
      rw [← isNegative_iff, negative]
      decide
    exact ⟨r, rfl, kept, by rw [if_neg least, exactly]⟩

/-- The remainder of finite numbers that fit the precision is the exact truncated one: the dividend
less the divisor times the quotient without its digits behind the point. It is zero or has the sign
of the dividend, and it is smaller than the divisor. With the sign of the dividend it changes its
own, and the sign of the divisor does not matter. -/
theorem modulo_truncated (fits : width a ≤ p) (fits' : width b ≤ p) (nonzero : b ≠ 0) :
    ∃ r : Dyadic, Value.modulo p (.precise (.finite a)) (.precise (.finite b)) =
      .ok (.precise (.finite r)) ∧
      r.toRat = a.toRat - b.toRat * integerPart (a.toRat / b.toRat) ∧
      (r.toRat = 0 ∨ SignType.sign r.toRat = SignType.sign a.toRat) ∧ |r.toRat| < |b.toRat| ∧
      Value.modulo p (.precise ((Precise.finite a).neg p)) (.precise (.finite b)) =
        .ok (.precise ((Precise.finite r).neg p)) ∧
      (Precise.finite r).neg p = .finite (-r) ∧
      Value.modulo p (.precise (.finite a))
        (.precise ((Precise.finite b).neg p)) = .ok (.precise (.finite r)) := by
  obtain ⟨r, remainder, kept, exactly⟩ := signedRemainder_exact fits fits' nonzero
  have digits : 0 < p := (width_pos nonzero).trans_le fits'
  obtain ⟨sign, smaller⟩ := sign_remainder (mt Dyadic.toRat_eq_zero_iff.mp nonzero) exactly
  have turned : (Precise.finite r).neg p = .finite (-r) := by
    rw [Precise.neg_eq, Precise.round, kept, Precise.opposite]
  refine ⟨r, ?_, exactly, sign, smaller, ?_, turned, ?_⟩
  · rw [modulo_finite nonzero, remainder]
  · have opposite := signedRemainder_opposite digits (.finite a) ((Precise.finite b).abs p)
    rw [remainder] at opposite
    rw [neg_finite fits, modulo_finite nonzero, turned]
    exact congrArg (fun x => Except.ok (Value.precise x)) opposite
  · have same : (Precise.finite (-b)).abs p = (Precise.finite b).abs p :=
      Precise.abs_opposite (.finite b)
    rw [neg_finite fits', modulo_finite (neg_ne_zero nonzero), same, remainder]

/-- Numbers of very different size, which share no digits: five times a great power of two, below
zero, by a small fraction. -/
theorem modulo_truncated_far :
    width (.ofIntWithPrec (-5) (-100)) ≤ 53 ∧ width (.ofIntWithPrec 7 60) ≤ 53 ∧ ∃ r : Dyadic,
      Value.modulo 53 (.precise (.finite (.ofIntWithPrec (-5) (-100))))
        (.precise (.finite (.ofIntWithPrec 7 60))) =
        .ok (.precise (.finite r)) ∧ r = .ofIntWithPrec (-3) 60 ∧
      r.toRat =
        (Dyadic.ofIntWithPrec (-5) (-100)).toRat -
          (Dyadic.ofIntWithPrec 7 60).toRat *
            integerPart
              ((Dyadic.ofIntWithPrec (-5) (-100)).toRat / (Dyadic.ofIntWithPrec 7 60).toRat) := by
  have fits : width (.ofIntWithPrec (-5) (-100)) ≤ 53 := by decide
  have fits' : width (.ofIntWithPrec 7 60) ≤ 53 := by decide
  obtain ⟨r, remainder, exactly, -⟩ := modulo_truncated fits fits' (by decide)
  have value : Value.modulo 53 (.precise (.finite (.ofIntWithPrec (-5) (-100))))
      (.precise (.finite (.ofIntWithPrec 7 60))) =
      .ok (.precise (.finite (.ofIntWithPrec (-3) 60))) := by decide
  have same : r = .ofIntWithPrec (-3) 60 := by
    rw [value] at remainder
    cases remainder
    rfl
  exact ⟨fits, fits', r, remainder, same, exactly⟩

end Value

end Formula
