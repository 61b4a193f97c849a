import Mathlib.Algebra.Order.Field.Power
import Mathlib.Data.Rat.Floor
import Mathlib.Tactic.Linarith
import Mathlib.Tactic.Positivity
import Formula.Proofs.Number.Rounding

/-! Remainders of dyadic numbers. The remainder of a division rounded down, of numbers that are not
negative, has no more binary digits than one of the two numbers, so that it is exact where these fit
the precision. -/
namespace Formula.Number

/-- What is left of a fraction without its digits behind the point. -/
def integerPart (q : ℚ) : ℤ := if 0 ≤ q then ⌊q⌋ else ⌈q⌉

theorem integerPart_of_nonneg {q : ℚ} (h : 0 ≤ q) : integerPart q = ⌊q⌋ := if_pos h

theorem integerPart_neg (q : ℚ) : integerPart (-q) = -integerPart q := by
  unfold integerPart
  rcases lt_trichotomy q 0 with less | rfl | more
  · rw [if_pos (by linarith), if_neg (by linarith), Int.floor_neg]
  · simp
  · rw [if_neg (by linarith), if_pos (by linarith), Int.ceil_neg]

section Dyadic

variable {p : Nat} {x y : Dyadic} {n k w : Int} {odd : n % 2 = 1}

theorem toRat_ofOdd_grid (fine : k ≤ w) :
    (Dyadic.ofOdd n k odd).toRat = ((n * twoTo (w - k).toNat : Int) : ℚ) * 2 ^ (-w) := by
  have power : ((twoTo (w - k).toNat : Nat) : ℚ) = 2 ^ (w - k) := by
    rw [twoTo, Nat.pow_eq, Nat.cast_pow, Nat.cast_ofNat, ← zpow_natCast,
      Int.toNat_of_nonneg (by omega)]
  rw [Dyadic.toRat_ofOdd_eq_mul_two_pow]
  push_cast
  rw [power, mul_assoc, ← zpow_add₀ (by norm_num)]
  congr 2
  omega

theorem toRat_ofOdd_pos : 0 < (Dyadic.ofOdd n k odd).toRat ↔ 0 < n := by
  rw [Dyadic.toRat_ofOdd_eq_mul_two_pow, mul_pos_iff_of_pos_right (by positivity), Int.cast_pos]

theorem toRat_ofOdd_neg : (Dyadic.ofOdd n k odd).toRat < 0 ↔ n < 0 := by
  rw [Dyadic.toRat_ofOdd_eq_mul_two_pow, ← not_le,
    mul_nonneg_iff_of_pos_right (by positivity), not_le,
    Int.cast_lt_zero]

theorem isNegative_iff (x : Dyadic) : isNegative x = true ↔ x.toRat < 0 := by
  cases x with
  | zero => simp [isNegative, Dyadic.toRat]
  | ofOdd n k odd => rw [toRat_ofOdd_neg]; simp [isNegative]

theorem toRat_magnitude (x : Dyadic) : (magnitude x).toRat = |x.toRat| := by
  unfold magnitude
  cases negative : isNegative x with
  | true => rw [if_pos rfl, Dyadic.toRat_neg, abs_of_neg ((isNegative_iff x).mp negative)]
  | false =>
    have least : ¬ x.toRat < 0 := by rw [← isNegative_iff, negative]; decide
    rw [if_neg (by decide), abs_of_nonneg (not_lt.mp least)]

@[simp] theorem width_neg (x : Dyadic) : width (-x) = width x := by
  cases x with
  | zero => rfl
  | ofOdd n k odd => simp [Dyadic.neg_ofOdd, width]

@[simp] theorem width_magnitude (x : Dyadic) : width (magnitude x) = width x := by
  unfold magnitude
  split <;> simp

theorem roundTo_of_width (fits : width x ≤ p) : roundTo p x = x := by
  cases x with
  | zero => rfl
  | ofOdd n k odd =>
    have nonzero : n.natAbs ≠ 0 := by omega
    exact roundTo_eq_self ((Nat.log2_lt nonzero).mp fits)

theorem toRat_lt_leading (x : Dyadic) : x.toRat < 2 ^ (leading x + 1) := by
  cases x with
  | zero => simp [Dyadic.toRat, leading]
  | ofOdd n k odd =>
    have size : n < (2 ^ (n.natAbs.log2 + 1) : Nat) := by
      have nonzero : n.natAbs ≠ 0 := by omega
      have := (Nat.log2_lt nonzero).mp (Nat.lt_succ_self n.natAbs.log2)
      omega
    have size : (n : ℚ) < 2 ^ (n.natAbs.log2 + 1) := by exact_mod_cast size
    have split : (2 : ℚ) ^ (leading (.ofOdd n k odd) + 1) = 2 ^ (n.natAbs.log2 + 1) * 2 ^ (-k) := by
      rw [← zpow_natCast, ← zpow_add₀ (by norm_num)]
      congr 1
      simp only [leading]
      push_cast
      omega
    rw [Dyadic.toRat_ofOdd_eq_mul_two_pow, split]
    exact mul_lt_mul_of_pos_right size (by positivity)

theorem trailing_le_toRat (pos : 0 < x.toRat) : 2 ^ trailing x ≤ x.toRat := by
  cases x with
  | zero => exact absurd rfl pos.ne
  | ofOdd n k odd =>
    have one : (1 : ℚ) ≤ n := by exact_mod_cast toRat_ofOdd_pos.mp pos
    rw [Dyadic.toRat_ofOdd_eq_mul_two_pow]
    exact le_mul_of_one_le_left (by positivity) one

theorem remainder_grid {m l : Int} {odd' : m % 2 = 1} (pos : 0 < m) :
    (Dyadic.ofOdd n k odd).toRat -
        (Dyadic.ofOdd m l odd').toRat *
          ⌊(Dyadic.ofOdd n k odd).toRat / (Dyadic.ofOdd m l odd').toRat⌋ =
      ((n * twoTo (max k l - k).toNat % (m * twoTo (max k l - l).toNat) : Int) : ℚ) *
        2 ^ (-max k l) := by
  rw [toRat_ofOdd_grid (le_max_left k l), toRat_ofOdd_grid (le_max_right k l)]
  obtain ⟨d, divisor⟩ : ∃ d : Nat, m * twoTo (max k l - l).toNat = d :=
    Int.eq_ofNat_of_zero_le (Int.mul_nonneg pos.le (by omega))
  rw [divisor]
  generalize n * (twoTo (max k l - k).toNat : Int) = dividend
  have whole : (dividend : ℚ) = d * (dividend / d : Int) + (dividend % d : Int) := by
    exact_mod_cast (Int.mul_ediv_add_emod dividend d).symm
  have power : (2 : ℚ) ^ (-max k l) ≠ 0 := by positivity
  rw [Int.cast_natCast, mul_div_mul_right _ _ power, Rat.floor_intCast_div_natCast]
  conv => lhs; arg 1; arg 1; rw [whole]
  ring

theorem floor_of_lt (least : 0 ≤ x.toRat) (less : x.toRat < y.toRat) : ⌊x.toRat / y.toRat⌋ = 0 := by
  have positive : 0 < y.toRat := lt_of_le_of_lt least less
  rw [Int.floor_eq_zero_iff, Set.mem_Ico]
  exact ⟨div_nonneg least positive.le, (div_lt_one positive).mpr less⟩

/-- What is left of a number is not greater than it, and less than the divisor. One of them is an
integer of the finer grid. -/
theorem emod_le_of_width {m l : Int} {odd' : m % 2 = 1} (least : 0 ≤ n) (pos : 0 < m)
    (fits : width (.ofOdd n k odd) ≤ p) (fits' : width (.ofOdd m l odd') ≤ p) :
    (n * twoTo (max k l - k).toNat % (m * twoTo (max k l - l).toNat)).natAbs ≤ twoTo p := by
  have first : n.natAbs < twoTo p := (Nat.log2_lt (by omega)).mp fits
  have second : m.natAbs < twoTo p := (Nat.log2_lt (by omega)).mp fits'
  have one : twoTo 0 = 1 := rfl
  have scaled (a : Int) (t : Nat) (h : 0 ≤ a) : 0 ≤ a * (twoTo t : Int) :=
    Int.mul_nonneg h (by omega)
  rcases Int.le_total k l with finer | finer
  · rw [max_eq_right finer, sub_self, Int.toNat_zero, one, Int.natCast_one, Int.mul_one]
    have low := Int.emod_nonneg (n * twoTo (l - k).toNat) (Int.ne_of_gt pos)
    have high := Int.emod_lt_of_pos (n * twoTo (l - k).toNat) pos
    omega
  · rw [max_eq_left finer, sub_self, Int.toNat_zero, one, Int.natCast_one, Int.mul_one]
    have divisor : 0 < m * (twoTo (k - l).toNat : Int) :=
      Int.mul_pos pos (by exact_mod_cast twoTo_pos _)
    have low := Int.emod_nonneg n (Int.ne_of_gt divisor)
    have whole := Int.mul_ediv_add_emod n (m * (twoTo (k - l).toNat : Int))
    have quotient := Int.mul_nonneg divisor.le (Int.ediv_nonneg least divisor.le)
    omega

end Dyadic

/-- The remainder of a division rounded down is exact for numbers that fit the precision. -/
theorem Precise.floorMod_exact {p : Nat} {x y : Dyadic} (least : 0 ≤ x.toRat) (pos : 0 < y.toRat)
    (fits : width x ≤ p) (fits' : width y ≤ p) :
    ∃ r, (finite x).floorMod p (finite y) = finite r ∧
      r.toRat = x.toRat - y.toRat * ⌊x.toRat / y.toRat⌋ := by
  cases y with
  | zero => exact absurd rfl pos.ne
  | ofOdd m l odd' =>
    cases x with
    | zero => exact ⟨0, rfl, by simp⟩
    | ofOdd n k odd =>
      have mpos : 0 < m := toRat_ofOdd_pos.mp pos
      have npos : 0 ≤ n := by
        by_contra negative
        exact absurd least (not_le.mpr (toRat_ofOdd_neg.mpr (not_le.mp negative)))
      -- A dividend below the divisor is kept, one on a coarser grid than the power of two leaves
      -- nothing, and all others are divided on one grid.
      simp only [floorMod]
      split
      · rename_i small
        have less : (Dyadic.ofOdd n k odd).toRat < (Dyadic.ofOdd m l odd').toRat := by
          refine (toRat_lt_leading _).trans_le (le_trans ?_ (trailing_le_toRat pos))
          exact zpow_le_zpow_right₀ (by norm_num) small.2.le
        exact ⟨_, rfl, by rw [floor_of_lt least less]; simp⟩
      · split
        · rename_i coarse
          obtain rfl : m = 1 := by omega
          have deeper : max k l = l := by
            simp only [leading, trailing] at coarse
            omega
          refine ⟨0, rfl, ?_⟩
          rw [remainder_grid mpos, deeper]
          simp [twoTo]
        · have bounded := emod_le_of_width npos mpos fits fits'
          have digits : 0 < p := Nat.lt_of_lt_of_le (Nat.succ_pos _) fits'
          have divisor : 0 ≤ m * (twoTo (max k l - l).toNat : Int) :=
            Int.mul_nonneg mpos.le (by omega)
          refine ⟨_, rfl, ?_⟩
          rw [Int.fmod_eq_emod_of_nonneg _ divisor, roundTo_ofIntWithPrec digits bounded,
            Dyadic.toRat_ofIntWithPrec_eq_mul_two_pow, remainder_grid mpos]

end Formula.Number
