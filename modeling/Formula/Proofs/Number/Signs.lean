import Formula.Number.Precise

/-! Signs of numbers. Rounding treats both signs alike, and so products, quotients and remainders
change only their sign when the first operand does. -/
namespace Formula.Number

section Dyadic

variable {x : Dyadic}

theorem twoTo_pos (n : Nat) : 0 < twoTo n := Nat.two_pow_pos n

@[simp] theorem dyadic_neg_neg (x : Dyadic) : - -x = x := by
  cases x with
  | zero => rfl
  | ofOdd n k odd => simp [Dyadic.neg_ofOdd]

@[simp] theorem neg_eq_zero : -x = 0 ↔ x = 0 := by
  constructor
  · intro h
    rw [← dyadic_neg_neg x, h]
    rfl
  · rintro rfl
    rfl

theorem isNegative_neg (nonzero : x ≠ 0) : isNegative (-x) = !isNegative x := by
  cases x with
  | zero => contradiction
  | ofOdd n k odd =>
    simp only [Dyadic.neg_ofOdd, isNegative]
    by_cases h : n < 0 <;> simp [h] <;> omega

theorem zero_less (nonzero : x ≠ 0) : less 0 x = !isNegative x := by
  have none : isNegative 0 = false := rfl
  unfold less
  rw [none]
  cases isNegative x <;> simp [nonzero]

@[simp] theorem leading_neg (x : Dyadic) : leading (-x) = leading x := by
  cases x with
  | zero => rfl
  | ofOdd n k odd => simp [Dyadic.neg_ofOdd, leading]

@[simp] theorem trailing_neg (x : Dyadic) : trailing (-x) = trailing x := by
  cases x <;> rfl

theorem dyadic_neg_add (x y : Dyadic) : -x + -y = -(x + y) := by
  apply Dyadic.toRat_inj.mp
  simp only [Dyadic.toRat_add, Dyadic.toRat_neg]
  exact Rat.neg_add.symm

@[simp] theorem magnitude_neg (x : Dyadic) : magnitude (-x) = magnitude x := by
  by_cases nonzero : x = 0
  · subst nonzero
    rfl
  · unfold magnitude
    rw [isNegative_neg nonzero]
    cases isNegative x <;> simp

/-- Division of the opposite: what is left over is what was missing to the next multiple. -/
theorem neg_ediv_emod (n : Int) {d : Int} (pos : 0 < d) :
    (-n) / d = (if n % d = 0 then -(n / d) else -(n / d) - 1) ∧
      (-n) % d = (if n % d = 0 then 0 else d - n % d) := by
  have whole := Int.mul_ediv_add_emod n d
  have low := Int.emod_nonneg n (Int.ne_of_gt pos)
  have high := Int.emod_lt_of_pos n pos
  apply (Int.ediv_emod_unique pos).mpr
  split
  · rw [Int.mul_neg]
    omega
  · rw [Int.mul_sub, Int.mul_neg]
    omega

theorem nearestEven_neg (n : Int) {d : Nat} (pos : 0 < d) :
    nearestEven (-n) d = -nearestEven n d := by
  have positive : (0 : Int) < d := by omega
  obtain ⟨quotient, rest⟩ := neg_ediv_emod n positive
  have low := Int.emod_nonneg n (Int.ne_of_gt positive)
  have high := Int.emod_lt_of_pos n positive
  simp only [nearestEven, quotient, rest]
  by_cases exact : n % d = 0
  · simp only [exact, if_true, Int.mul_zero, positive]
  · simp only [exact, if_false]
    rcases Int.lt_trichotomy (2 * (n % d)) d with less | half | more
    · rw [if_neg (by omega), if_pos (by omega), if_pos less]
      omega
    · have notLess : ¬ 2 * (n % d) < d ∧ ¬ 2 * (d - n % d) < d := by omega
      have notMore : ¬ d < 2 * (n % d) ∧ ¬ d < 2 * (d - n % d) := by omega
      simp only [notLess, notMore, if_false]
      split <;> split <;> omega
    · rw [if_pos (by omega), if_neg (by omega), if_pos more]
      omega

theorem roundAt_neg (q : Int) (x : Dyadic) : roundAt q (-x) = -roundAt q x := by
  cases x with
  | zero => rfl
  | ofOdd n k odd =>
    simp only [Dyadic.neg_ofOdd, roundAt]
    by_cases fine : k + q ≤ 0
    · rw [if_pos fine, if_pos fine, Dyadic.neg_ofOdd]
    · rw [if_neg fine, if_neg fine, nearestEven_neg n (twoTo_pos _), Dyadic.neg_ofIntWithPrec]

theorem roundTo_neg (p : Nat) (x : Dyadic) : roundTo p (-x) = -roundTo p x := by
  unfold roundTo
  rw [leading_neg, roundAt_neg]

theorem truncateTo_neg (p : Nat) (x : Dyadic) : truncateTo p (-x) = -truncateTo p x := by
  cases x with
  | zero => rfl
  | ofOdd n k odd =>
    have same := leading_neg (.ofOdd n k odd)
    rw [Dyadic.neg_ofOdd] at same
    simp only [Dyadic.neg_ofOdd, truncateTo, same]
    generalize leading (.ofOdd n k odd) - p + 1 = q
    by_cases fine : k + q ≤ 0
    · rw [if_pos fine, if_pos fine, Dyadic.neg_ofOdd]
    · rw [if_neg fine, if_neg fine, Int.neg_tdiv, Dyadic.neg_ofIntWithPrec]

theorem stickyQuotient_neg (p : Nat) (x y : Dyadic) :
    stickyQuotient p (-x) y = -stickyQuotient p x y := by
  cases x with
  | zero => rfl
  | ofOdd n k odd =>
    cases y with
    | zero => rfl
    | ofOdd m l odd' =>
      have nonzero : n ≠ 0 := by
        rintro rfl
        contradiction
      have turned : (-n < 0) = ¬ (n < 0) := by
        apply propext
        omega
      simp only [Dyadic.neg_ofOdd, stickyQuotient, Int.natAbs_neg, turned, Dyadic.neg_ofIntWithPrec]
      congr 1
      by_cases h : n < 0 <;> by_cases h' : m < 0 <;> simp [h, h']

theorem blur_neg (p : Nat) (x y : Dyadic) : blur p (-x) (-y) = -blur p x y := by
  simp only [blur, trailing_neg, leading_neg, neg_eq_zero]
  by_cases seen : y = 0 ∨ min (trailing x) (leading x - p) - 4 ≤ leading y
  · rw [if_pos seen, if_pos seen]
  · have nonzero : y ≠ 0 := fun zero => seen (.inl zero)
    rw [if_neg seen, if_neg seen, isNegative_neg nonzero]
    cases isNegative y <;> simp

theorem nearSum_neg (p : Nat) (x y : Dyadic) : nearSum p (-x) (-y) = -nearSum p x y := by
  simp only [nearSum, neg_eq_zero, leading_neg, blur_neg, dyadic_neg_add, roundTo_neg]
  split
  · rfl
  · split <;> rfl

theorem remainder_neg (x y : Dyadic) : Binary64.remainder (-x) y = -Binary64.remainder x y := by
  cases x with
  | zero => rfl
  | ofOdd n k odd =>
    cases y with
    | zero => rfl
    | ofOdd m l odd' =>
      simp only [Dyadic.neg_ofOdd, Binary64.remainder, Int.neg_mul, Int.neg_tmod,
        Dyadic.neg_ofIntWithPrec]

end Dyadic

namespace Binary64

variable {x y : Binary64}

theorem ofDyadic_neg {x : Dyadic} (nonzero : x ≠ 0) : ofDyadic (-x) = (ofDyadic x).neg := by
  simp only [ofDyadic, neg_eq_zero, leading_neg, roundAt_neg, isNegative_neg nonzero,
    nonzero, if_false]
  split
  · rfl
  · split
    · rfl
    · split
      · rfl
      · split <;> rfl

theorem ofIntWithPrec_ne_zero {n : Int} (nonzero : n ≠ 0) (k : Int) :
    Dyadic.ofIntWithPrec n k ≠ 0 := by
  unfold Dyadic.ofIntWithPrec
  rw [dif_neg nonzero]
  exact Dyadic.of_ne_zero

theorem mul_ne_zero {x y : Dyadic} (h : x ≠ 0) (h' : y ≠ 0) : x * y ≠ 0 := by
  cases x with
  | zero => contradiction
  | ofOdd n k odd =>
    cases y with
    | zero => contradiction
    | ofOdd m l odd' => exact Dyadic.of_ne_zero

theorem stickyQuotient_ne_zero (p : Nat) {x y : Dyadic} (h : x ≠ 0) (h' : y ≠ 0) :
    stickyQuotient p x y ≠ 0 := by
  cases x with
  | zero => contradiction
  | ofOdd n k odd =>
    cases y with
    | zero => contradiction
    | ofOdd m l odd' =>
      apply ofIntWithPrec_ne_zero
      generalize shifted : n.natAbs <<< _ = num
      have positive : num ≠ 0 := by
        rw [← shifted, Nat.shiftLeft_eq]
        exact Nat.mul_ne_zero (by omega) (Nat.pos_iff_ne_zero.mp (Nat.two_pow_pos _))
      have whole := Nat.div_add_mod num m.natAbs
      -- A quotient that is zero leaves a remainder, for which the sticky bit is set.
      have some :
          (2 * (num / m.natAbs : Nat) + (if num % m.natAbs = 0 then 0 else 1) : Int) ≠ 0 := by
        intro none
        split at none
        · rename_i exact
          have empty : num / m.natAbs = 0 := by omega
          rw [exact, empty] at whole
          exact positive whole.symm
        · omega
      split
      · omega
      · exact_mod_cast some

theorem isNegative_neg_ne {x : Dyadic} (nonzero : x ≠ 0) (m : Bool) :
    decide (isNegative (-x) ≠ m) = !decide (isNegative x ≠ m) := by
  rw [isNegative_neg nonzero]
  cases isNegative x <;> cases m <;> rfl

theorem mul_neg_left (x y : Binary64) : x.neg.mul y = (x.mul y).neg := by
  cases x with
  | nan => rfl
  | infinity n =>
    cases y <;> cases n <;> simp [neg, mul, signBit]
  | zero n =>
    cases y <;> cases n <;> simp [neg, mul, signBit]
  | finite x nonzero =>
    cases y with
    | nan => rfl
    | infinity m => exact congrArg infinity (isNegative_neg_ne nonzero m)
    | zero m => exact congrArg zero (isNegative_neg_ne nonzero m)
    | finite y nonzero' =>
      simp only [neg, mul, Dyadic.neg_mul, ofDyadic_neg (mul_ne_zero nonzero nonzero')]

theorem div_neg_left (x y : Binary64) : x.neg.div y = (x.div y).neg := by
  cases x with
  | nan => rfl
  | infinity n =>
    cases y <;> cases n <;> simp [neg, div, signBit]
  | zero n =>
    cases y <;> cases n <;> simp [neg, div, signBit]
  | finite x nonzero =>
    cases y with
    | nan => rfl
    | infinity m => exact congrArg zero (isNegative_neg_ne nonzero m)
    | zero m => exact congrArg infinity (isNegative_neg_ne nonzero m)
    | finite y nonzero' =>
      have some := stickyQuotient_ne_zero 60 nonzero nonzero'
      simp only [neg, div, stickyQuotient_neg, ofDyadic_neg some]

theorem mod_neg_left (x y : Binary64) : x.neg.mod y = (x.mod y).neg := by
  cases x with
  | nan => rfl
  | infinity n => cases y <;> rfl
  | zero n => cases y <;> rfl
  | finite x nonzero =>
    cases y with
    | nan => rfl
    | infinity m => rfl
    | zero m => rfl
    | finite y nonzero' =>
      simp only [neg, mod, remainder_neg, neg_eq_zero, isNegative_neg nonzero]
      split <;> rfl

end Binary64

namespace Precise

variable {p : Nat}

@[simp] theorem opposite_opposite (x : Precise) : x.opposite.opposite = x := by
  cases x <;> simp [opposite]

@[simp] theorem isNaN_opposite (x : Precise) : x.opposite.isNaN = x.isNaN := by
  cases x <;> rfl

@[simp] theorem isZero_opposite (x : Precise) : x.opposite.isZero = x.isZero := by
  cases x <;> simp [opposite, isZero]

theorem ofBinary64_neg (x : Binary64) : ofBinary64 x.neg = (ofBinary64 x).opposite := by
  cases x <;> rfl

theorem sub_eq_add (x y : Precise) : x.sub p y = x.add p y.opposite := by
  cases y <;> cases x <;> rfl

theorem add_opposite (x y : Precise) : x.opposite.add p y.opposite = (x.add p y).opposite := by
  cases x with
  | nan => cases y <;> rfl
  | infinity n =>
    cases y with
    | nan => rfl
    | infinity m => cases n <;> cases m <;> rfl
    | finite y => rfl
  | finite x =>
    cases y with
    | nan | infinity => rfl
    | finite y => simp only [opposite, add, nearSum_neg]

theorem sub_opposite (x y : Precise) : x.opposite.sub p y.opposite = (x.sub p y).opposite := by
  rw [sub_eq_add, sub_eq_add, add_opposite]

theorem round_opposite (x : Precise) : x.opposite.round p = (x.round p).opposite := by
  cases x with
  | nan | infinity => rfl
  | finite x => simp only [opposite, round, roundTo_neg]

theorem neg_opposite (x : Precise) : x.opposite.neg p = (x.neg p).opposite := by
  cases x with
  | nan | infinity => rfl
  | finite x => simp only [opposite, neg, roundTo_neg]

theorem getD_opposite (x : Option Precise) : (x.map opposite).getD nan = (x.getD nan).opposite := by
  cases x <;> rfl

theorem lt_opposite {x : Precise} (number : x.isNaN = false) (nonzero : x.isZero = false) :
    (ofInt 0).lt x.opposite = !(ofInt 0).lt x := by
  cases x with
  | nan => contradiction
  | infinity n => rfl
  | finite x =>
    have some : x ≠ 0 := by simpa [isZero] using nonzero
    change less 0 (-x) = !less 0 x
    rw [zero_less some, zero_less (neg_ne_zero some), isNegative_neg some]

theorem le_opposite {x : Precise} (number : x.isNaN = false) (nonzero : x.isZero = false) :
    (ofInt 0).le x.opposite = !(ofInt 0).le x := by
  have other {y : Precise} (some : y.isZero = false) : (ofInt 0).eq y = false := by
    cases y with
    | nan | infinity => rfl
    | finite y =>
      have some : y ≠ 0 := by simpa [isZero] using some
      exact decide_eq_false some.symm
  unfold le
  rw [lt_opposite number nonzero, other nonzero, other ((isZero_opposite x).trans nonzero)]
  simp

theorem abs_opposite (x : Precise) : x.opposite.abs p = x.abs p := by
  cases x with
  | nan | infinity => rfl
  | finite x => simp only [opposite, abs, magnitude_neg]

theorem signum_opposite (x : Precise) : x.opposite.signum = -x.signum := by
  cases x with
  | nan => rfl
  | infinity n => cases n <;> rfl
  | finite x =>
    by_cases zero : x = 0
    · simp [opposite, signum, zero]
    · simp only [opposite, signum, neg_eq_zero, zero, if_false, isNegative_neg zero]
      cases isNegative x <;> rfl

theorem infinityOfSign_neg (n : Int) : infinityOfSign (-n) = (infinityOfSign n).opposite := by
  match n with
  | 0 => rfl
  | .ofNat (n + 1) => rfl
  | .negSucc n => rfl

theorem mul_opposite (x y : Precise) : x.opposite.mul p y = (x.mul p y).opposite := by
  have infinite : infinityOfSign (x.opposite.signum * y.signum)
      = (infinityOfSign (x.signum * y.signum)).opposite := by
    rw [signum_opposite, Int.neg_mul, infinityOfSign_neg]
  cases x with
  | nan => cases y <;> rfl
  | infinity n =>
    cases y with
    | nan => rfl
    | infinity | finite => exact infinite
  | finite x =>
    cases y with
    | nan => rfl
    | infinity => exact infinite
    | finite y => simp only [opposite, mul, Dyadic.neg_mul, roundTo_neg]

theorem div?_opposite (x y : Precise) : x.opposite.div? p y = (x.div? p y).map opposite := by
  cases y with
  | nan => cases x <;> rfl
  | infinity m => cases x <;> rfl
  | finite y =>
    by_cases zero : y = 0
    · cases x <;> simp [div?, zero]
    · cases x with
      | nan => simp [opposite, div?, zero]
      | infinity n =>
        simp only [opposite, div?, zero, if_false, Option.map_some]
        cases n <;> cases isNegative y <;> rfl
      | finite x => simp [opposite, div?, zero, stickyQuotient_neg, roundTo_neg]

end Precise

end Formula.Number
