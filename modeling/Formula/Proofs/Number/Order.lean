import Formula.Proofs.Number.Signs

/-! The order of numbers. Of two different ones exactly one is less than the other. The difference
of two numbers is invalid only for infinities of one sign, and zero if they are the same finite
number. -/
namespace Formula.Number

section Dyadic

variable {x y : Dyadic}

theorem less_or_less (different : x ≠ y) : less x y = true ∨ less y x = true := by
  have other : y ≠ x := Ne.symm different
  have sorted : x < y ∨ y < x := by
    rcases Std.lt_trichotomy x y with less | same | more
    · exact .inl less
    · exact absurd same different
    · exact .inr more
  unfold less
  cases isNegative x <;> cases isNegative y
  · by_cases zero : x = 0
    · subst zero
      exact .inl (by simp [other])
    · by_cases zero' : y = 0
      · subst zero'
        exact .inr (by simp [zero])
      · by_cases size : leading x = leading y
        · simpa [zero, zero', size] using sorted
        · rcases Int.lt_or_gt_of_ne size with below | above
          · exact .inl (by simp [zero, zero', size, below])
          · exact .inr (by simp [zero, zero', Ne.symm size, above])
  · exact .inr rfl
  · exact .inl rfl
  · by_cases size : leading x = leading y
    · simpa [size] using sorted
    · rcases Int.lt_or_gt_of_ne size with below | above
      · exact .inr (by simp [Ne.symm size, below])
      · exact .inl (by simp [size, above])

theorem less_asymm (h : less x y = true) : less y x = false := by
  have sorted : x < y → ¬ y < x := Std.not_gt_of_lt
  unfold less at h ⊢
  cases negative : isNegative x <;> cases negative' : isNegative y
    <;> simp only [negative, negative'] at h ⊢
  · by_cases zero : x = 0
    · have other : y ≠ 0 := by simpa [zero] using h
      simp [zero, other]
    · have nonzero : y ≠ 0 := by
        rintro rfl
        simp [zero] at h
      by_cases size : leading x = leading y
      · simpa [zero, nonzero, size] using sorted (by simpa [zero, nonzero, size] using h)
      · have longer : leading x < leading y := by simpa [zero, nonzero, size] using h
        simpa [zero, nonzero, Ne.symm size] using Int.le_of_lt longer
  · cases h
  · by_cases size : leading x = leading y
    · simpa [size] using sorted (by simpa [size] using h)
    · have longer : leading y < leading x := by simpa [size] using h
      simpa [Ne.symm size] using Int.le_of_lt longer

theorem trailing_le_leading (x : Dyadic) : trailing x ≤ leading x := by
  cases x with
  | zero => exact Int.le_refl 0
  | ofOdd n k odd =>
    simp only [trailing, leading]
    omega

theorem add_neg_self (x : Dyadic) : x + -x = 0 := by
  apply Dyadic.toRat_inj.mp
  rw [Dyadic.toRat_add, Dyadic.toRat_neg]
  exact Rat.add_neg_cancel _

/-- What is not smaller is too large to be blurred. -/
theorem blur_of_le (p : Nat) (h : leading x ≤ leading y) : blur p x y = y := by
  have size := trailing_le_leading x
  unfold blur
  rw [if_pos (.inr (by omega))]

theorem nearSum_neg_self (p : Nat) (x : Dyadic) : nearSum p x (-x) = 0 := by
  have exactly : blur p x (-x) = -x := blur_of_le p (Int.le_of_eq (leading_neg x).symm)
  unfold nearSum
  rw [leading_neg, if_neg (Int.lt_irrefl _), exactly, add_neg_self]
  split <;> rfl

theorem nearSum_comm (p : Nat) (x y : Dyadic) : nearSum p x y = nearSum p y x := by
  unfold nearSum
  by_cases zero : x = 0 ∨ y = 0
  · rw [if_pos zero, if_pos zero.symm, Dyadic.add_comm]
  · rw [if_neg zero, if_neg (mt Or.symm zero)]
    rcases Int.lt_trichotomy (leading x) (leading y) with less | same | more
    · rw [if_pos less, if_neg (Int.lt_asymm less), Dyadic.add_comm]
    · have least := Int.le_of_eq same
      have most := Int.le_of_eq same.symm
      rw [if_neg (Int.not_lt.mpr most), if_neg (Int.not_lt.mpr least), blur_of_le p least,
        blur_of_le p most, Dyadic.add_comm]
    · rw [if_neg (Int.lt_asymm more), if_pos more, Dyadic.add_comm]

end Dyadic

namespace Precise

variable {p : Nat} {x y : Precise}

theorem lt_trichotomy (hx : x.isNaN = false) (hy : y.isNaN = false) :
    x.lt y = true ∨ x = y ∨ y.lt x = true := by
  cases x with
  | nan => cases hx
  | infinity n =>
    cases y with
    | nan => cases hy
    | infinity m => cases n <;> cases m <;> simp [lt]
    | finite y => cases n <;> simp [lt]
  | finite x =>
    cases y with
    | nan => cases hy
    | infinity m => cases m <;> simp [lt]
    | finite y =>
      by_cases same : x = y
      · exact .inr (.inl (congrArg finite same))
      · rcases less_or_less same with less | more
        · exact .inl less
        · exact .inr (.inr more)

theorem lt_asymm (h : x.lt y = true) : y.lt x = false := by
  cases x with
  | nan => cases h
  | infinity n =>
    cases y with
    | nan => rfl
    | infinity m => cases n <;> cases m <;> first | rfl | cases h
    | finite y => cases n <;> first | rfl | cases h
  | finite x =>
    cases y with
    | nan => rfl
    | infinity m => cases m <;> first | rfl | cases h
    | finite y => exact less_asymm h

theorem lt_irrefl (x : Precise) : x.lt x = false := by
  cases less : x.lt x with
  | false => rfl
  | true => exact less.symm.trans (lt_asymm less)

theorem number_of_lt (h : x.lt y = true) : x.isNaN = false ∧ y.isNaN = false := by
  cases x with
  | nan => cases h
  | infinity n => cases y <;> first | exact ⟨rfl, rfl⟩ | cases h
  | finite x => cases y <;> first | exact ⟨rfl, rfl⟩ | cases h

theorem isNaN_sub (hx : x.isNaN = false) (hy : y.isNaN = false) :
    (x.sub p y).isNaN = true ↔ ∃ n, x = infinity n ∧ y = infinity n := by
  cases x with
  | nan => cases hx
  | infinity n =>
    cases y with
    | nan => cases hy
    | infinity m => cases n <;> cases m <;> simp [sub, add, isNaN]
    | finite y => simp [sub, add, isNaN]
  | finite x =>
    cases y with
    | nan => cases hy
    | infinity m => simp [sub, add, isNaN]
    | finite y => simp [sub, add, isNaN]

theorem sub_self (x : Dyadic) : (finite x).sub p (finite x) = zero :=
  congrArg finite (nearSum_neg_self p x)

theorem add_comm (x y : Precise) : x.add p y = y.add p x := by
  cases x with
  | nan => cases y <;> rfl
  | infinity n =>
    cases y with
    | infinity m => cases n <;> cases m <;> rfl
    | nan | finite => rfl
  | finite x =>
    cases y with
    | nan | infinity => rfl
    | finite y => exact congrArg finite (nearSum_comm p x y)

theorem sub_swap (x y : Precise) : y.sub p x = (x.sub p y).opposite := by
  rw [sub_eq_add, sub_eq_add, ← add_opposite, opposite_opposite, add_comm]

theorem abs_sub_comm (x y : Precise) : (x.sub p y).abs p = (y.sub p x).abs p := by
  rw [sub_swap x y, abs_opposite]

@[simp] theorem isNaN_abs (x : Precise) : (x.abs p).isNaN = x.isNaN := by
  cases x <;> rfl

end Precise

namespace Binary64

variable {x y : Binary64}

theorem isNaN_ofDyadic (x : Dyadic) : (ofDyadic x).isNaN = false := by
  unfold ofDyadic
  split
  · rfl
  · split
    · rfl
    · split
      · rfl
      · dsimp only
        split
        · rfl
        · split <;> rfl

theorem isNaN_sub (hx : x.isNaN = false) (hy : y.isNaN = false) :
    (x.sub y).isNaN = true ↔ ∃ n, x = infinity n ∧ y = infinity n := by
  cases x with
  | nan => cases hx
  | infinity n =>
    cases y with
    | nan => cases hy
    | infinity m => cases n <;> cases m <;> simp [sub, neg, add, isNaN]
    | zero | finite => simp [sub, neg, add, isNaN]
  | zero n =>
    cases y with
    | nan => cases hy
    | infinity | zero | finite => simp [sub, neg, add, isNaN]
  | finite x nonzero =>
    cases y with
    | nan => cases hy
    | infinity | zero => simp [sub, neg, add, isNaN]
    | finite y nonzero' => simp [sub, neg, add, isNaN_ofDyadic]

end Binary64

end Formula.Number
