import Formula.Proofs.Number.Signs

/-! Rounding twice. A number that was rounded to so many binary digits has no more of them, and
rounding it again leaves it as it is. -/
namespace Formula.Number

variable {p : Nat}

theorem roundTo_eq_self {n k : Int} {odd : n % 2 = 1} (fits : n.natAbs < twoTo p) :
    roundTo p (.ofOdd n k odd) = .ofOdd n k odd := by
  have nonzero : n.natAbs ≠ 0 := by omega
  have short : n.natAbs.log2 < p := (Nat.log2_lt nonzero).mpr fits
  have fine : k + (leading (.ofOdd n k odd) - p + 1) ≤ 0 := by
    simp only [leading]
    omega
  simp only [roundTo, roundAt]
  rw [if_pos fine]

theorem odd_lt {n : Int} {t : Nat} (pos : 0 < p) (odd : n % 2 = 1)
    (bound : (n * twoTo t).natAbs ≤ twoTo p) :
    n.natAbs < twoTo p := by
  rw [Int.natAbs_mul, Int.natAbs_natCast] at bound
  cases t with
  | zero =>
    have even : twoTo p % 2 = 0 := by
      obtain ⟨q, rfl⟩ : ∃ q, p = q + 1 := ⟨p - 1, by omega⟩
      exact Nat.mul_mod_left _ _
    rw [show twoTo 0 = 1 from rfl, Nat.mul_one] at bound
    omega
  | succ t =>
    have half : n.natAbs * 2 ≤ n.natAbs * twoTo (t + 1) := by
      apply Nat.mul_le_mul_left
      have double : twoTo (t + 1) = twoTo t * 2 := rfl
      have positive : 0 < twoTo t := Nat.two_pow_pos t
      omega
    omega

theorem roundTo_ofIntWithPrec {n : Int} (pos : 0 < p) (bound : n.natAbs ≤ twoTo p) (k : Int) :
    roundTo p (.ofIntWithPrec n k) = .ofIntWithPrec n k := by
  unfold Dyadic.ofIntWithPrec
  split
  · rfl
  · rename_i nonzero
    apply roundTo_eq_self
    obtain ⟨m, whole⟩ := Int.two_pow_trailingZeros_dvd nonzero
    have shifted : n >>> n.trailingZeros = m := by
      rw [Int.shiftRight_eq_div_pow]
      conv => lhs; arg 1; rw [whole]
      rw [Int.natCast_pow]
      exact Int.mul_ediv_cancel_left m (Int.pow_ne_zero (by decide))
    have odd := Int.shiftRight_trailingZeros_mod_two nonzero
    rw [shifted] at odd ⊢
    apply odd_lt pos odd
    have power : (twoTo n.trailingZeros : Int) = 2 ^ n.trailingZeros := Int.natCast_pow 2 _
    rwa [Int.mul_comm, power, ← whole]

theorem nearestEven_bounds (n : Int) (d : Nat) :
    n / d ≤ nearestEven n d ∧ nearestEven n d ≤ n / d + 1 := by
  simp only [nearestEven]
  split
  · omega
  · split
    · omega
    · split <;> omega

theorem nearestEven_le {n : Int} {s : Nat} (bound : n.natAbs < twoTo (p + s)) :
    (nearestEven n (twoTo s)).natAbs ≤ twoTo p := by
  obtain ⟨low, high⟩ := nearestEven_bounds n (twoTo s)
  have positive : (0 : Int) < (twoTo s : Nat) := by exact_mod_cast Nat.two_pow_pos s
  have split : (twoTo (p + s) : Int) = (twoTo p : Nat) * (twoTo s : Nat) := by
    exact_mod_cast Nat.pow_add 2 p s
  have below : n / (twoTo s : Nat) < (twoTo p : Nat) := by
    apply Int.ediv_lt_of_lt_mul positive
    omega
  have above : -((twoTo p : Nat) : Int) ≤ n / (twoTo s : Nat) := by
    apply (Int.le_ediv_iff_mul_le positive).mpr
    rw [Int.neg_mul]
    omega
  omega

theorem roundTo_roundTo (pos : 0 < p) (x : Dyadic) : roundTo p (roundTo p x) = roundTo p x := by
  cases x with
  | zero => rfl
  | ofOdd n k odd =>
    have nonzero : n.natAbs ≠ 0 := by omega
    by_cases fine : k + (leading (.ofOdd n k odd) - p + 1) ≤ 0
    · have same : roundTo p (.ofOdd n k odd) = .ofOdd n k odd := by
        simp only [roundTo, roundAt]
        rw [if_pos fine]
      rw [same, same]
    · have rounded : roundTo p (.ofOdd n k odd) = .ofIntWithPrec
          (nearestEven n (twoTo (k + (leading (.ofOdd n k odd) - p + 1)).toNat))
          (-(leading (.ofOdd n k odd) - p + 1)) := by
        simp only [roundTo, roundAt]
        rw [if_neg fine]
      rw [rounded]
      apply roundTo_ofIntWithPrec pos
      apply nearestEven_le
      apply (Nat.log2_lt nonzero).mp
      simp only [leading] at fine ⊢
      omega

theorem Precise.neg_eq (x : Precise) : x.neg p = (x.round p).opposite := by
  cases x with
  | nan | infinity => rfl
  | finite x => simp only [neg, round, opposite, roundTo_neg]

/-- What is left of a number with so many digits has no more of them. -/
theorem Precise.floorMod_round (pos : 0 < p) {x : Precise} (rounded : x.round p = x) (y : Precise) :
    (x.floorMod p y).round p = x.floorMod p y := by
  cases x with
  | nan => cases y <;> rfl
  | infinity n => cases y <;> rfl
  | finite x =>
    cases y with
    | nan | infinity => rfl
    | finite y =>
      cases x with
      | zero => cases y <;> rfl
      | ofOdd n k odd =>
        cases y with
        | zero => exact rounded
        | ofOdd m l odd' =>
          simp only [floorMod]
          split
          · exact rounded
          · split
            · rfl
            · exact congrArg finite (roundTo_roundTo pos _)

end Formula.Number
