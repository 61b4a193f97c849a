import Formula.Proofs.Value.Comparisons

/-! Comparisons from both sides. The distance of two integers or precise numbers is the same from
either of them, rounded or not, so that a comparison and the one with the other sign say the same of
swapped operands. -/
namespace Formula

open Number

namespace Value

variable {p : Nat} {a b : Value}

/-- An integer or a precise number, infinities and the invalid number among them. -/
inductive IsExact : Value → Prop
  | integer (n : Int) : IsExact (.integer n)
  | precise (x : Precise) : IsExact (.precise x)

theorem IsExact.isReal (h : a.IsExact) : a.IsReal := by
  cases h with
  | integer n => exact .integer n
  | precise x => exact .precise x

section Distances

variable (ha : a.IsExact) (hb : b.IsExact)
include ha hb

theorem measured_exact (p : Nat) : ∃ x y d w, a.real? p = some x ∧ b.real? p = some y ∧
    a.distance p b = .ok d ∧ d.IsReal ∧ d.real? p = some w := by
  obtain ⟨x, left⟩ := real?_real ha.isReal p
  obtain ⟨y, right⟩ := real?_real hb.isReal p
  obtain ⟨d, distance, number⟩ : ∃ d, a.distance p b = .ok d ∧ d.IsReal := by
    cases ha with
    | integer m =>
      cases hb with
      | integer n => exact ⟨_, rfl, .integer _⟩
      | precise y => exact ⟨_, rfl, .precise _⟩
    | precise x => cases hb <;> exact ⟨_, rfl, .precise _⟩
  obtain ⟨w, real⟩ := real?_real number p
  exact ⟨x, y, d, w, left, right, distance, number, real⟩

/-- A difference is rounded alike whichever number is taken away. -/
theorem distance_comm (p : Nat) : a.distance p b = b.distance p a := by
  have rounded (x y : Precise) : (.ok (.precise ((x.sub p y).abs p)) : Except Fault Value)
      = .ok (.precise ((y.sub p x).abs p)) := by rw [Precise.abs_sub_comm]
  cases ha with
  | integer m =>
    cases hb with
    | integer n =>
      have whole : (m - n).natAbs = (n - m).natAbs := by omega
      have same : (.ok (.integer (m - n).natAbs) : Except Fault Value) =
          .ok (.integer (n - m).natAbs) := by rw [whole]
      exact same
    | precise y => exact rounded (.ofInt m) y
  | precise x =>
    cases hb with
    | integer n => exact rounded x (.ofInt n)
    | precise y => exact rounded x y

theorem isNear_comm (p : Nat) : a.isNear p b = b.isNear p a := by
  rw [isNear, isNear, distance_comm ha hb]

theorem isFar_comm (p : Nat) : a.isFar p b = b.isFar p a := by
  rw [isFar, isFar, distance_comm ha hb]

end Distances

end Value

namespace Operator

open Value

variable {p : Nat} {a b : Value}

/-- The same comparison of swapped operands. -/
def mirrored : Operator → Operator
  | less => greater
  | lessEqual => greaterEqual
  | greaterEqual => lessEqual
  | greater => less
  | op => op

theorem evaluate_mirrored (ha : a.IsExact) (hb : b.IsExact) {op : Operator}
    (comparison : op.priority = 2) :
    op.evaluate p a b = op.mirrored.evaluate p b a := by
  have near := isNear_comm ha hb p
  have far := isFar_comm ha hb p
  cases op with
  | less | greater => rfl
  | lessEqual | greaterEqual | equal => simp only [evaluate, apply, mirrored, holds, near]
  | notEqual => simp only [evaluate, apply, mirrored, holds, far]
  | _ => cases comparison

theorem holds_exact (ha : a.IsExact) (hb : b.IsExact) {op : Operator}
    (comparison : op.priority = 2) :
    ∃ c, op.holds p a b = .ok c := by
  obtain ⟨x, y, d, w, left, right, distance, number, real⟩ := measured_exact ha hb p
  have less := less_eq ha.isReal hb.isReal left right
  have more := less_eq hb.isReal ha.isReal right left
  have near := isNear_eq distance number real
  cases op with
  | less => exact ⟨_, less⟩
  | greater => exact ⟨_, more⟩
  | equal => exact ⟨_, near⟩
  | notEqual => exact ⟨_, isFar_eq distance number real⟩
  | lessEqual =>
    simp only [holds, less, near, bind, Except.bind]
    cases x.lt y <;> exact ⟨_, rfl⟩
  | greaterEqual =>
    simp only [holds, more, near, bind, Except.bind]
    cases y.lt x <;> exact ⟨_, rfl⟩
  | _ => cases comparison

/-- The comparisons of two numbers, each of them an integer or precise, give 0 or 1 and are
symmetric: a comparison says what the opposite one says of the swapped operands, and two numbers are
at most and at least each other exactly if they are equal up to `epsilon`. -/
theorem comparisons_symmetric (ha : a.IsExact) (hb : b.IsExact) :
    (∀ op : Operator, op.priority = 2 → ∃ c, op.evaluate p a b = .ok (.ofBool c)) ∧
    greaterEqual.evaluate p a b = lessEqual.evaluate p b a ∧
    greater.evaluate p a b = less.evaluate p b a ∧
    equal.evaluate p a b = equal.evaluate p b a ∧
    notEqual.evaluate p a b = notEqual.evaluate p b a ∧
    (lessEqual.IsTrue p a b ∧ greaterEqual.IsTrue p a b ↔ equal.IsTrue p a b) := by
  obtain ⟨x, y, d, w, left, right, distance, number, real⟩ := measured_exact ha hb p
  have compared := compares ha.isReal hb.isReal left right distance number real
  have mirror {op : Operator} (comparison : op.priority = 2) :=
    evaluate_mirrored (p := p) ha hb comparison
  refine ⟨?results, mirror rfl, mirror rfl, mirror rfl, mirror rfl, ?both⟩
  case results =>
    intro op comparison
    obtain ⟨c, holds⟩ := holds_exact (p := p) ha hb comparison
    exact ⟨c, evaluate_comparison comparison holds⟩
  case both =>
    rw [compared.lessEqual, compared.greaterEqual, compared.equal]
    constructor
    -- Not both numbers are less, so one of the comparisons holds because they are near.
    · rintro ⟨less | near, more | near'⟩
      · cases (Precise.lt_asymm less).symm.trans more
      · exact near'
      · exact near
      · exact near
    · intro near
      exact ⟨.inr near, .inr near⟩

/-- An integer and a precise number below it by less than `epsilon`, at a precision that does not
hold their difference exactly. -/
theorem comparisons_symmetric_near :
    greater.IsTrue 3 (.integer 7) (.precise (.finite (7 - .ofIntWithPrec 21 40))) ∧
    less.IsTrue 3 (.precise (.finite (7 - .ofIntWithPrec 21 40))) (.integer 7) ∧
    lessEqual.IsTrue 3 (.integer 7) (.precise (.finite (7 - .ofIntWithPrec 21 40))) ∧
    greaterEqual.IsTrue 3 (.precise (.finite (7 - .ofIntWithPrec 21 40))) (.integer 7) := by
  have whole : (Value.integer 7).IsExact := .integer 7
  have below : (Value.precise (.finite (7 - .ofIntWithPrec 21 40))).IsExact := .precise _
  have greater : greater.IsTrue 3 (.integer 7) (.precise (.finite (7 - .ofIntWithPrec 21 40))) :=
    (isTrue_iff rfl rfl).mpr (by decide)
  have equal : equal.IsTrue 3 (.integer 7) (.precise (.finite (7 - .ofIntWithPrec 21 40))) :=
    (isTrue_iff rfl rfl).mpr (by decide)
  obtain ⟨-, -, turned, -, -, both⟩ := comparisons_symmetric (p := 3) whole below
  obtain ⟨-, atLeast, -⟩ := comparisons_symmetric (p := 3) below whole
  have atMost := (both.mpr equal).1
  exact ⟨greater, turned.symm.trans greater, atMost, atLeast.trans atMost⟩

end Operator

end Formula
