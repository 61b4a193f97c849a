import Formula.Proofs.Number.Order
import Formula.Proofs.Value.Reals

/-! Comparisons of numbers. Two numbers count as equal if they are closer than `epsilon`, and as
different if they are farther apart, so that neither holds of numbers that lie exactly `epsilon`
apart, nor of two infinities of one sign, which have no distance. All else that the six comparisons
say about two numbers fits together. -/
namespace Formula

open Number

namespace Value

variable {p : Nat} {a b : Value}

def AreSameInfinity (p : Nat) (a b : Value) : Prop :=
  ∃ n, a.real? p = some (.infinity n) ∧ b.real? p = some (.infinity n)

def limit : Precise := .finite (.ofIntWithPrec 7737125245533627 86)

/-- The distance as it is computed is exactly `epsilon`. -/
def AreEpsilonApart (p : Nat) (a b : Value) : Prop :=
  ∃ d, a.distance p b = .ok d ∧ d.real? p = some limit

theorem real?_valid (ha : a.IsNumber) (valid : a.isNaN? = .ok false) :
    ∃ x, a.real? p = some x ∧ x.isNaN = false := by
  cases ha with
  | float x =>
    refine ⟨_, rfl, ?_⟩
    cases x with
    | nan => cases valid
    | infinity | zero | finite => rfl
  | precise x => exact ⟨x, rfl, Except.ok.inj valid⟩
  | constant c => cases c <;> exact ⟨_, rfl, rfl⟩

/-- What is known of the distance of two valid numbers, taken as a real number. -/
structure IsDistance (p : Nat) (a b : Value) (w : Precise) : Prop where
  isNaN : w.isNaN = true ↔ AreSameInfinity p a b
  zero : a.real? p = b.real? p → ¬ AreSameInfinity p a b → w = .zero

theorem IsDistance.valid {w : Precise} (h : IsDistance p a b w) :
    w.isNaN = false ↔ ¬ AreSameInfinity p a b := by
  rw [← h.isNaN, Bool.not_eq_true]

theorem isDistance_floats {x y : Binary64} (hx : x.isNaN = false) (hy : y.isNaN = false) :
    IsDistance p (.float x) (.float y) (.ofBinary64 (x.sub y).abs) := by
  constructor
  · have same : (Precise.ofBinary64 (x.sub y).abs).isNaN = (x.sub y).isNaN := by
      cases x.sub y <;> rfl
    rw [same, Binary64.isNaN_sub hx hy]
    constructor
    · rintro ⟨n, rfl, rfl⟩
      exact ⟨n, rfl, rfl⟩
    · rintro ⟨n, left, right⟩
      cases x <;> cases left
      cases y <;> cases right
      exact ⟨n, rfl, rfl⟩
  -- The only distinct numbers with the same value are the two zeros.
  · intro same finite
    have same : Precise.ofBinary64 x = .ofBinary64 y := Option.some.inj same
    cases x with
    | nan => cases hx
    | infinity n => exact absurd ⟨n, rfl, congrArg some same.symm⟩ finite
    | zero n =>
      cases y with
      | zero m => rfl
      | nan | infinity => cases same
      | finite y nonzero => exact absurd (Precise.finite.inj same).symm nonzero
    | finite x nonzero =>
      cases y with
      | nan | infinity => cases same
      | zero m => exact absurd (Precise.finite.inj same) nonzero
      | finite y nonzero' =>
        obtain rfl := Precise.finite.inj same
        simp only [Binary64.sub, Binary64.neg, Binary64.add, add_neg_self]
        rfl

theorem isDistance_precise {x y : Precise} (left : a.real? p = some x) (right : b.real? p = some y)
    (hx : x.isNaN = false) (hy : y.isNaN = false) : IsDistance p a b ((x.sub p y).abs p) := by
  constructor
  · rw [Precise.isNaN_abs, Precise.isNaN_sub hx hy, AreSameInfinity, left, right]
    simp only [Option.some.injEq]
  · intro same finite
    obtain rfl : x = y := Option.some.inj (left.symm.trans (same.trans right))
    cases x with
    | nan => cases hx
    | infinity n => exact absurd ⟨n, left, right⟩ finite
    | finite x =>
      rw [Precise.sub_self]
      rfl

theorem distance_valid (ha : a.IsNumber) (hb : b.IsNumber) (na : a.isNaN? = .ok false)
    (nb : b.isNaN? = .ok false) :
    ∃ d w, a.distance p b = .ok d ∧ d.IsNumber ∧ d.real? p = some w ∧ IsDistance p a b w := by
  obtain ⟨x, left, hx⟩ := real?_valid (p := p) ha na
  obtain ⟨y, right, hy⟩ := real?_valid (p := p) hb nb
  by_cases floats : (∃ u, a = .float u) ∧ ∃ v, b = .float v
  · obtain ⟨⟨u, rfl⟩, v, rfl⟩ := floats
    exact ⟨_, _, rfl, .float _, rfl, isDistance_floats (Except.ok.inj na) (Except.ok.inj nb)⟩
  · have met : a.distance p b = .ok (.precise ((x.sub p y).abs p)) := by
      cases ha <;> cases hb <;> cases left <;> cases right
      case float.float u v => exact absurd ⟨⟨u, rfl⟩, v, rfl⟩ floats
      all_goals rfl
    exact ⟨_, _, met, .precise _, rfl, isDistance_precise left right hx hy⟩

theorem less_eq {x y : Precise} (ha : a.IsReal) (hb : b.IsReal) (left : a.real? p = some x)
    (right : b.real? p = some y) : a.less p b = .ok (x.lt y) := by
  cases ha <;> cases hb <;> cases left <;> cases right <;> rfl

section Distances

variable {d : Value} {w : Precise} (distance : a.distance p b = .ok d) (number : d.IsReal)
  (real : d.real? p = some w)
include distance number real

theorem isNear_eq : a.isNear p b = .ok (w.lt limit) := by
  simp only [isNear, distance]
  exact less_eq number (.float _) real rfl

theorem isFar_eq : a.isFar p b = .ok (limit.lt w) := by
  simp only [isFar, distance]
  exact less_eq (.float _) number rfl real

end Distances

end Value

namespace Operator

open Value

variable {p : Nat} {a b : Value}

def IsTrue (p : Nat) (op : Operator) (a b : Value) : Prop := op.evaluate p a b = .ok (.ofBool true)

theorem ofBool_inj {c d : Bool} : Value.ofBool c = Value.ofBool d ↔ c = d := by
  cases c <;> cases d <;> decide

theorem evaluate_comparison {op : Operator} (comparison : op.priority = 2) {c : Bool}
    (holds : op.holds p a b = .ok c) : op.evaluate p a b = .ok (.ofBool c) := by
  cases op with
  | less | lessEqual | equal | greaterEqual | greater | notEqual =>
    simp only [evaluate, apply, holds]
    rfl
  | _ => cases comparison

theorem isTrue_iff {op : Operator} (comparison : op.priority = 2) {c : Bool}
    (holds : op.holds p a b = .ok c) :
    op.IsTrue p a b ↔ c = true := by
  rw [IsTrue, evaluate_comparison comparison holds, Except.ok.injEq, ofBool_inj]

/-- What the comparisons say about two numbers, by their exact order and by the distance. -/
structure Compares (p : Nat) (a b : Value) (x y w : Precise) : Prop where
  less : less.IsTrue p a b ↔ x.lt y = true
  lessEqual : lessEqual.IsTrue p a b ↔ x.lt y = true ∨ w.lt limit = true
  equal : equal.IsTrue p a b ↔ w.lt limit = true
  greaterEqual : greaterEqual.IsTrue p a b ↔ y.lt x = true ∨ w.lt limit = true
  greater : greater.IsTrue p a b ↔ y.lt x = true
  notEqual : notEqual.IsTrue p a b ↔ limit.lt w = true

theorem compares {x y w : Precise} {d : Value} (ha : a.IsReal) (hb : b.IsReal)
    (left : a.real? p = some x)
    (right : b.real? p = some y) (distance : a.distance p b = .ok d) (number : d.IsReal)
    (real : d.real? p = some w) : Compares p a b x y w := by
  have less : a.less p b = .ok (x.lt y) := less_eq ha hb left right
  have more : b.less p a = .ok (y.lt x) := less_eq hb ha right left
  have near : a.isNear p b = .ok (w.lt limit) := isNear_eq distance number real
  have far : a.isFar p b = .ok (limit.lt w) := isFar_eq distance number real
  constructor
  · exact isTrue_iff rfl less
  · rw [isTrue_iff rfl (c := x.lt y || w.lt limit), Bool.or_eq_true]
    simp only [holds, less, near, bind, Except.bind]
    cases x.lt y <;> rfl
  · exact isTrue_iff rfl near
  · rw [isTrue_iff rfl (c := y.lt x || w.lt limit), Bool.or_eq_true]
    simp only [holds, more, near, bind, Except.bind]
    cases y.lt x <;> rfl
  · exact isTrue_iff rfl more
  · exact isTrue_iff rfl far

theorem exists_compares (ha : a.IsNumber) (hb : b.IsNumber) (na : a.isNaN? = .ok false)
    (nb : b.isNaN? = .ok false) :
    ∃ x y w, (a.real? p = some x ∧ x.isNaN = false) ∧ (b.real? p = some y ∧ y.isNaN = false) ∧
      IsDistance p a b w ∧ (AreEpsilonApart p a b ↔ w = limit) ∧ Compares p a b x y w := by
  obtain ⟨x, left, hx⟩ := real?_valid (p := p) ha na
  obtain ⟨y, right, hy⟩ := real?_valid (p := p) hb nb
  obtain ⟨d, w, distance, number, real, known⟩ := distance_valid (p := p) ha hb na nb
  refine ⟨x, y, w, ⟨left, hx⟩, ⟨right, hy⟩, known, ?_,
    compares ha.isReal hb.isReal left right distance number.isReal real⟩
  constructor
  · rintro ⟨d', distance', same⟩
    obtain rfl := Except.ok.inj (distance.symm.trans distance')
    exact Option.some.inj (real.symm.trans same)
  · rintro rfl
    exact ⟨d, distance, real⟩

/-- A distance is neither near nor far only if it is exactly `epsilon`, or if there is none. -/
theorem near_or_far {w : Precise} :
    w.lt limit = true ∨ limit.lt w = true ↔ w.isNaN = false ∧ w ≠ limit := by
  constructor
  · rintro (near | far)
    · refine ⟨(Precise.number_of_lt near).1, ?_⟩
      rintro rfl
      cases (Precise.lt_irrefl limit).symm.trans near
    · refine ⟨(Precise.number_of_lt far).2, ?_⟩
      rintro rfl
      cases (Precise.lt_irrefl limit).symm.trans far
  · rintro ⟨number, other⟩
    rcases Precise.lt_trichotomy number (show limit.isNaN = false from rfl) with near | same | far
    · exact .inl near
    · exact absurd same other
    · exact .inr far

theorem near_of_same {w : Precise} (h : IsDistance p a b w) (same : a.real? p = b.real? p) :
    w.lt limit = true ↔ ¬ AreSameInfinity p a b := by
  constructor
  · intro near
    exact h.valid.mp (Precise.number_of_lt near).1
  · intro finite
    rw [h.zero same finite]
    decide

/-- The comparisons of two valid numbers of any kinds fit together. No two numbers are both equal
and different, and they are neither only if they are infinities of one sign or exactly `epsilon`
apart; a number is equal to itself unless it is infinite; and the two comparisons that include
equality say what the strict ones and equality say. -/
theorem comparisons_cohere (ha : a.IsNumber) (hb : b.IsNumber) (na : a.isNaN? = .ok false)
    (nb : b.isNaN? = .ok false) :
    ¬ (equal.IsTrue p a b ∧ notEqual.IsTrue p a b) ∧
    (equal.IsTrue p a b ∨ notEqual.IsTrue p a b ↔
      ¬ AreSameInfinity p a b ∧ ¬ AreEpsilonApart p a b) ∧
    (equal.IsTrue p a a ↔ ¬ AreSameInfinity p a a) ∧
    (lessEqual.IsTrue p a b ↔ less.IsTrue p a b ∨ equal.IsTrue p a b) ∧
    (greaterEqual.IsTrue p a b ↔ greater.IsTrue p a b ∨ equal.IsTrue p a b) ∧
    (lessEqual.IsTrue p a b ∨ greaterEqual.IsTrue p a b ↔ ¬ AreSameInfinity p a b) := by
  obtain ⟨x, y, w, ⟨left, hx⟩, ⟨right, hy⟩, distance, apart, compared⟩ :=
    exists_compares (p := p) ha hb na nb
  refine ⟨?both, ?either, ?itself, ?atMost, ?atLeast, ?total⟩
  case both =>
    rw [compared.equal, compared.notEqual]
    rintro ⟨near, far⟩
    cases (Precise.lt_asymm near).symm.trans far
  case either => rw [compared.equal, compared.notEqual, near_or_far, distance.valid, apart]
  case itself =>
    obtain ⟨_, _, w', _, _, distance', _, compared'⟩ := exists_compares (p := p) ha ha na na
    rw [compared'.equal, near_of_same distance' rfl]
  case atMost => rw [compared.lessEqual, compared.less, compared.equal]
  case atLeast => rw [compared.greaterEqual, compared.greater, compared.equal]
  -- Of two numbers one is less, or they are the same; the same number is near unless it is
  -- infinite.
  case total =>
    rw [compared.lessEqual, compared.greaterEqual]
    constructor
    · rintro holds ⟨n, infinite, infinite'⟩
      obtain rfl := Option.some.inj (left.symm.trans infinite)
      obtain rfl := Option.some.inj (right.symm.trans infinite')
      have near : w.lt limit = true := by simpa [Precise.lt_irrefl] using holds
      exact (near_of_same distance (infinite.trans infinite'.symm)).mp near ⟨n, infinite, infinite'⟩
    · intro finite
      rcases Precise.lt_trichotomy hx hy with less | same | more
      · exact .inl (.inl less)
      · have near := (near_of_same distance
          (left.trans ((congrArg some same).trans right.symm))).mpr finite
        exact .inl (.inr near)
      · exact .inr (.inl more)

/-- A number of 53 binary digits and a precise infinity. -/
theorem comparisons_cohere_mixed :
    lessEqual.IsTrue 53 (.float .one) (.precise (.infinity false)) ∧
    ¬ greaterEqual.IsTrue 53 (.float .one) (.precise (.infinity false)) ∧
    notEqual.IsTrue 53 (.float .one) (.precise (.infinity false)) := by
  have number : (Value.float .one).IsNumber := .float _
  have infinite : (Value.precise (.infinity false)).IsNumber := .precise _
  have less : less.IsTrue 53 (.float .one) (.precise (.infinity false)) :=
    (isTrue_iff rfl rfl).mpr rfl
  have notEqual : notEqual.IsTrue 53 (.float .one) (.precise (.infinity false)) :=
    (isTrue_iff rfl rfl).mpr rfl
  obtain ⟨both, -, -, atMost, atLeast, -⟩ := comparisons_cohere (p := 53) number infinite rfl rfl
  refine ⟨atMost.mpr (.inl less), ?_, notEqual⟩
  rw [atLeast]
  rintro (greater | equal)
  · cases (isTrue_iff rfl rfl).mp greater
  · exact both ⟨equal, notEqual⟩

/-- An infinity is neither equal to itself nor different, nor at most or at least itself; and
`epsilon` and zero are neither equal nor different. -/
theorem comparisons_undecided :
    ((Value.float (.infinity false)).isNaN? = .ok false ∧
      ∀ op ∈ [equal, notEqual, lessEqual, greaterEqual],
        ¬ op.IsTrue 53 (.float (.infinity false)) (.float (.infinity false))) ∧
    epsilon.isNaN? = .ok false ∧ ¬ equal.IsTrue 53 epsilon (.float (.zero false)) ∧
      ¬ notEqual.IsTrue 53 epsilon (.float (.zero false)) := by
  have undecided {op : Operator} {a b : Value} (comparison : op.priority = 2)
      (holds : op.holds 53 a b = .ok false) :
      ¬ op.IsTrue 53 a b := by
    rw [isTrue_iff comparison holds]
    exact Bool.false_ne_true
  refine ⟨⟨rfl, ?_⟩, rfl, undecided rfl rfl, undecided rfl rfl⟩
  intro op member
  simp only [List.mem_cons, List.not_mem_nil, or_false] at member
  rcases member with rfl | rfl | rfl | rfl <;> exact undecided rfl rfl

end Operator

end Formula
