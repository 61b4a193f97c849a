import Formula.Proofs.Function.Totality
import Formula.Proofs.Value.Kinds

/-! Which operations may leave precise numbers. Sums and products of a precise number are precise
again, powers are if both operands are, and what a comparison gives is always plain. -/
namespace Formula

open Number

namespace Value

variable {p : Nat} {a b v : Value} {plain plain' : Bool} {rule : BinaryRule}

/-- A number that is precise or invalid, unless it may be plain. -/
def Meets (plain : Bool) (v : Value) : Prop := v.IsNumber ∧ (plain = false → v.IsPreciseOrInvalid)

theorem Meets.mono (h : v.Meets plain) (weaker : plain' = false → plain = false) : v.Meets plain' :=
  ⟨h.1, fun precise => h.2 (weaker precise)⟩

theorem meets_invalid (plain : Bool) : invalid.Meets plain := ⟨.float .nan, fun _ => .inr rfl⟩

theorem meets_precise (x : Precise) (plain : Bool) : (precise x).Meets plain :=
  ⟨.precise x, fun _ => .inl rfl⟩

theorem meets_of_keeps {r : Except Fault Value} (number : GivesNumber r)
    (precise : plain = false → Keeps IsPreciseOrInvalid r) : ∃ v, r = .ok v ∧ v.Meets plain := by
  obtain ⟨v, rfl, isNumber⟩ := number
  exact ⟨v, rfl, isNumber, fun must => precise must v rfl⟩

theorem realOrInvalid_precise (h : v.IsPreciseOrInvalid) : v.realOrInvalid.IsPreciseOrInvalid := by
  cases v with
  | complex re im =>
    simp only [realOrInvalid]
    split
    · exact .inl rfl
    · exact .inr rfl
  | float | integer | precise | constant | text | absent => exact h

theorem ofOutcome_precise (o : Option PreciseOutcome) : (ofOutcome o).IsPreciseOrInvalid := by
  match o with
  | none => exact .inr rfl
  | some (.real x) => exact .inl rfl
  | some (.complex z) => exact realOrInvalid_precise (v := .complex z.re z.im) (.inl rfl)

theorem apply_precise (rule : UnaryRule) (ha : a.isPrecise) :
    (a.apply p rule).IsPreciseOrInvalid := by
  cases a with
  | precise | constant | complex => exact ofOutcome_precise _
  | float | integer | text | absent => cases ha

theorem apply₂_precise (h : (a.isPrecise || b.isPrecise) = true)
    (precise : Keeps IsPreciseOrInvalid (rule.precise p a b)) :
    Keeps IsPreciseOrInvalid (a.apply₂ p rule b) := by
  unfold apply₂
  rw [if_pos h]
  exact keeps_recover (.inr rfl) (keeps_map precise fun v hv => realOrInvalid_precise hv)

theorem IsPower.precise {r : Except Fault Value} (h : IsPower r) : Keeps IsPreciseOrInvalid r := by
  cases h with
  | real | complex => exact keeps_ok (.inl rfl)
  | divisionByZero => exact keeps_error .divisionByZero

theorem precisePower_precise (p : Nat) (a b : Value) :
    Keeps IsPreciseOrInvalid (precisePower p a b) := by
  unfold precisePower
  split
  · exact (isPower_complex p _ _).precise
  · exact keeps_bind (keeps_true _) fun y _ => (isPower_complex p _ _).precise
  · exact keeps_bind (keeps_true _) fun x _ => (isPower_complex p _ _).precise
  · refine keeps_bind (keeps_true _) fun x _ => keeps_bind (keeps_true _) fun y _ => ?_
    exact (isPower_real p x y).precise

theorem preciseAngle_precise (p : Nat) (a b : Value) :
    Keeps IsPreciseOrInvalid (preciseAngle p a b) := by
  unfold preciseAngle
  split
  · exact keeps_error .missingFeature
  · exact keeps_error .missingFeature
  · exact keeps_bind (keeps_true _) fun x _ => keeps_map (keeps_true _) fun y _ => .inl rfl

/-- The power of invalid numbers is not computed precisely, but it is invalid. -/
theorem power_precise (ha : a.IsPreciseOrInvalid) (hb : b.IsPreciseOrInvalid) :
    Keeps IsPreciseOrInvalid (a.power p b) := by
  cases plain : a.isPrecise || b.isPrecise with
  | true => exact apply₂_precise plain (precisePower_precise p a b)
  | false =>
    obtain ⟨left, right⟩ := Bool.or_eq_false_iff.mp plain
    obtain rfl := ha.resolve_left (ne_true_of_eq_false left)
    obtain rfl := hb.resolve_left (ne_true_of_eq_false right)
    exact keeps_ok (.inr rfl)

theorem least_precise (ha : a.IsPreciseOrInvalid) (hb : b.IsPreciseOrInvalid) :
    Keeps IsPreciseOrInvalid (a.least p b) := by
  refine keeps_bind (keeps_true _) fun less _ => ?_
  split
  · exact keeps_ok hb
  · exact keeps_ok ha

theorem greatest_precise (ha : a.IsPreciseOrInvalid) (hb : b.IsPreciseOrInvalid) :
    Keeps IsPreciseOrInvalid (a.greatest p b) := by
  refine keeps_bind (keeps_true _) fun less _ => ?_
  split
  · exact keeps_ok hb
  · exact keeps_ok ha

theorem Meets.isPrecise (h : v.Meets false) (valid : v.isNaN? = .ok false) : v.isPrecise := by
  rcases h.2 rfl with precise | rfl
  · exact precise
  · cases valid

theorem IsNumber.meets (number : v.IsNumber) (isNaN : v.isNaN? = .ok true) (plain : Bool) :
    v.Meets plain := by
  refine ⟨number, fun _ => ?_⟩
  cases number with
  | precise | constant => exact .inl rfl
  | float x =>
    cases x with
    | nan => exact .inr rfl
    | finite | infinity | zero => cases isNaN

end Value

namespace Operator

variable {p : Nat} {a b : Value} {plain plain' : Bool}

/-- Whether the result may be plain, if the operands may be or not. -/
def mayBePlain (op : Operator) (left right : Bool) : Bool :=
  match op with
  | add | subtract | multiply | divide | modulo => left && right
  | power => left || right
  | less | lessEqual | equal | greaterEqual | greater | notEqual | and | or => true

theorem evaluate_meets (ha : a.Meets plain) (hb : b.Meets plain') (op : Operator) :
    ∃ v, op.evaluate p a b = .ok v ∧ v.Meets (op.mayBePlain plain plain') := by
  apply Value.meets_of_keeps (op.evaluate_number ha.1 hb.1)
  have either (must : (plain && plain') = false) : a.IsPreciseOrInvalid ∨ b.IsPreciseOrInvalid := by
    rcases Bool.and_eq_false_iff.mp must with must | must
    · exact .inl (ha.2 must)
    · exact .inr (hb.2 must)
  intro must
  cases op with
  | add | subtract | multiply | divide | modulo => exact evaluate_precise (by decide) (either must)
  | power =>
    obtain ⟨left, right⟩ := Bool.or_eq_false_iff.mp must
    exact Value.keeps_recover (.inr rfl) (Value.power_precise (ha.2 left) (hb.2 right))
  | less | lessEqual | equal | greaterEqual | greater | notEqual | and | or => cases must

end Operator

end Formula
