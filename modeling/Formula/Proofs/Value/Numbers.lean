import Formula.Operator

/-! Numbers among the values: floats, precise numbers and named constants. Operators take numbers to
numbers and never fault on them. -/
namespace Formula

open Number

/-- A real number, or one that stands for it. -/
inductive Value.IsNumber : Value → Prop
  | float (x : Binary64) : IsNumber (.float x)
  | precise (x : Precise) : IsNumber (.precise x)
  | constant (c : NamedConstant) : IsNumber (.constant c)

def GivesNumber (r : Except Fault Value) : Prop := ∃ v, r = .ok v ∧ v.IsNumber

namespace Value

variable {p : Nat} {a b : Value}

theorem givesNumber_float (x : Binary64) : GivesNumber (.ok (.float x)) := ⟨_, rfl, .float x⟩

theorem givesNumber_precise (x : Precise) : GivesNumber (.ok (.precise x)) := ⟨_, rfl, .precise x⟩

theorem meet?_number (ha : a.IsNumber) (hb : b.IsNumber) :
    (∃ x y, meet? p a b = .ok (.floats x y)) ∨ ∃ x y, meet? p a b = .ok (.precise x y) := by
  cases ha <;> cases hb
  case float.float x y => exact .inl ⟨x, y, rfl⟩
  all_goals exact .inr ⟨_, _, rfl⟩

theorem isNaN?_number (ha : a.IsNumber) : ∃ b, a.isNaN? = .ok b := by
  cases ha <;> exact ⟨_, rfl⟩

theorem floatOperand?_number (ha : a.IsNumber) : ∃ x, a.floatOperand? p = .ok x := by
  cases ha <;> exact ⟨_, rfl⟩

theorem preciseOperand?_number (ha : a.IsNumber) : ∃ x, a.preciseOperand? p = .ok x := by
  cases ha <;> exact ⟨_, rfl⟩

theorem toPrecise?_number (ha : a.IsNumber) : ∃ x, a.toPrecise? p = .ok x := by
  cases ha <;> exact ⟨_, rfl⟩

theorem abs_number (ha : a.IsNumber) : GivesNumber (a.abs p) := by
  cases ha
  · exact givesNumber_float _
  · exact givesNumber_precise _
  · exact givesNumber_precise _

theorem less_number (ha : a.IsNumber) (hb : b.IsNumber) : ∃ c, a.less p b = .ok c := by
  cases ha <;> cases hb <;> exact ⟨_, rfl⟩

theorem isPositive_number (ha : a.IsNumber) : ∃ c, a.isPositive p = .ok c := by
  cases ha <;> exact ⟨_, rfl⟩

theorem add_number (ha : a.IsNumber) (hb : b.IsNumber) : GivesNumber (a.add p b) := by
  have met := meet?_number (p := p) ha hb
  cases ha <;> cases hb <;> rcases met with ⟨x, y, met⟩ | ⟨x, y, met⟩ <;>
    simp only [add, met] <;> first | exact givesNumber_float _ | exact givesNumber_precise _

theorem sub_number (ha : a.IsNumber) (hb : b.IsNumber) : GivesNumber (a.sub p b) := by
  rcases meet?_number (p := p) ha hb with ⟨x, y, met⟩ | ⟨x, y, met⟩ <;> simp only [sub, met]
  · exact givesNumber_float _
  · exact givesNumber_precise _

theorem mul_number (ha : a.IsNumber) (hb : b.IsNumber) : GivesNumber (a.mul p b) := by
  have met := meet?_number (p := p) ha hb
  cases ha <;> cases hb <;> rcases met with ⟨x, y, met⟩ | ⟨x, y, met⟩ <;>
    simp only [mul, met] <;> first | exact givesNumber_float _ | exact givesNumber_precise _

theorem divide_number (ha : a.IsNumber) (hb : b.IsNumber) : GivesNumber (a.divide p b) := by
  obtain ⟨nan, isNaN⟩ := isNaN?_number ha
  obtain ⟨positive, isPositive⟩ := isPositive_number (p := p) ha
  obtain ⟨x, toPrecise⟩ := toPrecise?_number (p := p) ha
  obtain ⟨u, left⟩ := floatOperand?_number (p := p) ha
  obtain ⟨w, right⟩ := floatOperand?_number (p := p) hb
  simp only [divide, isNaN, isPositive, toPrecise, left, right]
  split
  · split
    · split
      · exact givesNumber_float .nan
      · cases nan
        · exact givesNumber_precise _
        · exact givesNumber_float .nan
    · cases hb <;> exact givesNumber_precise _
  · exact givesNumber_float _

theorem modulo_number (ha : a.IsNumber) (hb : b.IsNumber) : GivesNumber (a.modulo p b) := by
  obtain ⟨x, absA, numberA⟩ := abs_number (p := p) ha
  obtain ⟨y, absB, numberB⟩ := abs_number (p := p) hb
  obtain ⟨x', left⟩ := preciseOperand?_number (p := p) numberA
  obtain ⟨y', right⟩ := preciseOperand?_number (p := p) numberB
  have zero : ∃ c, (Value.integer 0).atMost p a = .ok c := by cases ha <;> exact ⟨_, rfl⟩
  obtain ⟨positive, atMost⟩ := zero
  obtain ⟨u, float⟩ := floatOperand?_number (p := p) ha
  obtain ⟨w, float'⟩ := floatOperand?_number (p := p) hb
  simp only [modulo, absA, absB, left, right, atMost, float, float', bind, Except.bind]
  split
  · split
    · exact givesNumber_float .nan
    · cases positive <;> exact givesNumber_precise _
  · exact givesNumber_float _

theorem recover_gives {r : Except Fault Value}
    (h : GivesNumber r ∨ ∃ f, r = .error f ∧ f.isNumeric) : GivesNumber (recover r) := by
  rcases h with ⟨v, rfl, hv⟩ | ⟨f, rfl, numeric⟩
  · exact ⟨v, rfl, hv⟩
  · simp only [recover, numeric, if_true]
    exact givesNumber_float .nan

theorem realOrInvalid_number (ha : a.IsNumber) : a.realOrInvalid = a := by
  cases ha <;> rfl

theorem realOrInvalid_complex (re im : Precise) : (complex re im).realOrInvalid.IsNumber := by
  simp only [realOrInvalid]
  split
  · exact .precise re
  · exact .float .nan

theorem ofOutcome_number (o : Option PreciseOutcome) : (ofOutcome o).IsNumber := by
  match o with
  | none => exact .float .nan
  | some (.real x) => exact .precise x
  | some (.complex z) => exact realOrInvalid_complex z.re z.im

/-- The result is a number as soon as the values that are not real are left out, unless there is a
numeric fault. -/
def GivesReal (r : Except Fault Value) : Prop :=
  (∃ v, r = .ok v ∧ v.realOrInvalid.IsNumber) ∨ ∃ f, r = .error f ∧ f.isNumeric

theorem givesReal_of_number {r : Except Fault Value} (h : GivesNumber r) : GivesReal r := by
  obtain ⟨v, same, hv⟩ := h
  exact .inl ⟨v, same, (realOrInvalid_number hv).symm ▸ hv⟩

theorem apply₂_number {rule : BinaryRule} (ha : a.IsNumber) (hb : b.IsNumber)
    (precise : GivesReal (rule.precise p a b)) : GivesNumber (apply₂ p rule a b) := by
  unfold apply₂
  split
  · refine recover_gives ?_
    rcases precise with ⟨v, same, hv⟩ | ⟨f, same, numeric⟩
    · exact .inl ⟨v.realOrInvalid, by rw [same]; rfl, hv⟩
    · exact .inr ⟨f, by rw [same]; rfl, numeric⟩
  · obtain ⟨x, left⟩ := floatOperand?_number (p := p) ha
    obtain ⟨y, right⟩ := floatOperand?_number (p := p) hb
    simp only [left, right]
    exact givesNumber_float _

/-- What a power of precise numbers may come to, whether they are complex or not. -/
inductive IsPower : Except Fault Value → Prop
  | real (x : Precise) : IsPower (.ok (.precise x))
  | complex (re im : Precise) : IsPower (.ok (.complex re im))
  | divisionByZero : IsPower (.error .divisionByZero)

theorem isPower_complex (p : Nat) (z w : PreciseComplex) :
    IsPower (precisePower.complexPower p z w) := by
  unfold precisePower.complexPower
  split
  · exact .complex _ _
  · exact .divisionByZero

theorem isPower_real (p : Nat) (x y : Precise) : IsPower (precisePower.power p x y) := by
  unfold precisePower.power
  split
  · exact .real _
  · exact isPower_complex p _ _
  · exact .divisionByZero

theorem IsPower.givesReal {r : Except Fault Value} (h : IsPower r) : GivesReal r := by
  cases h with
  | real x => exact givesReal_of_number (givesNumber_precise x)
  | complex re im => exact .inl ⟨_, rfl, realOrInvalid_complex re im⟩
  | divisionByZero => exact .inr ⟨_, rfl, rfl⟩

theorem precisePower_number (ha : a.IsNumber) (hb : b.IsNumber) :
    GivesReal (precisePower p a b) := by
  obtain ⟨x, left⟩ := preciseOperand?_number (p := p) ha
  obtain ⟨y, right⟩ := preciseOperand?_number (p := p) hb
  have same : precisePower p a b = precisePower.power p x y := by
    cases ha <;> cases hb <;> simp only [precisePower, left, right] <;> rfl
  rw [same]
  exact (isPower_real p x y).givesReal

theorem power_number (ha : a.IsNumber) (hb : b.IsNumber) : GivesNumber (a.power p b) :=
  apply₂_number ha hb (precisePower_number ha hb)

theorem distance_number (ha : a.IsNumber) (hb : b.IsNumber) : GivesNumber (a.distance p b) := by
  obtain ⟨v, same, hv⟩ := sub_number (p := p) ha hb
  simp only [distance, same]
  exact abs_number hv

theorem isNear_number (ha : a.IsNumber) (hb : b.IsNumber) : ∃ c, a.isNear p b = .ok c := by
  obtain ⟨v, same, hv⟩ := distance_number (p := p) ha hb
  simp only [isNear, same]
  exact less_number hv (.float _)

theorem isFar_number (ha : a.IsNumber) (hb : b.IsNumber) : ∃ c, a.isFar p b = .ok c := by
  obtain ⟨v, same, hv⟩ := distance_number (p := p) ha hb
  simp only [isFar, same]
  exact less_number (.float _) hv

theorem isNonzero_number (ha : a.IsNumber) : ∃ c, a.isNonzero p = .ok c := by
  obtain ⟨v, same, hv⟩ := abs_number (p := p) ha
  simp only [isNonzero, same]
  exact isPositive_number hv

end Value

namespace Operator

variable {p : Nat} {a b : Value}

theorem holds_number (ha : a.IsNumber) (hb : b.IsNumber) (op : Operator) :
    ∃ c, op.holds p a b = .ok c := by
  obtain ⟨l, less⟩ := Value.less_number (p := p) ha hb
  obtain ⟨m, more⟩ := Value.less_number (p := p) hb ha
  obtain ⟨n, near⟩ := Value.isNear_number (p := p) ha hb
  obtain ⟨x, left⟩ := Value.isNonzero_number (p := p) ha
  obtain ⟨y, right⟩ := Value.isNonzero_number (p := p) hb
  cases op <;> simp only [holds, less, more, near, left, right, bind, Except.bind]
  case notEqual => exact Value.isFar_number ha hb
  case lessEqual => cases l <;> exact ⟨_, rfl⟩
  case greaterEqual => cases m <;> exact ⟨_, rfl⟩
  case and => cases x <;> exact ⟨_, rfl⟩
  case or => cases x <;> exact ⟨_, rfl⟩
  all_goals exact ⟨_, rfl⟩

theorem apply_number (ha : a.IsNumber) (hb : b.IsNumber) (op : Operator) :
    GivesNumber (op.apply p a b) := by
  obtain ⟨c, holds⟩ := holds_number (p := p) ha hb op
  cases op
  case add => exact Value.add_number ha hb
  case subtract => exact Value.sub_number ha hb
  case multiply => exact Value.mul_number ha hb
  case divide => exact Value.divide_number ha hb
  case modulo => exact Value.modulo_number ha hb
  case power => exact Value.power_number ha hb
  all_goals
    simp only [apply, holds]
    exact Value.givesNumber_float _

theorem evaluate_number (ha : a.IsNumber) (hb : b.IsNumber) (op : Operator) :
    GivesNumber (op.evaluate p a b) := Value.recover_gives (.inl (apply_number ha hb op))

end Operator

end Formula
