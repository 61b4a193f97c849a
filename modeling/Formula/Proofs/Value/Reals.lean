import Formula.Proofs.Value.Numbers

/-! Real numbers of all kinds, integers of any size among them. An operation on them has a real
number as its result, or a numeric fault, so that operators never fault. -/
namespace Formula

open Number

namespace Value

inductive IsReal : Value → Prop
  | float (x : Binary64) : IsReal (.float x)
  | integer (n : Int) : IsReal (.integer n)
  | precise (x : Precise) : IsReal (.precise x)
  | constant (c : NamedConstant) : IsReal (.constant c)

theorem IsNumber.isReal {v : Value} (h : v.IsNumber) : v.IsReal := by
  cases h with
  | float x => exact .float x
  | precise x => exact .precise x
  | constant c => exact .constant c

/-- An integer that is too large to be a number of 53 binary digits. -/
def IsHuge (v : Value) : Prop := ∃ n, v = .integer n ∧ Binary64.ofInt? n = none

/-- The result satisfies `P`, unless there is a numeric fault. -/
def Tame {α : Type} (P : α → Prop) : Except Fault α → Prop
  | .ok a => P a
  | .error f => f.isNumeric

section Tame

variable {α β : Type} {P : α → Prop} {Q : β → Prop} {r : Except Fault α}

theorem tame_bind (h : Tame P r) {f : α → Except Fault β} (next : ∀ a, P a → Tame Q (f a)) :
    Tame Q (r >>= f) := by
  cases r with
  | error e => exact h
  | ok a => exact next a h

theorem tame_map (h : Tame P r) {f : α → β} (next : ∀ a, P a → Q (f a)) : Tame Q (f <$> r) := by
  cases r with
  | error e => exact h
  | ok a => exact next a h

theorem recover_tame {r : Except Fault Value} (h : Tame IsReal r) :
    ∃ v, recover r = .ok v ∧ v.IsReal := by
  cases r with
  | ok v => exact ⟨v, rfl, h⟩
  | error f =>
    have numeric : f.isNumeric = true := h
    simp only [recover, numeric, if_true]
    exact ⟨invalid, rfl, .float .nan⟩

end Tame

variable {p : Nat} {a b : Value}

section Operands

variable (ha : a.IsReal)
include ha

theorem real?_real (p : Nat) : ∃ x, a.real? p = some x := by
  cases ha <;> exact ⟨_, rfl⟩

theorem isNaN?_real : (∃ nan, a.isNaN? = .ok nan) ∨ a.IsHuge ∧ a.isNaN? = .error .overflow := by
  cases ha with
  | float | precise | constant => exact .inl ⟨_, rfl⟩
  | integer n =>
    cases small : Binary64.ofInt? n with
    | some x => exact .inl ⟨false, by simp [isNaN?, small]⟩
    | none => exact .inr ⟨⟨n, rfl, small⟩, by simp [isNaN?, small]⟩

theorem isNaN?_tame : Tame (fun _ => True) a.isNaN? := by
  rcases isNaN?_real ha with ⟨nan, same⟩ | ⟨_, same⟩ <;> rw [same]
  · trivial
  · rfl

theorem floatOperand?_tame : Tame (fun _ => True) (a.floatOperand? p) := by
  cases ha with
  | float | precise | constant => trivial
  | integer n =>
    simp only [floatOperand?, toFloat?]
    split
    · trivial
    · rfl

theorem plainFloat?_tame (plain : a.isPrecise = false) : Tame (fun _ => True) a.plainFloat? := by
  cases ha with
  | precise | constant => cases plain
  | float => trivial
  | integer n =>
    simp only [plainFloat?, toFloat?]
    split
    · trivial
    · rfl

theorem toPrecise?_tame : Tame (fun _ => True) (a.toPrecise? p) := by
  cases ha <;> trivial

theorem preciseOperand?_tame : Tame (fun _ => True) (a.preciseOperand? p) := by
  cases ha <;> trivial

theorem abs_tame : Tame IsReal (a.abs p) := by
  cases ha with
  | float => exact .float _
  | integer => exact .integer _
  | precise | constant => exact .precise _

theorem isPositive_tame : Tame (fun _ => True) (a.isPositive p) := by
  cases ha <;> trivial

theorem isNonzero_real (p : Nat) : ∃ nonzero, a.isNonzero p = .ok nonzero := by
  cases ha <;> exact ⟨_, rfl⟩

theorem isNonzero_tame : Tame (fun _ => True) (a.isNonzero p) := by
  obtain ⟨nonzero, same⟩ := isNonzero_real ha p
  rw [same]
  trivial

theorem realOrInvalid_real : a.realOrInvalid.IsReal := by
  have same : a.realOrInvalid = a := by cases ha <;> rfl
  rwa [same]

end Operands

theorem tame_realOrInvalid {r : Except Fault Value} (h : Tame IsReal r) :
    Tame (·.realOrInvalid.IsReal) r := by
  cases r with
  | error f => exact h
  | ok v => exact realOrInvalid_real h

theorem IsPower.tame {r : Except Fault Value} (h : IsPower r) :
    Tame (·.realOrInvalid.IsReal) r := by
  cases h with
  | real x => exact .precise x
  | complex re im => exact (realOrInvalid_complex re im).isReal
  | divisionByZero => rfl

/-- A function of two numbers has a real value, whatever the faults of its rule are, if the values
of the rule are real or else left out as not real. -/
theorem apply₂_real {rule : BinaryRule}
    (precise : Tame (·.realOrInvalid.IsReal) (rule.precise p a b)) :
    ∃ v, apply₂ p rule a b = .ok v ∧ v.IsReal := by
  unfold apply₂
  split
  · exact recover_tame (tame_map precise fun _ hv => hv)
  · split
    · exact ⟨_, rfl, .float _⟩
    · exact ⟨_, rfl, .float .nan⟩

section Operations

variable (ha : a.IsReal) (hb : b.IsReal)
include ha hb

theorem less_tame : Tame (fun _ => True) (a.less p b) := by
  cases ha <;> cases hb <;> trivial

theorem atMost_tame : Tame (fun _ => True) (a.atMost p b) := by
  cases ha <;> cases hb <;> trivial

theorem meet?_tame : Tame (fun o => ∀ x x' y y', o ≠ .complex x x' y y') (meet? p a b) := by
  obtain ⟨x, left⟩ := real?_real ha p
  obtain ⟨y, right⟩ := real?_real hb p
  unfold meet?
  split
  · intro _ _ _ _ same
    cases same
  · cases plain : a.isPrecise || b.isPrecise with
    | true =>
      rw [if_pos rfl, left, right]
      intro _ _ _ _ same
      cases same
    | false =>
      obtain ⟨plain, plain'⟩ := Bool.or_eq_false_iff.mp plain
      rw [if_neg Bool.false_ne_true]
      refine tame_bind (plainFloat?_tame ha plain) fun u _ => ?_
      apply tame_map (plainFloat?_tame hb plain')
      intro w _ _ _ _ _ same
      cases same

theorem add_tame : Tame IsReal (a.add p b) := by
  unfold add
  split
  · cases ha
  · refine tame_bind (meet?_tame ha hb) fun o real => ?_
    cases o with
    | integers => exact .integer _
    | floats => exact .float _
    | precise => exact .precise _
    | complex x x' y y' => exact absurd rfl (real x x' y y')

theorem sub_tame : Tame IsReal (a.sub p b) := by
  refine tame_bind (meet?_tame ha hb) fun o real => ?_
  cases o with
  | integers => exact .integer _
  | floats => exact .float _
  | precise => exact .precise _
  | complex x x' y y' => exact absurd rfl (real x x' y y')

theorem mul_tame : Tame IsReal (a.mul p b) := by
  unfold mul
  split
  · cases ha
  · cases hb
  · refine tame_bind (meet?_tame ha hb) fun o real => ?_
    cases o with
    | integers => exact .integer _
    | floats => exact .float _
    | precise => exact .precise _
    | complex x x' y y' => exact absurd rfl (real x x' y y')

theorem divide_tame : Tame IsReal (a.divide p b) := by
  unfold divide
  split
  · split
    · split
      · exact .float .nan
      · refine tame_bind (isNaN?_tame ha) fun nan _ => ?_
        cases nan with
        | true => exact .float .nan
        | false => exact tame_map (isPositive_tame ha) fun _ _ => .precise _
    · refine tame_bind (toPrecise?_tame ha) fun x _ => ?_
      cases hb <;> exact .precise _
  · refine tame_bind (floatOperand?_tame ha) fun x _ => ?_
    exact tame_map (floatOperand?_tame hb) fun y _ => .float _

theorem modulo_tame : Tame IsReal (a.modulo p b) := by
  unfold modulo
  split
  · split
    · exact .float .nan
    · refine tame_bind (abs_tame ha) fun u hu => tame_bind (preciseOperand?_tame hu) fun x _ => ?_
      refine tame_bind (abs_tame hb) fun w hw => tame_bind (preciseOperand?_tame hw) fun y _ => ?_
      refine tame_bind (atMost_tame (.integer 0) ha) fun positive _ => ?_
      cases positive <;> exact .precise _
  · refine tame_bind (floatOperand?_tame ha) fun x _ => ?_
    exact tame_map (floatOperand?_tame hb) fun y _ => .float _

theorem least_tame : Tame IsReal (a.least p b) := by
  refine tame_bind (less_tame hb ha) fun less _ => ?_
  cases less
  · exact ha
  · exact hb

theorem greatest_tame : Tame IsReal (a.greatest p b) := by
  refine tame_bind (less_tame ha hb) fun less _ => ?_
  cases less
  · exact ha
  · exact hb

theorem preciseAngle_tame : Tame IsReal (preciseAngle p a b) := by
  unfold preciseAngle
  split
  · cases ha
  · cases hb
  · refine tame_bind (preciseOperand?_tame hb) fun x _ => ?_
    exact tame_map (preciseOperand?_tame ha) fun y _ => .precise _

theorem precisePower_tame : Tame (·.realOrInvalid.IsReal) (precisePower p a b) := by
  unfold precisePower
  split
  · cases ha
  · cases ha
  · cases hb
  · refine tame_bind (preciseOperand?_tame ha) fun x _ =>
      tame_bind (preciseOperand?_tame hb) fun y _ => ?_
    exact (isPower_real p x y).tame

theorem power_tame : Tame IsReal (a.power p b) := by
  have precise : Tame (·.realOrInvalid.IsReal) (BinaryRule.power.precise p a b) :=
    precisePower_tame ha hb
  obtain ⟨v, same, hv⟩ := apply₂_real precise
  rw [power, same]
  exact hv

theorem distance_tame : Tame IsReal (a.distance p b) :=
  tame_bind (sub_tame ha hb) fun _ hv => abs_tame hv

theorem isNear_tame : Tame (fun _ => True) (a.isNear p b) :=
  tame_bind (distance_tame ha hb) fun _ hv => less_tame hv (.float _)

theorem isFar_tame : Tame (fun _ => True) (a.isFar p b) :=
  tame_bind (distance_tame ha hb) fun _ hv => less_tame (.float _) hv

end Operations

theorem apply_real (rule : UnaryRule) (ha : a.IsReal) : (a.apply p rule).IsReal := by
  cases ha with
  | float x => exact .float _
  | precise x => exact (ofOutcome_number _).isReal
  | constant c => exact (ofOutcome_number _).isReal
  | integer n =>
    simp only [apply]
    split
    · exact .float _
    · exact .float .nan

end Value

namespace Operator

variable {p : Nat} {a b : Value}

open Value

theorem holds_tame (ha : a.IsReal) (hb : b.IsReal) (op : Operator) :
    Tame (fun _ => True) (op.holds p a b) := by
  have near {c d : Bool} (r : Except Fault Bool) (h : Tame (fun _ => True) r) :
      Tame (fun _ => True) (if c then pure d else r) := by
    cases c
    · exact h
    · trivial
  cases op with
  | less => exact less_tame ha hb
  | equal => exact isNear_tame ha hb
  | greater => exact less_tame hb ha
  | notEqual => exact isFar_tame ha hb
  | lessEqual => exact tame_bind (less_tame ha hb) fun _ _ => near _ (isNear_tame ha hb)
  | greaterEqual => exact tame_bind (less_tame hb ha) fun _ _ => near _ (isNear_tame ha hb)
  | or => exact tame_bind (isNonzero_tame ha) fun _ _ => near _ (isNonzero_tame hb)
  -- the second operand counts only if the first one is not zero
  | and =>
    refine tame_bind (isNonzero_tame ha) fun nonzero _ => ?_
    cases nonzero
    · trivial
    · exact isNonzero_tame hb
  | add | subtract | multiply | divide | modulo | power => trivial

theorem evaluate_real (ha : a.IsReal) (hb : b.IsReal) (op : Operator) :
    ∃ v, op.evaluate p a b = .ok v ∧ v.IsReal := by
  apply recover_tame
  cases op with
  | add => exact add_tame ha hb
  | subtract => exact sub_tame ha hb
  | multiply => exact mul_tame ha hb
  | divide => exact divide_tame ha hb
  | modulo => exact modulo_tame ha hb
  | power => exact power_tame ha hb
  | less | lessEqual | equal | greaterEqual | greater | notEqual | and | or =>
    exact tame_map (holds_tame ha hb _) fun _ _ => .float _

end Operator

end Formula
