import Formula.Operator
import Formula.Proofs.Number.Rounding
import Formula.Proofs.Number.Signs

/-! Opposite values. Products, quotients and remainders of the opposite of a number are opposite,
whatever the other operand is, and to take a number away is to add its opposite. -/
namespace Formula

open Number

namespace Value

def opposite : Value → Value
  | float x => .float x.neg
  | precise x => .precise x.opposite
  | complex re im => .complex re.opposite im.opposite
  | v => v

/-- A number of a kind that has opposites without rounding and to which no operation leads back. -/
def IsSigned : Value → Prop
  | float _ | precise _ | complex _ _ => True
  | _ => False

/-- Both operations fail alike, or they give a number and its opposite. -/
def AreOpposite (r r' : Except Fault Value) : Prop :=
  (∃ f, r = .error f ∧ r' = .error f) ∨ ∃ v, v.IsSigned ∧ r = .ok v ∧ r' = .ok v.opposite

theorem areOpposite_error (f : Fault) : AreOpposite (.error f) (.error f) := .inl ⟨f, rfl, rfl⟩

theorem areOpposite_float {x y : Binary64} (h : y = x.neg) :
    AreOpposite (.ok (.float x)) (.ok (.float y)) := .inr ⟨.float x, trivial, rfl, h ▸ rfl⟩

theorem areOpposite_precise {x y : Precise} (h : y = x.opposite) :
    AreOpposite (.ok (.precise x)) (.ok (.precise y)) := .inr ⟨.precise x, trivial, rfl, h ▸ rfl⟩

theorem areOpposite_invalid : AreOpposite (.ok invalid) (.ok invalid) := areOpposite_float rfl

section Operations

variable {p : Nat} {a : Value}

theorem isPrecise_opposite (a : Value) : a.opposite.isPrecise = a.isPrecise := by
  cases a <;> rfl

theorem isZero_opposite (a : Value) : a.opposite.isZero p = a.isZero p := by
  cases a with
  | float x =>
    cases x <;> simp [opposite, isZero, parts?, real?, Binary64.neg,
      Precise.ofBinary64, Precise.isZero]
  | precise x => simp [opposite, isZero, parts?, real?]
  | complex re im => simp [opposite, isZero, parts?]
  | integer | constant | text | absent => rfl

theorem isNaN?_opposite (a : Value) : a.opposite.isNaN? = a.isNaN? := by
  cases a with
  | float x => cases x <;> rfl
  | precise x => simp [opposite, isNaN?]
  | complex re im => simp [opposite, isNaN?]
  | integer | constant | text | absent => rfl

def turn (first second : Bool) : Operands → Operands
  | .integers m n => .integers m n
  | .floats x y => .floats (if first then x.neg else x) (if second then y.neg else y)
  | .precise x y => .precise (if first then x.opposite else x) (if second then y.opposite else y)
  | .complex a b c d =>
    .complex (if first then a.opposite else a) (if first then b.opposite else b)
      (if second then c.opposite else c) (if second then d.opposite else d)

/-- The operands of an operation are not two integers. -/
def IsMixed (r : Except Fault Operands) : Prop := ∀ m n, r ≠ .ok (.integers m n)

theorem meet?_opposite (signed : a.IsSigned) (b : Value) :
    meet? p a.opposite b = (meet? p a b).map (turn true false) ∧ IsMixed (meet? p a b) := by
  cases a with
  | integer | constant | text | absent => exact absurd signed id
  | float x =>
    cases b with
    | integer n =>
      simp only [meet?, opposite, isPrecise, plainFloat?, Bool.or_self,
        Bool.false_eq_true, if_false]
      cases toFloat? 0 (.integer n) <;> exact ⟨rfl, nofun⟩
    | float | text | absent => exact ⟨rfl, nofun⟩
    | precise | constant | complex =>
      simp only [meet?, opposite, isPrecise, real?, parts?, Bool.or_true, if_true,
        Precise.ofBinary64_neg]
      exact ⟨rfl, nofun⟩
  | precise x => cases b <;> exact ⟨rfl, nofun⟩
  | complex re im => cases b <;> exact ⟨rfl, nofun⟩

theorem meet?_opposite_right (signed : a.IsSigned) (b : Value) :
    meet? p b a.opposite = (meet? p b a).map (turn false true) ∧ IsMixed (meet? p b a) := by
  cases a with
  | integer | constant | text | absent => exact absurd signed id
  | float x =>
    cases b with
    | integer n =>
      simp only [meet?, opposite, isPrecise, plainFloat?, Bool.or_self,
        Bool.false_eq_true, if_false]
      cases toFloat? 0 (.integer n) <;> exact ⟨rfl, nofun⟩
    | float | text | absent => exact ⟨rfl, nofun⟩
    | precise | constant | complex =>
      simp only [meet?, opposite, isPrecise, real?, parts?, Bool.true_or, if_true,
        Precise.ofBinary64_neg]
      exact ⟨rfl, nofun⟩
  | precise x => cases b <;> exact ⟨rfl, nofun⟩
  | complex re im => cases b <;> exact ⟨rfl, nofun⟩

def sumOf (p : Nat) : Operands → Value
  | .integers m n => .integer (m + n)
  | .floats x y => .float (x.add y)
  | .precise x y => .precise (x.add p y)
  | .complex x x' y y' => .complex (x.add p y) (x'.add p y')

def differenceOf (p : Nat) : Operands → Value
  | .integers m n => .integer (m - n)
  | .floats x y => .float (x.sub y)
  | .precise x y => .precise (x.sub p y)
  | .complex x x' y y' => .complex (x.sub p y) (x'.sub p y')

def productOf (p : Nat) : Operands → Value
  | .integers m n => .integer (m * n)
  | .floats x y => .float (x.mul y)
  | .precise x y => .precise (x.mul p y)
  | .complex x x' y y' =>
    .complex ((x.mul (4 * p + 64) y).sub p (x'.mul (4 * p + 64) y'))
      ((x.mul (4 * p + 64) y').add p (x'.mul (4 * p + 64) y))

theorem sub_eq (a b : Value) : a.sub p b = (meet? p a b).map (differenceOf p) := by
  unfold sub
  cases meet? p a b with
  | error f => rfl
  | ok o => cases o <;> rfl

theorem add_eq (signed : a.IsSigned) (b : Value) : b.add p a = (meet? p b a).map (sumOf p) := by
  cases a with
  | integer | constant | text | absent => exact absurd signed id
  | float | precise | complex =>
    cases b <;> simp only [add] <;> generalize meet? p _ _ = met <;>
      cases met <;> first | rfl | rename_i o; cases o <;> rfl

theorem mul_eq (signed : a.IsSigned) (b : Value) : a.mul p b = (meet? p a b).map (productOf p) := by
  cases a with
  | integer | constant | text | absent => exact absurd signed id
  | float | precise | complex =>
    cases b <;> simp only [mul] <;> generalize meet? p _ _ = met <;>
      cases met <;> first | rfl | rename_i o; cases o <;> rfl

theorem isSigned_opposite (signed : a.IsSigned) : a.opposite.IsSigned := by
  cases a <;> first | exact trivial | exact absurd signed id

theorem sub_eq_add (signed : a.IsSigned) (b : Value) : b.sub p a = b.add p a.opposite := by
  obtain ⟨met, mixed⟩ := meet?_opposite_right (p := p) signed b
  rw [sub_eq, add_eq (isSigned_opposite signed), met]
  cases h : meet? p b a with
  | error f => rfl
  | ok o =>
    cases o with
    | integers m n => exact absurd h (mixed m n)
    | floats x y => rfl
    | precise | complex => simp [Except.map, differenceOf, sumOf, turn, Precise.sub_eq_add]

theorem mul_opposite (signed : a.IsSigned) (b : Value) :
    AreOpposite (a.mul p b) (a.opposite.mul p b) := by
  obtain ⟨met, mixed⟩ := meet?_opposite (p := p) signed b
  rw [mul_eq signed, mul_eq (isSigned_opposite signed), met]
  cases h : meet? p a b with
  | error f => exact areOpposite_error f
  | ok o =>
    cases o with
    | integers m n => exact absurd h (mixed m n)
    | floats x y => exact areOpposite_float (Binary64.mul_neg_left x y)
    | precise x y => exact areOpposite_precise (Precise.mul_opposite x y)
    | complex x x' y y' =>
      refine .inr ⟨productOf p (.complex x x' y y'), trivial, rfl, ?_⟩
      simp only [Except.map, turn, productOf, opposite, if_true, Bool.false_eq_true, if_false,
        Precise.mul_opposite, Precise.sub_opposite, Precise.add_opposite]

theorem quotient_opposite (signed : a.IsSigned) (b : Value) :
    AreOpposite (a.quotient p b) (a.opposite.quotient p b) := by
  obtain ⟨met, mixed⟩ := meet?_opposite (p := p) signed b
  unfold quotient
  rw [met]
  cases h : meet? p a b with
  | error f => exact areOpposite_error f
  | ok o =>
    cases o with
    | integers m n => exact absurd h (mixed m n)
    | complex => exact areOpposite_error .wrongKind
    | floats x y =>
      simp only [Except.map, turn, bind, Except.bind, if_true, Bool.false_eq_true, if_false]
      cases y.isZero with
      | true => exact areOpposite_error .divisionByZero
      | false => exact areOpposite_float (Binary64.div_neg_left x y)
    | precise x y =>
      simp only [Except.map, turn, bind, Except.bind, if_true, Bool.false_eq_true, if_false,
        Precise.div?_opposite]
      cases x.div? p y with
      | none => exact areOpposite_error .divisionByZero
      | some z => exact areOpposite_precise rfl

theorem areOpposite_floats {f : Binary64 → Binary64 → Binary64}
    (odd : ∀ x y, f x.neg y = (f x y).neg) (x : Binary64) (b : Value) :
    AreOpposite
      (do return .float (f (← (Value.float x).floatOperand? p) (← b.floatOperand? p)))
      (do
        return .float (f (← (Value.float x).opposite.floatOperand? p) (← b.floatOperand? p))) := by
  cases b.floatOperand? p with
  | error f => exact areOpposite_error f
  | ok y => exact areOpposite_float (odd x y)

theorem toPrecise?_opposite (signed : a.IsSigned) :
    a.opposite.toPrecise? p = (a.toPrecise? p).map Precise.opposite := by
  cases a with
  | integer | constant | text | absent => exact absurd signed id
  | float x =>
    have turned : (Precise.ofBinary64 x.neg).round p =
        ((Precise.ofBinary64 x).round p).opposite := by
      rw [Precise.ofBinary64_neg, Precise.round_opposite]
    exact congrArg Except.ok turned
  | precise x => exact congrArg Except.ok (Precise.round_opposite x)
  | complex => rfl

theorem isPositive_real {x : Precise} (real : a.real? p = some x) :
    a.isPositive p = .ok ((Precise.ofInt 0).lt x) := by
  cases a with
  | text | absent | complex => cases real
  | float | integer | precise | constant =>
    cases real
    rfl

theorem areOpposite_infinity (signed : a.IsSigned) (nonzero : a.isZero p = false)
    (number : a.isNaN? = .ok false) :
    AreOpposite (do return .precise (.infinity !(← a.isPositive p)))
      (do return .precise (.infinity !(← a.opposite.isPositive p))) := by
  have turned {x : Precise} (real : a.real? p = some x)
      (real' : a.opposite.real? p = some x.opposite)
      (number : x.isNaN = false) (nonzero : x.isZero = false) :
      AreOpposite (do return .precise (.infinity !(← a.isPositive p)))
        (do return .precise (.infinity !(← a.opposite.isPositive p))) := by
    rw [isPositive_real real, isPositive_real real', Precise.lt_opposite number nonzero]
    exact areOpposite_precise rfl
  cases a with
  | integer | constant | text | absent => exact absurd signed id
  | complex => exact areOpposite_error .wrongKind
  | float x =>
    refine turned rfl (congrArg some (Precise.ofBinary64_neg x)) ?_ ?_
    · cases x <;> first | rfl | cases number
    · simpa [isZero, parts?, real?, Precise.isZero, Precise.zero] using nonzero
  | precise x =>
    refine turned rfl rfl ?_ ?_
    · exact Except.ok.inj number
    · simpa [isZero, parts?, real?, Precise.isZero, Precise.zero] using nonzero

theorem divide_opposite (signed : a.IsSigned) (b : Value) :
    AreOpposite (a.divide p b) (a.opposite.divide p b) := by
  unfold divide
  rw [isPrecise_opposite, isZero_opposite, isNaN?_opposite]
  by_cases precise : a.isPrecise || b.isPrecise
  · rw [if_pos precise, if_pos precise]
    by_cases zero : b.isZero p
    · simp only [zero, if_true]
      cases nonzero : a.isZero p with
      | true => exact areOpposite_invalid
      | false =>
        simp only [Bool.false_eq_true, if_false]
        cases number : a.isNaN? with
        | error f => exact areOpposite_error f
        | ok none =>
          cases none with
          | true => exact areOpposite_invalid
          | false => exact areOpposite_infinity signed nonzero number
    · simp only [zero]
      rw [toPrecise?_opposite signed]
      cases a.toPrecise? p with
      | error f => exact areOpposite_error f
      | ok x =>
        cases b with
        | complex y y' =>
          refine .inr ⟨.complex _ _, trivial, rfl, ?_⟩
          simp only [bind, Except.bind, Except.map, Bool.false_eq_true, if_false,
            Precise.mul_opposite, Precise.div?_opposite, Precise.getD_opposite,
            Precise.neg_opposite]
          rfl
        | text | absent => exact areOpposite_error .wrongKind
        | float | integer | precise | constant =>
          apply areOpposite_precise
          simp only [Precise.div?_opposite, Precise.getD_opposite]
  · rw [if_neg precise, if_neg precise]
    cases a with
    | integer | constant | text | absent => exact absurd signed id
    | precise | complex => exact absurd rfl precise
    | float x => exact areOpposite_floats Binary64.div_neg_left x b

def signedRemainder (p : Nat) (x y : Precise) : Precise :=
  if (Precise.ofInt 0).le x then (x.abs p).floorMod p y else ((x.abs p).floorMod p y).neg p

theorem signedRemainder_opposite (pos : 0 < p) (x y : Precise) :
    signedRemainder p x.opposite y = (signedRemainder p x y).opposite := by
  unfold signedRemainder
  rw [Precise.abs_opposite]
  cases number : x.isNaN with
  | true =>
    have nan : x = .nan := by cases x <;> first | rfl | cases number
    subst nan
    cases y <;> rfl
  | false =>
    cases nonzero : x.isZero with
    | true =>
      have zero : x = .zero := by
        cases x with
        | nan | infinity => cases nonzero
        | finite x => exact congrArg Precise.finite (by simpa [Precise.isZero] using nonzero)
      subst zero
      cases y <;> rfl
    | false =>
      -- The size is rounded before the division, so the remainder needs no further rounding.
      have rounded : (x.abs p).round p = x.abs p := by
        cases x with
        | nan | infinity => rfl
        | finite x => exact congrArg Precise.finite (roundTo_roundTo pos _)
      have negated : ((x.abs p).floorMod p y).neg p = ((x.abs p).floorMod p y).opposite := by
        rw [Precise.neg_eq, Precise.floorMod_round pos rounded]
      rw [Precise.le_opposite number nonzero, negated]
      cases (Precise.ofInt 0).le x <;> simp

theorem modulo_opposite (pos : 0 < p) (signed : a.IsSigned) (b : Value)
    (uniform : a.isPrecise ∨ a = invalid ∨ b.isPrecise = false) :
    AreOpposite (a.modulo p b) (a.opposite.modulo p b) := by
  unfold modulo
  rw [isPrecise_opposite]
  by_cases precise : a.isPrecise || b.isPrecise
  · rw [if_pos precise, if_pos precise]
    by_cases zero : b.isZero p
    · simp only [zero, if_true]
      exact areOpposite_invalid
    · simp only [zero]
      cases size : b.abs p with
      | error f =>
        cases a with
        | integer | constant | text | absent => exact absurd signed id
        | float | precise | complex => exact areOpposite_error f
      | ok w =>
        cases operand : w.preciseOperand? p with
        | error f =>
          cases a with
          | integer | constant | text | absent => exact absurd signed id
          | float | precise | complex =>
            simp only [Bool.false_eq_true, if_false, bind, Except.bind, operand]
            exact areOpposite_error f
        | ok y =>
          cases a with
          | integer | constant | text | absent => exact absurd signed id
          | complex =>
            simp only [Bool.false_eq_true, if_false, bind, Except.bind, operand]
            exact areOpposite_error .wrongKind
          -- A plain number and a precise divisor: by `uniform` the number is the invalid one.
          | float x =>
            obtain rfl : x = .nan := by
              rcases uniform with precise' | invalid | plain
              · cases precise'
              · exact Value.float.inj invalid
              · rw [plain] at precise
                cases precise
            simp only [Bool.false_eq_true, if_false, bind, Except.bind, operand]
            cases y <;> exact areOpposite_precise rfl
          | precise x =>
            have order (z : Precise) :
                (Value.integer 0).atMost p (.precise z) = .ok ((Precise.ofInt 0).le z) := rfl
            have result := areOpposite_precise (signedRemainder_opposite pos x y)
            simp only [Bool.false_eq_true, if_false, bind, Except.bind, operand, opposite, order]
            unfold signedRemainder at result
            -- The remainder takes its sign from the test on each dividend.
            cases sign : (Precise.ofInt 0).le x
              <;> cases sign' : (Precise.ofInt 0).le x.opposite <;>
              rw [sign, sign'] at result <;> exact result
  · rw [if_neg precise, if_neg precise]
    cases a with
    | integer | constant | text | absent => exact absurd signed id
    | precise | complex => exact absurd rfl precise
    | float x => exact areOpposite_floats Binary64.mod_neg_left x b

theorem areOpposite_recover {r r' : Except Fault Value} (h : AreOpposite r r') :
    AreOpposite (recover r) (recover r') := by
  rcases h with ⟨f, rfl, rfl⟩ | ⟨v, signed, rfl, rfl⟩
  · simp only [recover]
    split
    · exact areOpposite_invalid
    · exact areOpposite_error f
  · exact .inr ⟨v, signed, rfl, rfl⟩

end Operations

end Value

namespace Operator

variable {p : Nat} {a : Value}

open Value

/-- Operators of products treat both signs of their first operand alike. -/
theorem evaluate_opposite {op : Operator} (product : op.priority = 4) (pos : 0 < p)
    (signed : a.IsSigned) (b : Value) (uniform : a.isPrecise ∨ a = invalid ∨ b.isPrecise = false) :
    AreOpposite (op.evaluate p a b) (op.evaluate p a.opposite b) := by
  apply areOpposite_recover
  cases op with
  | multiply => exact mul_opposite signed b
  | divide => exact divide_opposite signed b
  | modulo => exact modulo_opposite pos signed b uniform
  | _ => cases product

theorem evaluate_subtract (signed : a.IsSigned) (b : Value) :
    subtract.evaluate p b a = add.evaluate p b a.opposite :=
  congrArg recover (sub_eq_add signed b)

end Operator

end Formula
