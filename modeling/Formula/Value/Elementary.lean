import Formula.Number.Complex
import Formula.Value.Arithmetic

/-! Elementary functions of values. Each is given by a rule for numbers of 53 binary digits and a
rule for precise numbers; the operands decide which of them is used. A precise rule may come to a
complex number, also for real operands; where the outcome is not real, the value is the invalid
number. -/
namespace Formula
open Number

/-- What a precise rule comes to. A complex number remains one, even if its imaginary part is
zero. -/
inductive PreciseOutcome where
  | real (x : Precise)
  | complex (z : PreciseComplex)
deriving DecidableEq, Inhabited

def PreciseOutcome.toValue : PreciseOutcome → Value
  | real x => .precise x
  | complex z => .complex z.re z.im

/-- A function of one number. The precise rules have no outcome where they cannot be computed. -/
structure UnaryRule where
  float : Binary64 → Binary64
  precise : Nat → Precise → Option PreciseOutcome
  complex : Nat → PreciseComplex → Option PreciseOutcome

/-- A function of two numbers. The precise rule takes the operands as they are. -/
structure BinaryRule where
  float : Binary64 → Binary64 → Binary64
  precise : Nat → Value → Value → Except Fault Value

namespace Value

/-- The invalid number in place of a numeric fault. -/
def recover (r : Except Fault Value) : Except Fault Value :=
  match r with
  | .error f => if f.isNumeric then .ok invalid else .error f
  | .ok v => .ok v

def ofOutcome : Option PreciseOutcome → Value
  | some o => o.toValue.realOrInvalid
  | none => invalid

/-- The value of a function. What is no number has the invalid number as its value. -/
def apply (p : Nat) (rule : UnaryRule) : Value → Value
  | precise x => ofOutcome (rule.precise p x)
  | constant c => ofOutcome (rule.precise p (c.value p))
  | complex re im => ofOutcome (rule.complex p ⟨re, im⟩)
  | v =>
    match v.floatOperand? p with
    | .ok x => .float (rule.float x)
    | .error _ => invalid

def apply₂ (p : Nat) (rule : BinaryRule) (a b : Value) : Except Fault Value :=
  if a.isPrecise || b.isPrecise then recover (realOrInvalid <$> rule.precise p a b)
  else match a.floatOperand? p, b.floatOperand? p with
    | .ok x, .ok y => .ok (.float (rule.float x y))
    | _, _ => .ok invalid

/-- The power of precise operands. It is complex if an operand is, and if the base is negative and
the exponent is no integer. -/
def precisePower (p : Nat) (a b : Value) : Except Fault Value :=
  match a, b with
  | .complex x x', .complex y y' => complexPower ⟨x, x'⟩ ⟨y, y'⟩
  | .complex x x', b => do complexPower ⟨x, x'⟩ (.ofReal (← b.preciseOperand? p))
  | a, .complex y y' => do complexPower (.ofReal (← a.preciseOperand? p)) ⟨y, y'⟩
  | a, b => do power (← a.preciseOperand? p) (← b.preciseOperand? p)
where
  complexPower (z w : PreciseComplex) : Except Fault Value :=
    match z.pow? p w with
    | some u => .ok (.complex u.re u.im)
    | none => .error .divisionByZero
  power (x y : Precise) : Except Fault Value :=
    match x.pow? p y with
    | .ok z => .ok (.precise z)
    | .error .complex => complexPower (.ofReal x) (.ofReal y)
    | .error .divisionByZero => .error .divisionByZero

def preciseAngle (p : Nat) (y x : Value) : Except Fault Value :=
  match y, x with
  | .complex .., _ => .error .missingFeature
  | _, .complex .. => .error .missingFeature
  | y, x => do
    -- The second coordinate is converted first, so its fault comes first.
    let x ← x.preciseOperand? p
    return .precise (Precise.atan2 p (← y.preciseOperand? p) x)

end Value

namespace UnaryRule

/-- A function that is computed with real numbers where it is real, and with complex ones
elsewhere. -/
def extended (float : Binary64 → Binary64) (real? : Nat → Precise → Option Precise)
    (complex : Nat → PreciseComplex → Option PreciseComplex) : UnaryRule :=
  { float
    precise := fun p x =>
      match real? p x with
      | some y => some (.real y)
      | none => (complex p (.ofReal x)).map .complex
    complex := fun p z => (complex p z).map .complex }

/-- A function that is real for all real numbers. -/
def entire (float : Binary64 → Binary64) (real : Nat → Precise → Precise)
    (complex : Nat → PreciseComplex → PreciseComplex) : UnaryRule :=
  extended float (fun p x => some (real p x)) fun p z => some (complex p z)

def sin : UnaryRule := entire Binary64.sin Precise.sin PreciseComplex.sin
def cos : UnaryRule := entire Binary64.cos Precise.cos PreciseComplex.cos
def tan : UnaryRule := extended Binary64.tan (fun p x => some (x.tan p)) PreciseComplex.tan
def sinh : UnaryRule := entire Binary64.sinh Precise.sinh PreciseComplex.sinh
def cosh : UnaryRule := entire Binary64.cosh Precise.cosh PreciseComplex.cosh
def tanh : UnaryRule := extended Binary64.tanh (fun p x => some (x.tanh p)) PreciseComplex.tanh
def asin : UnaryRule := extended Binary64.asin Precise.asin? (PreciseComplex.inverse · .sine)
def acos : UnaryRule := extended Binary64.acos Precise.acos? (PreciseComplex.inverse · .cosine)
def atan : UnaryRule := entire Binary64.atan Precise.atan PreciseComplex.atan
def exp : UnaryRule := entire Binary64.exp Precise.exp PreciseComplex.exp
def ln : UnaryRule := extended Binary64.ln Precise.ln? fun p z => some (z.ln p)
def sqrt : UnaryRule := extended Binary64.sqrt Precise.sqrt? PreciseComplex.sqrt

def ceil : UnaryRule := entire Binary64.ceil Precise.ceil fun p z => ⟨z.re.ceil p, z.im.ceil p⟩
def floor : UnaryRule := entire Binary64.floor Precise.floor fun p z => ⟨z.re.floor p, z.im.floor p⟩

/-- The number plus one half, rounded down; of a complex number the real part. -/
def round : UnaryRule :=
  entire Binary64.round half fun p z => ⟨half p z.re, z.im.floor p⟩
where
  half (p : Nat) (x : Precise) : Precise := (x.add p (.finite (powerOfTwo (-1)))).floor p

def log10 : UnaryRule :=
  extended Binary64.log10
    (fun p x => do (← Precise.ln? (p + 20) x).div? p (← ten p))
    fun p z => do (z.ln (p + 20)).divided? p (← ten p)
where
  ten (p : Nat) : Option Precise := Precise.ln? (p + 20) (.ofInt 10)

def degrees : UnaryRule :=
  extended Binary64.degrees (fun p x => x.div? p (.degree p)) fun p z => z.divided? p (.degree p)

def radians : UnaryRule :=
  entire Binary64.radians (fun p x => x.mul p (.degree p)) fun p z => z.scaled p (.degree p)

def abs : UnaryRule :=
  { float := Binary64.abs
    precise := fun p x => some (.real (x.abs p))
    complex := fun p z => some (.real (z.re.hypot p z.im)) }

/-- One with the sign of the number. Zero and the invalid number stay as they are. A complex number
is divided by its absolute value. -/
def sign : UnaryRule :=
  { float := Binary64.sign
    precise := fun _ x => some (.real (if x.isNaN then x else .ofInt x.signum))
    complex := fun p z =>
      if (z.re.isZero && z.im.isZero) || z.re.isNaN || z.im.isNaN then some (.complex z)
      else (z.divided? p (z.re.hypot p z.im)).map .complex }

end UnaryRule

namespace BinaryRule

def power : BinaryRule := ⟨Binary64.pow, Value.precisePower⟩

/-- The angle of a point, of which the second coordinate comes first. -/
def angle : BinaryRule := ⟨Binary64.atan2, Value.preciseAngle⟩

def least : BinaryRule := ⟨Binary64.min, Value.least⟩

def greatest : BinaryRule := ⟨Binary64.max, Value.greatest⟩

end BinaryRule

def Value.power (p : Nat) (a b : Value) : Except Fault Value := apply₂ p .power a b

end Formula
