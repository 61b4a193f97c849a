import Formula.Fault
import Formula.Number.Binary64Functions
import Formula.Number.Numeral

/-! Values of expressions and variables. The numeric mode is not kept beside a value: it follows
from the kinds of the operands, so that one precise operand makes an operation precise. -/
namespace Formula
open Number

/-- Constants without a fixed number of digits: they are taken to the precision in use. -/
inductive NamedConstant where
  | pi
  | e
deriving DecidableEq, Repr, Inhabited

def NamedConstant.value (p : Nat) : NamedConstant → Precise
  | pi => .pi p
  | e => .e p

inductive Value where
  | float (x : Binary64)
  | integer (n : Int)
  | precise (x : Precise)
  | constant (c : NamedConstant)
  | complex (re im : Precise)
  | text (s : String)
  | absent
deriving DecidableEq, Inhabited

namespace Value

def invalid : Value := .float .nan

def ofBool (b : Bool) : Value := .float (.ofBool b)

/-- Whether operations with this value are computed with the precision in use. -/
def isPrecise : Value → Bool
  | precise _ | constant _ | complex .. => true
  | _ => false

/-- The real number that the value is, exactly except for a named constant. -/
def real? (p : Nat) : Value → Option Precise
  | float x => some (.ofBinary64 x)
  | integer n => some (.ofInt n)
  | precise x => some x
  | constant c => some (c.value p)
  | _ => none

def parts? (p : Nat) : Value → Option (Precise × Precise)
  | complex re im => some (re, im)
  | v => (v.real? p).map fun x => (x, .zero)

/-- Whether the value is the invalid number. An integer has to be small enough to ask. -/
def isNaN? : Value → Except Fault Bool
  | float x => .ok x.isNaN
  | integer n => if (Binary64.ofInt? n).isSome then .ok false else .error .overflow
  | precise x => .ok x.isNaN
  | complex re im => .ok (re.isNaN || im.isNaN)
  | _ => .ok false

def isZero (p : Nat) (v : Value) : Bool :=
  match v.parts? p with
  | some (re, im) => re.isZero && im.isZero
  | none => false

def realOrInvalid : Value → Value
  | complex re im => if im.isZero then precise re else invalid
  | v => v

def complexText (digits : Nat) (re im : Precise) : String :=
  if im.signum < 0 then
    "(" ++ re.text digits ++ " - " ++ (im.neg (4 * digits + 64)).text digits ++ "j)"
  else "(" ++ re.text digits ++ " + " ++ im.text digits ++ "j)"

def toText (pr : Precision) : Value → String
  | float x => x.text
  | integer n => toString n
  | precise x => x.text pr.digits
  | constant c => (c.value pr.bits).text pr.digits
  | complex re im => complexText pr.digits re im
  | text s => s
  | absent => "None"

/-! Conversions -/

def toFloat? (p : Nat) : Value → Except Fault Binary64
  | float x => .ok x
  | integer n =>
    match Binary64.ofInt? n with
    | some x => .ok x
    | none => .error .overflow
  | precise x => .ok x.toBinary64
  | constant c => .ok (c.value p).toBinary64
  | complex .. | absent => .error .wrongKind
  | text s =>
    match Binary64.read? s.toList with
    | some x => .ok x
    | none => .error .malformedValue

/-- The value as an operand of 53 binary digits. No value counts as the invalid number. -/
def floatOperand? (p : Nat) : Value → Except Fault Binary64
  | absent => .ok .nan
  | v => v.toFloat? p

def readPrecise (p : Nat) (s : String) : Except Fault Precise :=
  match Precise.read p s with
  | .ok x => .ok x
  | .error .malformed => .error .malformedValue
  | .error .divisionByZero => .error .divisionByZero

/-- The value rounded to `p` binary digits; it may be the text of a number. -/
def toPrecise? (p : Nat) : Value → Except Fault Precise
  | text s => readPrecise p s
  | v =>
    match v.real? p with
    | some x => .ok (x.round p)
    | none => .error .wrongKind

/-- The value as an exact operand. A text counts if it denotes a number. -/
def preciseOperand? (p : Nat) : Value → Except Fault Precise
  | text s =>
    match readPrecise p s with
    | .error .malformedValue => .error .wrongKind
    | r => r
  | v =>
    match v.real? p with
    | some x => .ok x
    | none => .error .wrongKind

def convert (m : Mode) (p : Nat) (v : Value) : Except Fault Value :=
  match m with
  | .float => float <$> v.toFloat? p
  | .precise => precise <$> v.toPrecise? p

def ofNumeral (m : Mode) (p : Nat) (s : String) : Except Fault Value :=
  convert m p (.text s)

def zero : Mode → Value
  | .float => float (.zero false)
  | .precise => precise .zero

end Value

end Formula
