import Formula.Number.Rounding

/-! Decimal digits of positive dyadic numbers. -/
namespace Formula.Number

def fraction : Dyadic → Nat × Nat
  | .zero => (0, 1)
  | .ofOdd n k _ => (n.natAbs * twoTo (-k).toNat, twoTo k.toNat)

def atLeastPowerOfTen (x : Dyadic) (e : Int) : Bool :=
  let (num, den) := fraction x
  tenTo e.toNat * den ≤ num * tenTo (-e).toNat

/-- The exponent of the leading decimal digit. The first guess from the leading binary digit is at
most one too small or too large. -/
def decimalExponent (x : Dyadic) : Int :=
  let guess := leading x * 30103 / 100000
  if atLeastPowerOfTen x (guess + 1) then guess + 1
  else if atLeastPowerOfTen x guess then guess
  else guess - 1

def decimalUnits (x : Dyadic) (g : Int) : Nat :=
  let (num, den) := fraction x
  num * tenTo (-g).toNat / (den * tenTo g.toNat)

def digitsOf (n : Nat) : List Char := Nat.toDigits 10 n

def dropTrailingZeros (ds : List Char) : List Char :=
  match ds.reverse.dropWhile (· == '0') with
  | [] => ['0']
  | rs => rs.reverse

/-- Decimal digits, the first of which has the given exponent. -/
structure Digits where
  digits : List Char
  exponent : Int
deriving DecidableEq, Inhabited

/-- The first `d` decimal digits of a positive number. A digit of five or more after them goes
up. -/
def roundedDigits (d : Nat) (x : Dyadic) : Digits :=
  let e := decimalExponent x
  let n := (decimalUnits x (e - d) + 5) / 10
  let ds := digitsOf n
  { digits := ds.take d, exponent := e + (ds.length - d : Nat) }

end Formula.Number
