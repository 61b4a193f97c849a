import Formula.Number.Rounding

/-! Binary numbers of 53 digits: signed zeros, infinities, an invalid number, and all dyadic numbers
of 53 binary digits whose exponents are in range. Each operation rounds the exact result to the
nearest of them, and to the one with an even last digit of two. -/
namespace Formula.Number

inductive Binary64 where
  | nan
  | infinity (negative : Bool)
  | zero (negative : Bool)
  | finite (x : Dyadic) (nonzero : x ≠ 0)
deriving DecidableEq, Inhabited

namespace Binary64

/-- The sign of a dyadic number that is too small or too large goes to the zero or infinity. -/
def ofDyadic (x : Dyadic) : Binary64 :=
  if x = 0 then .zero false
  else if 1024 < leading x then .infinity (isNegative x)
  else if leading x < -1080 then .zero (isNegative x)
  else
    let y := roundAt (max (leading x - 52) (-1074)) x
    if nonzero : y = 0 then .zero (isNegative x)
    else if 1024 ≤ leading y then .infinity (isNegative x)
    else .finite y nonzero

def one : Binary64 := .finite 1 (by decide)

def ofBool (b : Bool) : Binary64 := if b then one else .zero false

def signBit : Binary64 → Bool
  | nan => false
  | infinity n => n
  | zero n => n
  | finite x _ => isNegative x

def isNaN : Binary64 → Bool
  | nan => true
  | _ => false

def isZero : Binary64 → Bool
  | zero _ => true
  | _ => false

def neg : Binary64 → Binary64
  | nan => nan
  | infinity n => infinity (!n)
  | zero n => zero (!n)
  | finite x nonzero => finite (-x) (neg_ne_zero nonzero)

def abs : Binary64 → Binary64
  | nan => nan
  | infinity _ => infinity false
  | zero _ => zero false
  | finite x nonzero => finite (magnitude x) (magnitude_ne_zero nonzero)

def add : Binary64 → Binary64 → Binary64
  | nan, _ => nan
  | _, nan => nan
  | infinity n, infinity m => if n = m then infinity n else nan
  | infinity n, _ => infinity n
  | _, infinity m => infinity m
  | zero n, zero m => zero (n && m)
  | zero _, finite y nonzero => finite y nonzero
  | finite x nonzero, zero _ => finite x nonzero
  | finite x _, finite y _ => ofDyadic (x + y)

def sub (x y : Binary64) : Binary64 := x.add y.neg

def mul : Binary64 → Binary64 → Binary64
  | nan, _ => nan
  | _, nan => nan
  | infinity _, zero _ => nan
  | zero _, infinity _ => nan
  | infinity n, y => infinity (n ≠ y.signBit)
  | x, infinity m => infinity (x.signBit ≠ m)
  | zero n, y => zero (n ≠ y.signBit)
  | x, zero m => zero (x.signBit ≠ m)
  | finite x _, finite y _ => ofDyadic (x * y)

def div : Binary64 → Binary64 → Binary64
  | nan, _ => nan
  | _, nan => nan
  | infinity _, infinity _ => nan
  | zero _, zero _ => nan
  | infinity n, y => infinity (n ≠ y.signBit)
  | x, infinity m => zero (x.signBit ≠ m)
  | zero n, y => zero (n ≠ y.signBit)
  | x, zero m => infinity (x.signBit ≠ m)
  | finite x _, finite y _ => ofDyadic (stickyQuotient 60 x y)

def remainder (x y : Dyadic) : Dyadic :=
  match x, y with
  | .zero, _ => .zero
  | x, .zero => x
  | .ofOdd n k _, .ofOdd m l _ =>
    let w := max k l
    .ofIntWithPrec ((n * twoTo (w - k).toNat).tmod (m * twoTo (w - l).toNat)) w

def mod : Binary64 → Binary64 → Binary64
  | nan, _ => nan
  | _, nan => nan
  | infinity _, _ => nan
  | _, zero _ => nan
  | x, infinity _ => x
  | zero n, _ => zero n
  | finite x _, finite y _ =>
    let r := remainder x y
    if nonzero : r = 0 then zero (isNegative x) else finite r nonzero

def lt : Binary64 → Binary64 → Bool
  | nan, _ => false
  | _, nan => false
  | infinity n, infinity m => n && !m
  | infinity n, _ => n
  | _, infinity m => !m
  | zero _, zero _ => false
  | zero _, finite y _ => !isNegative y
  | finite x _, zero _ => isNegative x
  | finite x _, finite y _ => less x y

def eq : Binary64 → Binary64 → Bool
  | nan, _ => false
  | _, nan => false
  | infinity n, infinity m => n = m
  | zero _, zero _ => true
  | finite x _, finite y _ => x = y
  | _, _ => false

def le (x y : Binary64) : Bool := x.lt y || x.eq y

/-- The integer itself, or a zero with the given sign. -/
def ofIntSigned (n : Int) (negative : Bool) : Binary64 :=
  if n = 0 then zero negative else ofDyadic n

def floor : Binary64 → Binary64
  | finite x _ => ofIntSigned (floorInt x) (isNegative x)
  | x => x

def ceil : Binary64 → Binary64
  | finite x _ => ofIntSigned (-floorInt (-x)) (isNegative x)
  | x => x

def sign : Binary64 → Binary64
  | nan => nan
  | zero _ => zero false
  | x => if x.signBit then one.neg else one

def sqrt : Binary64 → Binary64
  | nan => nan
  | infinity n => if n then nan else infinity false
  | zero n => zero n
  | finite x _ => if isNegative x then nan else ofDyadic (stickyRoot 60 x)

/-- The smaller of two numbers, the first one if they are equal; invalid if one of them is. -/
def min (x y : Binary64) : Binary64 := if x.le y || x.isNaN then x else y

def max (x y : Binary64) : Binary64 := if y.le x || x.isNaN then x else y

def ofInt? (n : Int) : Option Binary64 :=
  match ofDyadic n with
  | infinity _ => none
  | x => some x

end Binary64

end Formula.Number
