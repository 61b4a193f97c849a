import Formula.Number.Binary64
import Formula.Number.Elementary
import Formula.Number.Layout

/-! Binary numbers of any precision: all dyadic numbers, two infinities and an invalid number.
Operations take the number of binary digits to which their results are rounded; operands are taken
exactly. -/
namespace Formula.Number

/-- A number of binary digits for results, and of decimal digits for texts. -/
structure Precision where
  bits : Nat
  digits : Nat
deriving DecidableEq, Repr, Inhabited

namespace Precision

/-- The precision for `d` decimal digits: as many binary digits as one decimal digit more needs, to
the nearest integer. -/
def ofDigits (d : Int) : Precision :=
  { bits := Nat.max 1 (nearestEven ((d + 1) * 33219280948873626) (tenTo 16)).toNat
    digits := Nat.max 1 d.toNat }

def standard : Precision := ofDigits 15

end Precision

inductive Precise where
  | nan
  | infinity (negative : Bool)
  | finite (x : Dyadic)
deriving DecidableEq, Inhabited

namespace Precise

def zero : Precise := finite 0

def one : Precise := finite 1

def isNaN : Precise → Bool
  | nan => true
  | _ => false

def isZero : Precise → Bool
  | finite x => x = 0
  | _ => false

def signum : Precise → Int
  | nan => 0
  | infinity n => if n then -1 else 1
  | finite x => if x = 0 then 0 else if isNegative x then -1 else 1

def round (p : Nat) : Precise → Precise
  | finite x => finite (roundTo p x)
  | x => x

def opposite : Precise → Precise
  | nan => nan
  | infinity n => infinity (!n)
  | finite x => finite (-x)

def neg (p : Nat) : Precise → Precise
  | nan => nan
  | infinity n => infinity (!n)
  | finite x => finite (roundTo p (-x))

def abs (p : Nat) : Precise → Precise
  | nan => nan
  | infinity _ => infinity false
  | finite x => finite (roundTo p (magnitude x))

def add (p : Nat) : Precise → Precise → Precise
  | nan, _ => nan
  | _, nan => nan
  | infinity n, infinity m => if n = m then infinity n else nan
  | infinity n, _ => infinity n
  | _, infinity m => infinity m
  | finite x, finite y => finite (nearSum p x y)

def sub (p : Nat) (x : Precise) : Precise → Precise
  | nan => nan
  | infinity n => add p x (infinity (!n))
  | finite y => add p x (finite (-y))

/-- The infinity with the sign of a product, which is invalid for a zero factor. -/
def infinityOfSign : Int → Precise
  | 0 => nan
  | .ofNat _ => infinity false
  | .negSucc _ => infinity true

def mul (p : Nat) : Precise → Precise → Precise
  | nan, _ => nan
  | _, nan => nan
  | finite x, finite y => finite (roundTo p (x * y))
  | x, y => infinityOfSign (x.signum * y.signum)

def div? (p : Nat) (x y : Precise) : Option Precise :=
  match x, y with
  | x, finite y =>
    if y = 0 then none
    else match x with
      | nan => some nan
      | infinity n => some (infinity (n ≠ isNegative y))
      | finite x => some (finite (roundTo p (stickyQuotient (p + 2) x y)))
  | finite _, infinity _ => some zero
  | _, _ => some nan

/-- The remainder of the division rounded down, of a divisor other than zero. A dividend that is
much smaller than a divisor of its sign stays as it is. -/
def floorMod (p : Nat) : Precise → Precise → Precise
  | finite x, finite y =>
    match x, y with
    | .zero, _ => zero
    | x, .zero => finite x
    | .ofOdd n k hn, .ofOdd m l hm =>
      if (n < 0) = (m < 0) ∧ leading (.ofOdd n k hn) + 1 < trailing (.ofOdd m l hm) then
        finite (.ofOdd n k hn)
      else if m.natAbs = 1 ∧ leading (.ofOdd m l hm) + 1 < trailing (.ofOdd n k hn) then zero
      else
        let w := max k l
        let r := (n * twoTo (w - k).toNat).fmod (m * twoTo (w - l).toNat)
        finite (roundTo p (.ofIntWithPrec r w))
  | _, _ => nan

def lt : Precise → Precise → Bool
  | nan, _ => false
  | _, nan => false
  | infinity n, infinity m => n && !m
  | infinity n, _ => n
  | _, infinity m => !m
  | finite x, finite y => less x y

def eq : Precise → Precise → Bool
  | nan, _ => false
  | _, nan => false
  | infinity n, infinity m => n = m
  | finite x, finite y => x = y
  | _, _ => false

def le (x y : Precise) : Bool := x.lt y || x.eq y

def ofInt (n : Int) : Precise := finite n

def ofBinary64 : Binary64 → Precise
  | .nan => nan
  | .infinity n => infinity n
  | .zero _ => zero
  | .finite x _ => finite x

def toBinary64 : Precise → Binary64
  | nan => .nan
  | infinity n => .infinity n
  | finite x => .ofDyadic (roundTo 53 x)

def floor (p : Nat) : Precise → Precise
  | finite x => if 0 ≤ trailing x then finite (roundTo p x) else finite (roundTo p (floorInt x))
  | x => x

def ceil (p : Nat) : Precise → Precise
  | finite x => if 0 ≤ trailing x then finite (roundTo p x) else finite (roundTo p (-floorInt (-x)))
  | x => x

def pi (p : Nat) : Precise := finite (roundTo p (Number.pi (p + 16)))

def e (p : Nat) : Precise := finite (roundTo p (Number.exp (p + 16) 1))

def degree (p : Nat) : Precise :=
  finite (roundTo p (stickyQuotient (p + 16) (Number.pi (p + 32)) 180))

def scale (e : Int) : Precise → Precise
  | finite x => finite (x <<< e)
  | x => x

def sqrt? (p : Nat) : Precise → Option Precise
  | nan => some nan
  | infinity n => if n then none else some (infinity false)
  | finite x => if isNegative x then none else some (finite (roundTo p (stickyRoot (p + 2) x)))

def ln? (p : Nat) : Precise → Option Precise
  | nan => some nan
  | infinity n => if n then none else some (infinity false)
  | finite x =>
    if x = 0 then some (infinity true)
    else if isNegative x then none
    else some (finite (roundTo p (Number.ln (p + 20) x)))

def exp (p : Nat) : Precise → Precise
  | nan => nan
  | infinity n => if n then zero else infinity false
  | finite x => finite (roundTo p (Number.exp (p + 20) x))

def oddFunction (p : Nat) (f : Nat → Dyadic → Dyadic) (limit : Precise) : Precise → Precise
  | nan => nan
  | infinity n => if n then limit.neg p else limit
  | finite x => finite (roundTo p (f (p + 20) x))

def sin (p : Nat) : Precise → Precise := oddFunction p Number.sin nan

def tan (p : Nat) : Precise → Precise := oddFunction p Number.tan nan

def sinh (p : Nat) : Precise → Precise := oddFunction p Number.sinh (infinity false)

def tanh (p : Nat) : Precise → Precise := oddFunction p Number.tanh one

def atan (p : Nat) : Precise → Precise := oddFunction p Number.atan (scale (-1) (pi p))

def cos (p : Nat) : Precise → Precise
  | finite x => finite (roundTo p (Number.cos (p + 20) x))
  | _ => nan

def cosh (p : Nat) : Precise → Precise
  | nan => nan
  | infinity _ => infinity false
  | finite x => finite (roundTo p (Number.cosh (p + 20) x))

def cathetus (w : Nat) (x : Dyadic) : Dyadic :=
  roundTo w (stickyRoot (w + 2) (roundTo w (1 - x * x)))

/-- The arc sine, if it is real: twice the angle whose tangent is `x / (1 + √(1 - x²))`. -/
def asin? (p : Nat) : Precise → Option Precise
  | nan => some nan
  | infinity _ => none
  | finite x =>
    if less 1 (magnitude x) then none
    else
      let w := p + 15
      let t := stickyQuotient (w + 8) x (roundTo w (1 + cathetus w x))
      some ((finite (roundTo p (Number.atan (p + 20) t))).scale 1)

/-- The arc cosine, if it is real: twice the angle whose tangent is `√(1 - x²) / (1 + x)`. -/
def acos? (p : Nat) : Precise → Option Precise
  | nan => some nan
  | infinity _ => none
  | finite x =>
    if less 1 (magnitude x) then none
    else if x = -1 then some (pi p)
    else
      let w := p + 15
      let t := stickyQuotient (w + 8) (cathetus w x) (roundTo w (1 + x))
      some ((finite (roundTo p (Number.atan (p + 20) t))).scale 1)

def atan2Upper (p : Nat) (y : Dyadic) : Precise → Precise
  | nan => nan
  | infinity n => if n then pi p else zero
  | finite x =>
    if x = 0 then scale (-1) (pi p)
    else
      let q := roundTo (p + 4) (stickyQuotient (p + 6) y x)
      let a := roundTo (p + 4) (Number.atan (p + 24) q)
      if isNegative x then (pi (p + 4)).add p (finite a) else finite (roundTo p a)

def atan2 (p : Nat) (y x : Precise) : Precise :=
  match y with
  | nan => nan
  | infinity n =>
    match x with
    | infinity _ => nan
    | _ => if n then (scale (-1) (pi p)).neg p else scale (-1) (pi p)
  | finite d =>
    if d = 0 then
      match x with
      | nan => nan
      | x => if 0 ≤ x.signum then zero else pi p
    else if isNegative d then (atan2Upper p (-d) x).neg p
    else atan2Upper p d x

def powNat (p : Nat) (x : Dyadic) (n : Nat) : Dyadic :=
  if n = 1 then roundTo p x
  else if n = 2 then roundTo p (x * x)
  else roundTo p (cutPower (p + 8) x n)

def powInt? (p : Nat) (x : Precise) (n : Int) : Option Precise :=
  match x with
  | nan => some nan
  | infinity negative =>
    if n = 0 then some nan
    else if n < 0 then some zero
    else some (infinity (negative && n % 2 = 1))
  | finite x =>
    if n = 0 then some one
    else if 0 < n then some (finite (powNat p x n.toNat))
    else if n = -1 then div? p one (finite x)
    else div? p one (finite (powNat (p + 5) x n.natAbs))

def powReal (p : Nat) (x y : Precise) : Precise :=
  match ln? (p + 10) x with
  | none => nan
  | some l =>
    match y, l with
    | finite y, finite l => exp p (finite (y * l))
    | y, l => exp p (y.mul p l)

inductive Unreal where
  | complex
  | divisionByZero
deriving DecidableEq, Repr, Inhabited

def pow? (p : Nat) (x y : Precise) : Except Unreal Precise :=
  let whole (o : Option Precise) : Except Unreal Precise :=
    match o with
    | some r => .ok r
    | none => .error .divisionByZero
  match y with
  | finite y =>
    if 0 ≤ trailing y then whole (powInt? p x (floorInt y))
    else if x.signum < 0 then .error .complex
    else if trailing y = -1 then
      if y = powerOfTwo (-1) then
        match sqrt? p x with
        | some r => .ok r
        | none => .error .complex
      else
        match sqrt? (p + 10) x with
        | some r =>
          if y = -powerOfTwo (-1) then whole (div? p one r)
          else whole (powInt? p r (floorInt (y <<< (1 : Int))))
        | none => .error .complex
    else .ok (powReal p x (finite y))
  | y => if x.signum < 0 then .error .complex else .ok (powReal p x y)

/-- The decimal digits of a number of any size. Numbers far from one are divided by a power of ten
first, with some digits more than are shown. -/
def decimalDigits (d : Nat) (x : Dyadic) : Digits :=
  if (leading x).natAbs ≤ 3500 then roundedDigits d x
  else
    let w := d * 4 + 64 + (leading x).natAbs.log2
    let e := leading x * 30103 / 100000
    let scaled :=
      if 0 ≤ e then stickyQuotient w x (cutPower w 10 e.toNat)
      else truncateTo w (x * cutPower w 10 (-e).toNat)
    let ds := roundedDigits d scaled
    { ds with exponent := ds.exponent + e }

def text (d : Nat) : Precise → String
  | nan => "nan"
  | infinity n => if n then "-inf" else "+inf"
  | finite x =>
    if x = 0 then "0.0"
    else
      let ds := decimalDigits d (magnitude x)
      let shown := { ds with digits := dropTrailingZeros ds.digits }
      let cs := (Layout.precise d).write shown
      String.ofList (if isNegative x then '-' :: cs else cs)

end Precise

end Formula.Number
