import Formula.Number.Elementary
import Formula.Number.Binary64

/-! Elementary functions of numbers of 53 binary digits: the rounded exact value, with zeros and
infinities as limits. -/
namespace Formula.Number.Binary64

/-- Binary digits with which values are computed before they are rounded. -/
def guarded : Nat := 90

def pi : Binary64 := ofDyadic (Number.pi guarded)

def halve : Binary64 → Binary64
  | finite x nonzero => finite (x >>> (1 : Int)) (shiftRight_ne_zero nonzero 1)
  | x => x

def oddFunction (f : Nat → Dyadic → Dyadic) (limit : Binary64) : Binary64 → Binary64
  | nan => nan
  | infinity n => if n then limit.neg else limit
  | zero n => zero n
  | finite x _ => ofDyadic (f guarded x)

def sin : Binary64 → Binary64 := oddFunction Number.sin nan

def tan : Binary64 → Binary64 := oddFunction Number.tan nan

def atan : Binary64 → Binary64 := oddFunction Number.atan pi.halve

def tanh : Binary64 → Binary64 := oddFunction Number.tanh one

def cos : Binary64 → Binary64
  | finite x _ => ofDyadic (Number.cos guarded x)
  | zero _ => one
  | _ => nan

/-- Whether exponential functions of a number are beyond all finite numbers. -/
def isSteep (x : Dyadic) : Bool := less 800 (magnitude x)

def exp : Binary64 → Binary64
  | nan => nan
  | infinity n => if n then zero false else infinity false
  | zero _ => one
  | finite x _ =>
    if isSteep x then (if isNegative x then zero false else infinity false)
    else ofDyadic (Number.exp guarded x)

def sinh : Binary64 → Binary64 :=
  oddFunction (fun p x => if isSteep x then x <<< (2000 : Int) else Number.sinh p x)
    (infinity false)

def cosh : Binary64 → Binary64
  | nan => nan
  | infinity _ => infinity false
  | zero _ => one
  | finite x _ => if isSteep x then infinity false else ofDyadic (Number.cosh guarded x)

def ln : Binary64 → Binary64
  | nan => nan
  | infinity n => if n then nan else infinity false
  | zero _ => infinity true
  | finite x _ => if isNegative x then nan else ofDyadic (Number.ln guarded x)

def log10 : Binary64 → Binary64
  | nan => nan
  | infinity n => if n then nan else infinity false
  | zero _ => infinity true
  | finite x _ =>
    if isNegative x then nan
    else ofDyadic (stickyQuotient guarded (Number.ln guarded x) (Number.ln guarded 10))

/-- The cosine of the angle whose sine is given. -/
def cathetus (x : Dyadic) : Dyadic := stickyRoot guarded (1 - x * x)

def asin : Binary64 → Binary64
  | nan => nan
  | infinity _ => nan
  | zero n => zero n
  | finite x _ =>
    if less 1 (magnitude x) then nan
    else ofDyadic
      (Number.atan guarded (stickyQuotient guarded x (1 + cathetus x)) <<< (1 : Int))

def acos : Binary64 → Binary64
  | nan => nan
  | infinity _ => nan
  | zero _ => pi.halve
  | finite x _ =>
    if less 1 (magnitude x) then nan
    else if x = -1 then pi
    else ofDyadic
      (Number.atan guarded (stickyQuotient guarded (cathetus x) (1 + x)) <<< (1 : Int))

def withSignOf (y : Binary64) (angle : Dyadic) : Binary64 :=
  let a := ofDyadic angle
  if y.signBit then a.neg else a

def atan2 (y x : Binary64) : Binary64 :=
  let turn := Number.pi guarded
  match y, x with
  | nan, _ => nan
  | _, nan => nan
  | y@(infinity _), infinity n =>
    withSignOf y (if n then (turn * 3) >>> (2 : Int) else turn >>> (2 : Int))
  | y@(infinity _), _ => withSignOf y (turn >>> (1 : Int))
  | y, infinity n => withSignOf y (if n then turn else 0)
  | y@(zero _), x => withSignOf y (if x.signBit then turn else 0)
  | y@(finite _ _), zero _ => withSignOf y (turn >>> (1 : Int))
  | finite y _, finite x _ =>
    let a := Number.atan (guarded + 8) (stickyQuotient (guarded + 8) y x)
    ofDyadic (if isNegative x then (if isNegative y then a - turn else a + turn) else a)

def isOdd (y : Dyadic) : Bool := y ≠ 0 && trailing y = 0

def powPositive (x y : Dyadic) : Binary64 :=
  let t := y * Number.ln (guarded + 40) x
  if isSteep t then (if isNegative t then zero false else infinity false)
  else if 0 ≤ trailing y ∧ width x * (floorInt y).natAbs ≤ 4000 then
    let z := x ^ (floorInt y).natAbs
    ofDyadic (if isNegative y then stickyQuotient 60 1 z else z)
  else ofDyadic (Number.exp guarded t)

def powMagnitude (x y : Dyadic) : Binary64 := if x = 1 then one else powPositive x y

def pow (x y : Binary64) : Binary64 :=
  match x, y with
  | _, zero _ => one
  | nan, _ => nan
  | x, nan => if x.eq one then one else nan
  | x, infinity n =>
    if x.abs.eq one then one
    else if (one.lt x.abs) ≠ n then infinity false else zero false
  | zero s, finite y _ =>
    let s := s && isOdd y
    if isNegative y then infinity s else zero s
  | infinity s, finite y _ =>
    let s := s && isOdd y
    if isNegative y then zero s else infinity s
  | finite x _, finite y _ =>
    if isNegative x then
      if trailing y < 0 then nan
      else if isOdd y then (powMagnitude (-x) y).neg
      else powMagnitude (-x) y
    else powMagnitude x y

/-- The nearest integer, the greater one of two. -/
def round (x : Binary64) : Binary64 := (x.add (ofDyadic (powerOfTwo (-1)))).floor

def degrees (x : Binary64) : Binary64 := x.mul ((ofDyadic 180).div pi)

def radians (x : Binary64) : Binary64 := x.mul (pi.div (ofDyadic 180))

end Formula.Number.Binary64
