import Formula.Number.Series

/-! Elementary functions of dyadic numbers. Each function takes a number of binary digits and
returns a dyadic number whose error lies beyond them. Where the exact value cannot be dyadic, the
result is never meant as exact: the caller rounds it to fewer digits. -/
namespace Formula.Number

def pi (p : Nat) : Dyadic := ofFixedPoint (p + 16) (piFixed (p + 16))

/-- Evaluates in fixed point with more and more digits, until enough of them count. -/
def refine (p : Nat) (f : Nat → Int) : Nat → Nat → Dyadic
  | 0, w => ofFixedPoint w (f w)
  | fuel + 1, w =>
    let v := f w
    let digits := v.natAbs.log2
    if p + 8 ≤ digits then ofFixedPoint w v
    else refine p f fuel (w + (p + 16 - digits))

def exp (p : Nat) (x : Dyadic) : Dyadic :=
  if x = 0 then 1
  else if leading x < -(p + 8 : Int) then nudge p 1 (!isNegative x)
  else
    let w := p + 16
    let extra := (leading x).toNat + 2
    let t := fixedPoint (w + extra) x
    let l := ln2Fixed (w + extra)
    let n := t / l
    ofFixedPoint w (expFixed w ((t % l) >>> extra)) >>> (-n)

def ln (p : Nat) (x : Dyadic) : Dyadic :=
  if x = 1 then 0
  else
    let e := leading (x * 3) - 1
    let m : Dyadic := x >>> e
    refine p (fun w => e * ln2Fixed (w + 8) / 0x100 + lnFixed w (fixedPoint w m)) 40
      (p + 24 + e.natAbs.log2)

/-- The quarter turn in which an angle lies, and the angle from its start in units `2 ^ (-w)`. -/
def quarterTurn (w : Nat) (x : Dyadic) : Int × Int :=
  let extra := (leading x).toNat + 4
  let t := fixedPoint (w + extra) x
  let q := piFixed (w + extra) / 2
  (t / q % 4, (t % q) >>> extra)

def sinAt (x : Dyadic) (w : Nat) : Int :=
  match quarterTurn w x with
  | (0, t) => sinFixed w t
  | (1, t) => cosFixed w t
  | (2, t) => -sinFixed w t
  | (_, t) => -cosFixed w t

def cosAt (x : Dyadic) (w : Nat) : Int :=
  match quarterTurn w x with
  | (0, t) => cosFixed w t
  | (1, t) => -sinFixed w t
  | (2, t) => -cosFixed w t
  | (_, t) => sinFixed w t

/-- Whether a number is so small that `x + c x³` cannot be told from `x`. -/
def isTiny (p : Nat) (x : Dyadic) : Bool := 2 * leading x < -(p + 8 : Int)

def sin (p : Nat) (x : Dyadic) : Dyadic :=
  if x = 0 then 0
  else if isTiny p x then nudge p x (isNegative x)
  else refine p (sinAt x) 40 (p + 32)

def cos (p : Nat) (x : Dyadic) : Dyadic :=
  if x = 0 then 1
  else if isTiny p x then nudge p 1 false
  else refine p (cosAt x) 40 (p + 32)

def tan (p : Nat) (x : Dyadic) : Dyadic :=
  if x = 0 then 0
  else if isTiny p x then nudge p x (!isNegative x)
  else stickyQuotient p (sin (p + 8) x) (cos (p + 8) x)

def atanPositive (p : Nat) (x : Dyadic) : Dyadic :=
  if isTiny p x then nudge p x false
  else if less x 1 || x = 1 then
    refine p (fun w => atanFixed w (fixedPoint w x)) 40 (p + 32)
  else
    refine p (fun w =>
      piFixed w / 2 - atanFixed w (fixedPoint w (stickyQuotient (w + 8) 1 x))) 40 (p + 32)

def atan (p : Nat) (x : Dyadic) : Dyadic :=
  if x = 0 then 0
  else if isNegative x then -atanPositive p (-x)
  else atanPositive p x

def sinh (p : Nat) (x : Dyadic) : Dyadic :=
  if x = 0 then 0
  else if isTiny p x then nudge p x (!isNegative x)
  else
    let q := p + 16 + 2 * (-leading x).toNat
    let e := exp q x
    nearSum q e (-stickyQuotient q 1 e) >>> (1 : Int)

def cosh (p : Nat) (x : Dyadic) : Dyadic :=
  let q := p + 16
  let e := exp q x
  nearSum q e (stickyQuotient q 1 e) >>> (1 : Int)

def tanhPositive (p : Nat) (x : Dyadic) : Dyadic :=
  if isTiny p x then nudge p x false
  else if less (p + 16 : Nat) x then nudge p 1 false
  else
    let q := p + 16 + 2 * (-leading x).toNat
    let e := exp q (x <<< (1 : Int))
    stickyQuotient p (e - 1) (e + 1)

def tanh (p : Nat) (x : Dyadic) : Dyadic :=
  if x = 0 then 0
  else if isNegative x then -tanhPositive p (-x)
  else tanhPositive p x

end Formula.Number
