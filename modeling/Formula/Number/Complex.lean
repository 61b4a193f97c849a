import Formula.Number.Precise

/-! Complex numbers whose parts are binary numbers of any precision. A part that is zero is zero
exactly, so that it shows when the outcome of a function is real. The steps on the way to an outcome
have some digits more, to which they are cut and not rounded. -/
namespace Formula.Number

namespace Precise

def cut (p : Nat) : Precise → Precise
  | finite x => finite (truncateTo p x)
  | x => x

def cutSum (p : Nat) (x y : Dyadic) : Dyadic :=
  if x = 0 ∨ y = 0 then truncateTo p (x + y)
  else if leading x < leading y then truncateTo p (blur p y x + y)
  else truncateTo p (x + blur p x y)

def addCut (p : Nat) (x y : Precise) : Precise :=
  match x, y with
  | finite x, finite y => finite (cutSum p x y)
  | x, y => x.add p y

def subCut (p : Nat) (x y : Precise) : Precise := x.addCut p y.opposite

def mulCut (p : Nat) (x y : Precise) : Precise :=
  match x, y with
  | finite x, finite y => finite (truncateTo p (x * y))
  | x, y => x.mul p y

/-- The quotient with far more digits than are kept, before the rest is cut. -/
def divCut? (p : Nat) (x y : Precise) : Option Precise := (x.div? (p + 32) y).map (cut p)

/-- The root, where the sign of the number does not count. -/
def rootCut (p : Nat) : Precise → Precise
  | finite x => finite (truncateTo p (stickyRoot (p + 2) x))
  | x => x

/-- The sum of two squares, of which a few digits more than `p` are kept. -/
def squares (p : Nat) (x y : Dyadic) : Dyadic :=
  if x = 0 ∨ y = 0 then x * x + y * y else cutSum (p + 4) (x * x) (y * y)

/-- The length of a diagonal. -/
def hypot (p : Nat) : Precise → Precise → Precise
  | nan, _ => nan
  | _, nan => nan
  | finite x, finite y => finite (roundTo p (stickyRoot (p + 2) (squares p x y)))
  | _, _ => infinity false

def hypotCut (p : Nat) : Precise → Precise → Precise
  | finite x, finite y => finite (truncateTo p (stickyRoot (p + 2) (squares p x y)))
  | x, y => hypot p x y

/-- The logarithm of the length of a diagonal. The squares are added exactly if they make nearly
one, because then the leading digits of their sum do not tell its logarithm. -/
def lnHypot (p : Nat) : Precise → Precise → Precise
  | nan, _ => nan
  | _, nan => nan
  | finite x, finite y =>
    if x = 0 ∧ y = 0 then infinity true
    else if x = 0 then finite (roundTo p (Number.ln (p + 20) (magnitude y)))
    else if y = 0 then finite (roundTo p (Number.ln (p + 20) (magnitude x)))
    else
      let sum := truncateTo (p + 20) (squares (p + 20) x y)
      let excess := nearSum 10 sum (-1)
      let sum := if excess = 0 ∨ leading excess < -11 then x * x + y * y else sum
      (finite (roundTo p (Number.ln (p + 20) sum))).scale (-1)
  | _, _ => infinity false

/-- The hyperbolic arc cosine, of a number that is at least one. -/
def acosh (p : Nat) (x : Precise) : Precise :=
  let w := p + 15
  let root := rootCut w ((x.mul (4 * p + 64) x).subCut w one)
  ((x.addCut w root).ln? p).getD nan

end Precise

structure PreciseComplex where
  re : Precise
  im : Precise
deriving DecidableEq, Inhabited

namespace PreciseComplex

open Precise (one)

def ofReal (x : Precise) : PreciseComplex := ⟨x, .zero⟩

def cut (p : Nat) (z : PreciseComplex) : PreciseComplex := ⟨z.re.cut p, z.im.cut p⟩

def swap (z : PreciseComplex) : PreciseComplex := ⟨z.im, z.re⟩

def isInfinite (z : PreciseComplex) : Bool :=
  match z.re, z.im with
  | .infinity _, _ => true
  | _, .infinity _ => true
  | _, _ => false

def scaled (p : Nat) (z : PreciseComplex) (x : Precise) : PreciseComplex :=
  ⟨z.re.mul p x, z.im.mul p x⟩

def divided? (p : Nat) (z : PreciseComplex) (x : Precise) : Option PreciseComplex := do
  return ⟨← z.re.div? p x, ← z.im.div? p x⟩

def sub (p : Nat) (z w : PreciseComplex) : PreciseComplex := ⟨z.re.sub p w.re, z.im.sub p w.im⟩

def mul (p : Nat) (z w : PreciseComplex) : PreciseComplex :=
  -- The products have digits to spare: only their sums are rounded to `p`.
  let q := 4 * p + 64
  ⟨(z.re.mul q w.re).sub p (z.im.mul q w.im), (z.re.mul q w.im).add p (z.im.mul q w.re)⟩

def exp (p : Nat) (z : PreciseComplex) : PreciseComplex :=
  if z.re.isZero then ⟨z.im.cos p, z.im.sin p⟩
  else if z.im.isZero then ofReal (z.re.exp p)
  else
    let size := z.re.exp (p + 4)
    ⟨size.mul p (z.im.cos (p + 4)), size.mul p (z.im.sin (p + 4))⟩

def ln (p : Nat) (z : PreciseComplex) : PreciseComplex :=
  ⟨Precise.lnHypot p z.re z.im, Precise.atan2 p z.im z.re⟩

def lnCut (p : Nat) (z : PreciseComplex) : PreciseComplex := (ln (p + 32) z).cut p

/-- The square root with a real part that is not negative. -/
def sqrt (p : Nat) (z : PreciseComplex) : Option PreciseComplex :=
  let w := p + 20
  let length := Precise.hypotCut w z.re z.im
  let negative := z.re.signum < 0
  if z.im.isZero then
    if negative then (z.re.opposite.sqrt? p).map fun y => ⟨.zero, y⟩
    else (z.re.sqrt? p).map ofReal
  else
    -- Without cancellation: the part of the same sign is added to the length.
    let sum := if negative then length.subCut w z.re else length.addCut w z.re
    do
      let large ← (sum.scale (-1)).sqrt? p
      let small ← z.im.div? p (Precise.rootCut w (sum.scale 1))
      if !negative then return ⟨large, small⟩
      else if z.im.signum < 0 then return ⟨small.opposite, large.opposite⟩
      else return ⟨small, large⟩

def sqrtCut (p : Nat) (z : PreciseComplex) : Option PreciseComplex :=
  (sqrt (p + 32) z).map (cut p)

def sin (p : Nat) (z : PreciseComplex) : PreciseComplex :=
  if z.im.isZero then ofReal (z.re.sin p)
  else if z.re.isZero then ⟨.zero, z.im.sinh p⟩
  else
    let w := p + 6
    ⟨(z.re.sin w).mul p (z.im.cosh w), (z.re.cos w).mul p (z.im.sinh w)⟩

def cos (p : Nat) (z : PreciseComplex) : PreciseComplex :=
  if z.im.isZero then ofReal (z.re.cos p)
  else if z.re.isZero then ofReal (z.im.cosh p)
  else
    let w := p + 6
    ⟨(z.re.cos w).mul p (z.im.cosh w), ((z.re.sin w).mul p (z.im.sinh w)).opposite⟩

def tan (p : Nat) (z : PreciseComplex) : Option PreciseComplex :=
  if z.im.isZero then some (ofReal (z.re.tan p))
  else if z.re.isZero then some ⟨.zero, z.im.tanh p⟩
  else
    let w := p + 15
    let a := z.re.scale 1
    let b := z.im.scale 1
    divided? p ⟨a.sin w, b.sinh w⟩ ((a.cos w).addCut w (b.cosh w))

/-! The hyperbolic functions are the circular ones of a number turned by a right angle. -/

def sinh (p : Nat) (z : PreciseComplex) : PreciseComplex := (sin p z.swap).swap

def cosh (p : Nat) (z : PreciseComplex) : PreciseComplex := cos p ⟨z.im, z.re.opposite⟩

def tanh (p : Nat) (z : PreciseComplex) : Option PreciseComplex := (tan p z.swap).map swap

/-- The arc tangent, from the logarithms of `1 - i z` and `1 + i z`. -/
def atan (p : Nat) (z : PreciseComplex) : PreciseComplex :=
  let w := p + 15
  let before := lnCut w ⟨one.addCut w z.im, z.re.opposite⟩
  let behind := lnCut w ⟨one.subCut w z.im, z.re⟩
  let turned := sub p before behind
  let im := turned.re.scale (-1)
  -- The difference of two infinite lengths says nothing, though the angle has its limit.
  ⟨(turned.im.scale (-1)).opposite, if im.isNaN && z.isInfinite then .zero else im⟩

inductive Arc where
  | sine
  | cosine
deriving DecidableEq, Inhabited

namespace Arc

def ofReal? (p : Nat) : Arc → Precise → Option Precise
  | sine => Precise.asin? p
  | cosine => Precise.acos? p

/-- The arc of a real number beyond one, of the given sign. -/
def beyond (p : Nat) (negative : Bool) (size : Precise) : Arc → PreciseComplex
  | sine =>
    let right := (Precise.pi p).scale (-1)
    if negative then ⟨right.opposite, size⟩ else ⟨right, size.opposite⟩
  | cosine => if negative then ⟨.pi p, size.opposite⟩ else ⟨.zero, size⟩

/-- The arc with the given ratio of its sine to its cosine, or the other way round. -/
def ofRatio (p : Nat) (x y : Precise) : Arc → Option Precise
  | sine => do return ((← x.divCut? p y).atan (p + 32)).cut p
  | cosine => do return ((← y.divCut? p x).atan (p + 32)).cut p

end Arc

/-- The arc sine and arc cosine of a number off the real axis, by the algorithm of Hull, Fairgrieve
and Tang: `alpha` and `beta` are half the sum and half the difference of the distances from the
points minus one and one. Where they are close to one, they are not used themselves. -/
def arc (p : Nat) (kind : Arc) (z : PreciseComplex) : Option PreciseComplex := do
  let w := p + 10
  let negative := z.re.signum < 0
  let below := z.im.signum < 0
  let a := if negative then z.re.opposite else z.re
  let b := if below then z.im.opposite else z.im
  let am := one.subCut w a
  let ap := one.addCut w a
  let r := Precise.hypotCut w ap b
  let s := Precise.hypotCut w am b
  let alpha := (r.addCut w s).scale (-1)
  let beta ← a.divCut? w alpha
  let square := b.mulCut w b
  let re ←
    if !betaCrossover.lt beta then (kind.ofReal? (w + 32) beta).map (Precise.cut w)
    else
      let sum := alpha.addCut w a
      if 0 ≤ am.signum then do
        let c ← square.divCut? w (r.addCut w ap)
        let d := s.addCut w am
        kind.ofRatio w a (Precise.rootCut w ((sum.mulCut w (c.addCut w d)).scale (-1)))
      else do
        let c ← sum.divCut? w (r.addCut w ap)
        let d ← sum.divCut? w (s.subCut w am)
        kind.ofRatio w a (b.mulCut w (Precise.rootCut w ((c.addCut w d).scale (-1))))
  let im ←
    if !alphaCrossover.lt alpha then do
      let c ← square.divCut? w (r.addCut w ap)
      let d ← if 0 < am.signum then square.divCut? w (s.addCut w am) else some (s.subCut w am)
      let excess := (c.addCut w d).scale (-1)
      let root := Precise.rootCut w (excess.mulCut w (alpha.addCut w one))
      (one.addCut w (excess.addCut w root)).ln? (w + 32)
    else
      let root := Precise.rootCut w ((alpha.mulCut w alpha).subCut w one)
      (alpha.addCut w root).ln? (w + 32)
  let im := im.cut w
  let re :=
    match kind with
    | .sine => if negative then re.opposite else re
    | .cosine => if negative then (Precise.pi w).subCut w re else re
  return ⟨re.round p, (if below = (kind = .sine) then im.opposite else im).round p⟩
where
  alphaCrossover : Precise := .finite (.ofIntWithPrec 3 1)
  betaCrossover : Precise := .finite (.ofIntWithPrec 5779919761767295 53)

def inverse (p : Nat) (kind : Arc) (z : PreciseComplex) : Option PreciseComplex :=
  if z.im.isZero then
    match kind.ofReal? p z.re with
    | some y => some (ofReal y)
    | none =>
      let negative := z.re.signum < 0
      some (kind.beyond p negative (Precise.acosh p (if negative then z.re.opposite else z.re)))
  else arc p kind z

def wholePower (a b : Dyadic) : Nat → Dyadic × Dyadic
  | 0 => (1, 0)
  | n + 1 =>
    let (u, v) := wholePower a b n
    (a * u - b * v, a * v + b * u)

def reciprocal? (p : Nat) (z : PreciseComplex) : Option PreciseComplex := do
  let q := 4 * p + 64
  let size := (z.re.mul q z.re).addCut (p + 10) (z.im.mul q z.im)
  return ⟨← z.re.div? p size, (← z.im.div? p size).opposite⟩

/-- A power of a number off both axes. It is exact before it is rounded, unless it is too large. -/
def powNat (p : Nat) (z : PreciseComplex) (n : Nat) : PreciseComplex :=
  match z.re, z.im with
  | .finite a, .finite b =>
    let size := (trailing a - trailing b).natAbs + max (width a) (width b)
    if n ≤ 2 ∨ n * size < 10000 then
      let (u, v) := wholePower a b n
      ⟨.finite (roundTo p u), .finite (roundTo p v)⟩
    else exp p (((lnCut (p + 10) z).scaled (p + 42) (.ofInt n)).cut (p + 10))
  | _, _ => ⟨.nan, .nan⟩

def powInt? (p : Nat) (z : PreciseComplex) (n : Int) : Option PreciseComplex :=
  if z.im.isZero then (Precise.powInt? p z.re n).map ofReal
  else if z.re.isZero then
    (Precise.powInt? p z.im n).map fun v =>
      match n % 4 with
      | 0 => ⟨v, .zero⟩
      | 1 => ⟨.zero, v⟩
      | 2 => ⟨v.opposite, .zero⟩
      | _ => ⟨.zero, v.opposite⟩
  else if 0 ≤ n then some (powNat p z n.toNat)
  else if n = -1 then reciprocal? p z
  else reciprocal? p (powNat (p + 4) z n.natAbs)

/-- The power, by the logarithm unless the exponent is a whole or half number. -/
def pow? (p : Nat) (z w : PreciseComplex) : Option PreciseComplex :=
  if w.im.isZero then
    match w.re with
    | .finite y =>
      if 0 ≤ trailing y then powInt? p z (floorInt y)
      else if trailing y = -1 then
        (sqrtCut (p + 10) z).bind fun r => powInt? p r (floorInt (y <<< (1 : Int)))
      else some (byLogarithm w)
    | _ => some (byLogarithm w)
  else some (byLogarithm w)
where
  byLogarithm (w : PreciseComplex) : PreciseComplex :=
    let l := lnCut (p + 10) z
    exp p ((if w.im.isZero then l.scaled (p + 42) w.re else mul (p + 42) l w).cut (p + 10))

end PreciseComplex

end Formula.Number
