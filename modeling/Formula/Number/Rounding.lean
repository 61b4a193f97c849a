/-! Rounding of dyadic numbers. A dyadic number is rounded to a grid of multiples of a power of two,
or to a number of binary digits, to the nearest neighbour and to the even one of two. -/
namespace Formula.Number

def twoTo (n : Nat) : Nat := Nat.pow 2 n

def tenTo (n : Nat) : Nat := Nat.pow 10 n

/-- The integer nearest to a fraction, the even one of two. -/
def nearestEven (n : Int) (d : Nat) : Int :=
  let q := n / d
  let r := n % d
  if 2 * r < d then q
  else if d < 2 * r then q + 1
  else if q % 2 = 0 then q
  else q + 1

/-- The exponent of the leading binary digit, and zero for zero. -/
def leading : Dyadic → Int
  | .zero => 0
  | .ofOdd n k _ => (n.natAbs.log2 : Int) - k

def width : Dyadic → Nat
  | .zero => 0
  | .ofOdd n _ _ => n.natAbs.log2 + 1

def trailing : Dyadic → Int
  | .zero => 0
  | .ofOdd _ k _ => -k

def isNegative : Dyadic → Bool
  | .zero => false
  | .ofOdd n _ _ => n < 0

def magnitude (x : Dyadic) : Dyadic := if isNegative x then -x else x

theorem neg_ne_zero {x : Dyadic} (h : x ≠ 0) : -x ≠ 0 := by
  cases x with
  | zero => contradiction
  | ofOdd n k hn => exact Dyadic.of_ne_zero

theorem magnitude_ne_zero {x : Dyadic} (h : x ≠ 0) : magnitude x ≠ 0 := by
  unfold magnitude
  split
  · exact neg_ne_zero h
  · exact h

theorem shiftRight_ne_zero {x : Dyadic} (h : x ≠ 0) (i : Int) : x >>> i ≠ 0 := by
  cases x with
  | zero => contradiction
  | ofOdd n k hn => exact Dyadic.of_ne_zero

def powerOfTwo (e : Int) : Dyadic := .ofOdd 1 (-e) rfl

def roundAt (q : Int) (x : Dyadic) : Dyadic :=
  match x with
  | .zero => .zero
  | .ofOdd n k _ =>
    if k + q ≤ 0 then x else .ofIntWithPrec (nearestEven n (twoTo (k + q).toNat)) (-q)

def roundTo (p : Nat) (x : Dyadic) : Dyadic := roundAt (leading x - p + 1) x

def truncateTo (p : Nat) (x : Dyadic) : Dyadic :=
  match x with
  | .zero => .zero
  | .ofOdd n k _ =>
    let q := leading x - p + 1
    if k + q ≤ 0 then x else .ofIntWithPrec (n.tdiv (twoTo (k + q).toNat)) (-q)

def floorInt (x : Dyadic) : Int :=
  match x with
  | .zero => 0
  | .ofOdd n k _ => if k ≤ 0 then n * twoTo (-k).toNat else n / twoTo k.toNat

/-- The number of units `2 ^ (-w)` below a number. -/
def fixedPoint (w : Nat) (x : Dyadic) : Int :=
  match x with
  | .zero => 0
  | .ofOdd n k _ => if k ≤ w then n <<< (w - k).toNat else n >>> (k - w).toNat

def ofFixedPoint (w : Nat) (v : Int) : Dyadic := .ofIntWithPrec v w

/-- Compares two numbers by their signs and leading digits first, so that numbers of very different
size are never written on one grid. -/
def less (x y : Dyadic) : Bool :=
  match isNegative x, isNegative y with
  | true, false => true
  | false, true => false
  | false, false =>
    if x = 0 then y ≠ 0 else if y = 0 then false
    else if leading x ≠ leading y then leading x < leading y else x < y
  | true, true => if leading x ≠ leading y then leading y < leading x else x < y

/-- A quotient whose first `p` binary digits, and more, are exact; of what follows only is kept
whether it is zero. It rounds to fewer digits as the exact quotient does. -/
def stickyQuotient (p : Nat) (x y : Dyadic) : Dyadic :=
  match x, y with
  | .zero, _ => .zero
  | _, .zero => .zero
  | .ofOdd n k _, .ofOdd m l _ =>
    let shift := p + 2 + m.natAbs.log2 - n.natAbs.log2
    let num := n.natAbs <<< shift
    let q := num / m.natAbs
    let sticky := if num % m.natAbs = 0 then 0 else 1
    let v : Int := 2 * q + sticky
    .ofIntWithPrec (if (n < 0) ≠ (m < 0) then -v else v) (k - l + shift + 1)

def integerRootFrom (n : Nat) : Nat → Nat → Nat
  | 0, guess => guess
  | fuel + 1, guess =>
    let better := (guess + n / guess) / 2
    if better < guess then integerRootFrom n fuel better else guess

def integerRoot (n : Nat) : Nat :=
  if n = 0 then 0 else integerRootFrom n (n.log2 + 2) (twoTo (n.log2 / 2 + 1))

/-- A square root whose first `p` binary digits, and more, are exact; of what follows only is kept
whether it is zero. The sign of the number is left out. -/
def stickyRoot (p : Nat) (x : Dyadic) : Dyadic :=
  match x with
  | .zero => .zero
  | .ofOdd n k _ =>
    let shift := 2 * p + 4 - n.natAbs.log2
    let shift := if (k + shift) % 2 = 0 then shift else shift + 1
    let num := n.natAbs <<< shift
    let r := integerRoot num
    let sticky := if r * r = num then 0 else 1
    .ofIntWithPrec (2 * r + sticky) ((k + shift) / 2 + 1)

/-- A stand-in for a number that is added to one of much greater size: beyond the digits that count
it matters only whether there is something, and of which sign. -/
def blur (p : Nat) (large small : Dyadic) : Dyadic :=
  let bound := min (trailing large) (leading large - p) - 4
  if small = 0 ∨ bound ≤ leading small then small
  else if isNegative small then -powerOfTwo bound else powerOfTwo bound

def nearSum (p : Nat) (x y : Dyadic) : Dyadic :=
  if x = 0 ∨ y = 0 then roundTo p (x + y)
  else if leading x < leading y then roundTo p (blur p y x + y)
  else roundTo p (x + blur p x y)

/-- A number next to `x` on the given side, too close to matter beyond the first `p` digits, except
that it is not `x`. -/
def nudge (p : Nat) (x : Dyadic) (up : Bool) : Dyadic :=
  let tiny := powerOfTwo (min (trailing x) (leading x - p) - 4)
  if up then x + tiny else x - tiny

def cutPowerFrom (p : Nat) : Nat → Nat → Dyadic → Dyadic → Dyadic
  | 0, _, acc, _ => acc
  | fuel + 1, n, acc, base =>
    if n = 0 then acc
    else
      let acc := if n % 2 = 1 then truncateTo p (acc * base) else acc
      if n / 2 = 0 then acc
      else cutPowerFrom p fuel (n / 2) acc (truncateTo p (base * base))

/-- A power whose error is far beyond the first `p` binary digits. -/
def cutPower (p : Nat) (x : Dyadic) (n : Nat) : Dyadic :=
  if width x ≤ 1 ∨ width x * n < 1000 then
    match x with
    | .zero => if n = 0 then 1 else 0
    | x => x ^ n
  else cutPowerFrom (p + 4 * n.log2 + 8) (n.log2 + 1) n 1 x

end Formula.Number
