import Formula.Number.Rounding

/-! Sums of series in fixed point arithmetic. A number is held as a count of units `2 ^ (-w)`, and
every term is cut to whole units, so that a sum is off by at most one unit a term. -/
namespace Formula.Number

/-- `1/k ± 1/(3 k^3) + 1/(5 k^5) ± …`, from the power of `1/k` that belongs to the term `i`. -/
def reciprocalSeriesFrom (alternating : Bool) (k : Nat) : Nat → Int → Nat → Int
  | 0, _, _ => 0
  | fuel + 1, power, i =>
    if power = 0 then 0
    else
      let term := power / (2 * i + 1)
      (if alternating && i % 2 = 1 then -term else term)
        + reciprocalSeriesFrom alternating k fuel (power / (k * k)) (i + 1)

def reciprocalSeries (alternating : Bool) (w k : Nat) : Int :=
  reciprocalSeriesFrom alternating k w ((1 <<< w) / k) 0

def piFixed (w : Nat) : Int :=
  let v := w + 16
  (16 * reciprocalSeries true v 5 - 4 * reciprocalSeries true v 239) / 0x10000

def ln2Fixed (w : Nat) : Int :=
  let v := w + 16
  (18 * reciprocalSeries false v 26 - 2 * reciprocalSeries false v 4801
    + 8 * reciprocalSeries false v 8749) / 0x10000

def mulFixed (w : Nat) (a b : Int) : Int := (a * b) >>> w

/-- `1 + t/(i+1) + t²/((i+1)(i+2)) + …`, from the term `i`. -/
def expSeriesFrom (w : Nat) (t : Int) : Nat → Int → Nat → Int
  | 0, _, _ => 0
  | fuel + 1, term, i =>
    if term = 0 then 0
    else term + expSeriesFrom w t fuel (mulFixed w term t / (i + 1 : Nat)) (i + 1)

def squareFixed (w : Nat) : Nat → Int → Int
  | 0, v => v
  | n + 1, v => squareFixed w n (mulFixed w v v)

/-- The exponential of a number between zero and one. It is the power of the exponential of a small
part of it. -/
def expFixed (w : Nat) (t : Int) : Int :=
  let s := integerRoot w
  let g := 2 * s + 16
  let v := w + g
  squareFixed v s (expSeriesFrom v ((t <<< g) >>> s) (v + 1) (1 <<< v) 0) >>> g

/-- `t - t³/3! + t⁵/5! - …` and its likes: each term is the one before it, times `-t²`, over the
next two factors. -/
def alternatingSeriesFrom (w : Nat) (square : Int) : Nat → Int → Nat → Int
  | 0, _, _ => 0
  | fuel + 1, term, i =>
    if term = 0 then 0
    else term - alternatingSeriesFrom w square fuel
      (mulFixed w term square / ((i + 1) * (i + 2) : Nat)) (i + 2)

def sinFixed (w : Nat) (t : Int) : Int :=
  let v := w + 16
  let t := t <<< (16 : Nat)
  alternatingSeriesFrom v (mulFixed v t t) (v + 1) t 1 >>> (16 : Nat)

def cosFixed (w : Nat) (t : Int) : Int :=
  let v := w + 16
  let t := t <<< (16 : Nat)
  alternatingSeriesFrom v (mulFixed v t t) (v + 1) (1 <<< v) 0 >>> (16 : Nat)

/-- `p - p t²/3 + p t⁴/5 - …` for a power `p` of `t`, with alternating signs or not. -/
def oddSeriesFrom (alternating : Bool) (w : Nat) (square : Int) : Nat → Int → Nat → Int
  | 0, _, _ => 0
  | fuel + 1, power, i =>
    if power = 0 then 0
    else
      let term := power / (2 * i + 1 : Nat)
      (if alternating && i % 2 = 1 then -term else term)
        + oddSeriesFrom alternating w square fuel (mulFixed w power square) (i + 1)

def hypotenuse (w : Nat) (t : Int) : Int :=
  integerRoot ((1 <<< (2 * w)) + (t * t).natAbs)

/-- Halves an angle, given by its tangent, `n` times. -/
def halveAngle (w : Nat) : Nat → Int → Int
  | 0, t => t
  | n + 1, t => halveAngle w n ((t <<< w) / ((1 <<< w) + hypotenuse w t))

def atanFixed (w : Nat) (t : Int) : Int :=
  let v := w + 32
  let u := halveAngle v 8 (t <<< (32 : Nat))
  (oddSeriesFrom true v (mulFixed v u u) (v + 1) u 0 <<< (8 : Nat)) >>> (32 : Nat)

/-- The natural logarithm of a number between one half and two. -/
def lnFixed (w : Nat) (m : Int) : Int :=
  let v := w + 16
  let m := m <<< (16 : Nat)
  let one : Int := 1 <<< v
  let y : Int := (((m - one).natAbs <<< v) / (m + one).natAbs : Nat)
  let sum := (2 * oddSeriesFrom false v (mulFixed v y y) (v + 1) y 0) >>> (16 : Nat)
  if m < one then -sum else sum

end Formula.Number
