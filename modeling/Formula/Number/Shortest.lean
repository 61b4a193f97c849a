import Formula.Number.Binary64
import Formula.Number.Decimal

/-! Shortest decimal texts of binary numbers: the fewest digits that read back as the number, and of
those the nearest ones. -/
namespace Formula.Number

def gridExponent (x : Dyadic) : Int := max (leading x - 52) (-1074)

/-- Whether the decimal number `c * 10 ^ g` reads as the positive binary number `x`: it lies between
the midpoints to both neighbours, which themselves go to a number with an even last digit. -/
def readsAs (x : Dyadic) (c : Nat) (g : Int) : Bool :=
  let q := gridExponent x
  let m := (fixedPoint 1100 x / twoTo (1100 + q).toNat).toNat
  let low := if m = twoTo 52 ∧ q > -1074 then 4 * m - 1 else 4 * m - 2
  let high := 4 * m + 2
  let value := c * tenTo g.toNat * twoTo (2 - q).toNat
  let unit := twoTo (q - 2).toNat * tenTo (-g).toNat
  if m % 2 = 0 then low * unit ≤ value && value ≤ high * unit
  else low * unit < value && value < high * unit

/-- Of the two neighbours of a positive number on the grid of `10 ^ g`, the one that reads back, and
of two such the nearer, or the even one if they are equally near. -/
def shortestOn? (x : Dyadic) (g : Int) : Option Nat :=
  let below := decimalUnits x g
  let (num, den) := fraction x
  let downGap := num * tenTo (-g).toNat - below * (den * tenTo g.toNat)
  let unit := den * tenTo g.toNat
  let upIsNearer := unit < 2 * downGap || unit = 2 * downGap && below % 2 = 1
  match readsAs x below g, readsAs x (below + 1) g with
  | true, true => some (if upIsNearer then below + 1 else below)
  | true, false => some below
  | false, true => some (below + 1)
  | false, false => none

def shortestFrom (x : Dyadic) (e : Int) : Nat → Nat → Digits
  | 0, d => { digits := digitsOf (decimalUnits x (e - d)), exponent := e }
  | fuel + 1, d =>
    let g := e - d
    match shortestOn? x g with
    | some c =>
      let ds := digitsOf c
      { digits := dropTrailingZeros ds, exponent := g + ds.length - 1 }
    | none => shortestFrom x e fuel (d + 1)

def shortestDigits (x : Dyadic) : Digits := shortestFrom x (decimalExponent x) 17 0

end Formula.Number
