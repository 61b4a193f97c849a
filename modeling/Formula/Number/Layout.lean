import Formula.Number.Shortest

/-! Layouts of decimal digits. -/
namespace Formula.Number

structure Layout where
  least : Int
  greatest : Int
  exponentWidth : Nat
  /-- Whether a single digit before an exponent is followed by a point and a zero. -/
  alwaysPoint : Bool

/-- Numbers of 53 binary digits: positional from `1e-04` below `1e+16`, and exponents of at least
two digits. -/
def Layout.float : Layout := ⟨-4, 15, 2, false⟩

/-- Numbers of `d` decimal digits: positional as long as the digits reach the point, and for a few
zeros after it. -/
def Layout.precise (d : Nat) : Layout :=
  ⟨min (-(d / 3 : Nat) : Int) (-5) + 1, (d : Int) - 1, 1, true⟩

def positional (ds : Digits) : List Char :=
  if ds.exponent < 0 then
    '0' :: '.' :: (List.replicate (-ds.exponent - 1).toNat '0' ++ ds.digits)
  else
    let n := ds.exponent.toNat + 1
    let whole := ds.digits.take n ++ List.replicate (n - ds.digits.length) '0'
    match ds.digits.drop n with
    | [] => whole ++ ['.', '0']
    | rest => whole ++ '.' :: rest

def exponentText (width : Nat) (e : Int) : List Char :=
  let ds := digitsOf e.natAbs
  (if e < 0 then '-' else '+') :: (List.replicate (width - ds.length) '0' ++ ds)

def scientific (l : Layout) (ds : Digits) : List Char :=
  let mantissa :=
    match ds.digits with
    | [] => []
    | [d] => if l.alwaysPoint then [d, '.', '0'] else [d]
    | d :: rest => d :: '.' :: rest
  mantissa ++ 'e' :: exponentText l.exponentWidth ds.exponent

def Layout.write (l : Layout) (ds : Digits) : List Char :=
  if l.least ≤ ds.exponent ∧ ds.exponent ≤ l.greatest then positional ds else scientific l ds

def Binary64.text : Binary64 → String
  | .nan => "nan"
  | .infinity n => if n then "-inf" else "inf"
  | .zero n => if n then "-0.0" else "0.0"
  | .finite x _ =>
    let cs := Layout.float.write (shortestDigits (magnitude x))
    String.ofList (if isNegative x then '-' :: cs else cs)

instance : ToString Binary64 := ⟨Binary64.text⟩

end Formula.Number
