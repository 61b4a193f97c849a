import Formula.Number.Precise
import Formula.Text.Blank
import Formula.Text.Digits
import Formula.Text.Lowercase

/-! Texts of numbers. Decimal digits of all scripts count, and single underscores may separate
digits. Numbers of 53 binary digits and precise numbers are read from almost the same texts. -/
namespace Formula.Number

/-- The parts of a decimal text: digits, and underscores between digits. -/
structure NumeralText where
  negative : Bool
  whole : List Char
  fraction : List Char
  exponent : List Char
  exponentNegative : Bool
deriving DecidableEq, Inhabited

inductive Numeral where
  | nan
  | infinity (negative : Bool)
  | decimal (t : NumeralText)
deriving DecidableEq, Inhabited

/-- The most digits that the text of an integer may have. -/
def maxIntegerDigits : Nat := 4300

def isAsciiDigit (c : Char) : Bool := '0' ≤ c && c ≤ '9'

/-- One character with the digits and blanks of all scripts as those of the first 128 code
points. -/
def asciiForm (c : Char) : Char :=
  if c.toNat < 128 then c
  else if Text.isBlank c then ' '
  else match Text.digitValue? c with
    | some v => Char.ofNat (48 + v)
    | none => c

def isSpacing (c : Char) : Bool := c == ' ' || ('\t' ≤ c && c ≤ '\r')

def plainForm (cs : List Char) : List Char :=
  (((cs.map asciiForm).dropWhile isSpacing).reverse.dropWhile isSpacing).reverse

def groupedFrom : Char → List Char → Bool
  | before, [] => before ≠ '_'
  | before, c :: rest =>
    (if c = '_' then isAsciiDigit before else before ≠ '_' || isAsciiDigit c) && groupedFrom c rest

def isGrouped (cs : List Char) : Bool := groupedFrom ' ' cs

def isDigitOrBar (c : Char) : Bool := isAsciiDigit c || c == '_'

def takeSign : List Char → Bool × List Char
  | '-' :: rest => (true, rest)
  | '+' :: rest => (false, rest)
  | cs => (false, cs)

/-- The value of decimal digits. Other characters are skipped. -/
def digitsValue (cs : List Char) : Nat :=
  cs.foldl (fun n c => if isAsciiDigit c then 10 * n + (c.toNat - 48) else n) 0

def readExponent? : List Char → Option (Bool × List Char)
  | [] => some (false, [])
  | c :: rest =>
    if c = 'e' ∨ c = 'E' then
      let (negative, ds) := takeSign rest
      if !ds.isEmpty && ds.all isDigitOrBar then some (negative, ds) else none
    else none

/-- Digits with a point, of which one side may be missing, and an exponent. -/
def readDecimal? (negative : Bool) (cs : List Char) : Option NumeralText :=
  let whole := cs.takeWhile isDigitOrBar
  let (fraction, rest) :=
    match cs.dropWhile isDigitOrBar with
    | '.' :: rest => (rest.takeWhile isDigitOrBar, rest.dropWhile isDigitOrBar)
    | rest => ([], rest)
  if whole.isEmpty && fraction.isEmpty then none
  else (readExponent? rest).map fun e => ⟨negative, whole, fraction, e.2, e.1⟩

def Numeral.read? (cs : List Char) : Option Numeral :=
  let cs := plainForm cs
  if !isGrouped cs then none
  else
    let (negative, body) := takeSign cs
    let word := String.ofList (body.map Char.toLower)
    if word = "inf" ∨ word = "infinity" then some (.infinity negative)
    else if word = "nan" then some .nan
    else (readDecimal? negative body).map .decimal

def readInt? (cs : List Char) : Option Int :=
  let cs := plainForm cs
  let (negative, body) := takeSign cs
  if body.isEmpty || !body.all isDigitOrBar || !isGrouped cs
      || maxIntegerDigits < (body.filter isAsciiDigit).length then none
  else some (if negative then -(digitsValue body : Int) else digitsValue body)

def NumeralText.scaled (t : NumeralText) : Nat × Int :=
  let e : Int := digitsValue t.exponent
  (digitsValue (t.whole ++ t.fraction),
    (if t.exponentNegative then -e else e) - (t.fraction.filter isAsciiDigit).length)

/-- The number of 53 binary digits nearest to `n * 10 ^ e`. -/
def Binary64.ofScaled (negative : Bool) (n : Nat) (e : Int) : Binary64 :=
  let signed (x : Binary64) : Binary64 := if negative then x.neg else x
  if n = 0 then .zero negative
  else
    let size := e + (n.log2 * 30103 / 100000 : Nat)
    if 400 < size then .infinity negative
    else if size < -400 then .zero negative
    else if 0 ≤ e then signed (.ofDyadic ((n * tenTo e.toNat : Nat) : Dyadic))
    else signed (.ofDyadic (stickyQuotient 60 (n : Dyadic) ((tenTo (-e).toNat : Nat) : Dyadic)))

def Binary64.read? (cs : List Char) : Option Binary64 :=
  (Numeral.read? cs).map fun
    | .nan => .nan
    | .infinity n => .infinity n
    | .decimal t => let (n, e) := t.scaled; .ofScaled t.negative n e

/-- The power of ten to an exponent beyond four hundred, cut to `p` binary digits. Its reciprocal
is taken of a power that is a little too large. -/
def largePowerOfTen (p : Nat) (e : Int) : Dyadic :=
  if 0 ≤ e then truncateTo p (cutPower p 10 e.toNat)
  else
    let q := p + 5
    let x := truncateTo q (cutPower q 10 (-e).toNat)
    truncateTo p (stickyQuotient (p + 2) 1 (x + powerOfTwo (leading x - q + 1)))

def Precise.ofScaled (p : Nat) (n e : Int) : Precise :=
  if 400 < e.natAbs then
    .finite (roundTo p (truncateTo (p + 10) (n : Dyadic) * largePowerOfTen (p + 10) e))
  else if 0 ≤ e then .finite (roundTo p ((n * tenTo e.toNat : Int) : Dyadic))
  else .finite (roundTo p (stickyQuotient (p + 2) (n : Dyadic) ((tenTo (-e).toNat : Nat) : Dyadic)))

inductive NumeralFault where
  | malformed
  | divisionByZero
deriving DecidableEq, Repr, Inhabited

def Precise.readFraction (p : Nat) (num den : List Char) : Except NumeralFault Precise :=
  match readInt? num, readInt? den with
  | some n, some d =>
    match Precise.div? p (.ofInt n) (.ofInt d) with
    | some x => .ok x
    | none => .error .divisionByZero
  | _, _ => .error .malformed

/-- The number of zeros in front of the exponent. Zeros of other scripts do not count. -/
def finalZeros (cs : List Char) : Nat :=
  ((cs.takeWhile (· ≠ 'e')).reverse.takeWhile (· == '0')).length

/-- The decimal that a text with so many final zeros denotes. Those of the fraction are dropped, but
something has to remain; and underscores in the fraction count as digits when the point is
placed. -/
def Precise.ofNumeralText (p : Nat) (t : NumeralText) (zeros : Nat) : Except NumeralFault Precise :=
  let fraction := t.fraction.take (t.fraction.length - zeros)
  let digits := t.whole ++ fraction
  let count (cs : List Char) : Nat := (cs.filter isAsciiDigit).length
  if digits.isEmpty || fraction.getLast? == some '_'
      || maxIntegerDigits < count digits || maxIntegerDigits < count t.exponent then
    .error .malformed
  else
    let n : Int := digitsValue digits
    let e : Int := digitsValue t.exponent
    .ok (Precise.ofScaled p (if t.negative then -n else n)
      ((if t.exponentNegative then -e else e) - fraction.length))

def dropFinalL (cs : List Char) : List Char := (cs.reverse.dropWhile (· == 'l')).reverse

/-- The precise number that a text denotes, to `p` binary digits: a decimal, a fraction of integers,
an infinity or the invalid number. -/
def Precise.read (p : Nat) (s : String) : Except NumeralFault Precise :=
  let cs := Text.strip (Text.lower s).toList
  if cs = "inf".toList ∨ cs = "+inf".toList then .ok (.infinity false)
  else if cs = "-inf".toList then .ok (.infinity true)
  else if cs = "nan".toList then .ok .nan
  else if cs.contains '/' then
    let num := cs.takeWhile (· ≠ '/')
    let den := (cs.dropWhile (· ≠ '/')).drop 1
    if den.contains '/' then .error .malformed
    else Precise.readFraction p (dropFinalL num) (dropFinalL den)
  else
    let cs := dropFinalL cs
    match Numeral.read? cs with
    | some (.decimal t) => Precise.ofNumeralText p t (finalZeros cs)
    | _ => .error .malformed

end Formula.Number
