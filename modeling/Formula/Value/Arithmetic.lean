import Formula.Number.Complex
import Formula.Value

/-! Arithmetic and comparison of values. Integers stay integers under sums, differences and
products; otherwise an operation is computed with 53 binary digits, or with the `p` digits of the
precision in use if an operand is precise. Comparisons are exact across all kinds. -/
namespace Formula
open Number

/-- Two operands in the arithmetic in which they meet. -/
inductive Operands where
  | integers (m n : Int)
  | floats (x y : Binary64)
  | precise (x y : Precise)
  | complex (a b c d : Precise)
deriving Inhabited

namespace Value

def plainFloat? : Value → Except Fault Binary64
  | float x => .ok x
  | integer n => (integer n).toFloat? 0
  | _ => .error .wrongKind

/-- Brings two values into a common arithmetic. -/
def meet? (p : Nat) (a b : Value) : Except Fault Operands :=
  match a, b with
  | .integer m, .integer n => .ok (.integers m n)
  | a, b =>
    if a.isPrecise || b.isPrecise then
      match a.real? p, b.real? p with
      | some x, some y => .ok (.precise x y)
      | _, _ =>
        match a.parts? p, b.parts? p with
        | some (x, x'), some (y, y') => .ok (.complex x x' y y')
        | _, _ => .error .wrongKind
    else do return .floats (← a.plainFloat?) (← b.plainFloat?)

def add (p : Nat) (a b : Value) : Except Fault Value :=
  match a, b with
  | .text s, .text t => .ok (.text (s ++ t))
  | a, b => do
    match ← meet? p a b with
    | .integers m n => return .integer (m + n)
    | .floats x y => return .float (x.add y)
    | .precise x y => return .precise (x.add p y)
    | .complex x x' y y' => return .complex (x.add p y) (x'.add p y')

def sub (p : Nat) (a b : Value) : Except Fault Value := do
  match ← meet? p a b with
  | .integers m n => return .integer (m - n)
  | .floats x y => return .float (x.sub y)
  | .precise x y => return .precise (x.sub p y)
  | .complex x x' y y' => return .complex (x.sub p y) (x'.sub p y')

def mul (p : Nat) (a b : Value) : Except Fault Value :=
  match a, b with
  | .text s, .integer n => .ok (.text (String.join (List.replicate n.toNat s)))
  | .integer n, .text s => .ok (.text (String.join (List.replicate n.toNat s)))
  | a, b => do
    match ← meet? p a b with
    | .integers m n => return .integer (m * n)
    | .floats x y => return .float (x.mul y)
    | .precise x y => return .precise (x.mul p y)
    | .complex x x' y y' =>
      -- The products have digits to spare: only their sums are rounded to `p`.
      let w := 4 * p + 64
      return .complex ((x.mul w y).sub p (x'.mul w y')) ((x.mul w y').add p (x'.mul w y))

def quotient (p : Nat) (a b : Value) : Except Fault Value := do
  match ← meet? p a b with
  | .integers m n =>
    if n = 0 then throw .divisionByZero
    -- The quotient is rounded once, however large the integers are.
    match Binary64.ofDyadic (stickyQuotient 60 m n) with
    | .infinity _ => throw .overflow
    | x => return .float x
  | .floats x y => if y.isZero then throw .divisionByZero else return .float (x.div y)
  | .precise x y =>
    match x.div? p y with
    | some z => return .precise z
    | none => throw .divisionByZero
  | .complex .. => throw .wrongKind

def abs (p : Nat) : Value → Except Fault Value
  | float x => .ok (.float x.abs)
  | integer n => .ok (.integer n.natAbs)
  | precise x => .ok (.precise (x.abs p))
  | constant c => .ok (.precise ((c.value p).abs p))
  | complex re im => .ok (.precise (re.hypot p im))
  | _ => .error .wrongKind

/-- Compares two real numbers exactly, or two texts by their characters. -/
def less (p : Nat) (a b : Value) : Except Fault Bool :=
  match a, b with
  | .text s, .text t => .ok (s < t)
  | a, b =>
    match a.real? p, b.real? p with
    | some x, some y => .ok (x.lt y)
    | _, _ => .error .wrongKind

def isPositive (p : Nat) (a : Value) : Except Fault Bool := (Value.integer 0).less p a

def atMost (p : Nat) (a b : Value) : Except Fault Bool :=
  match a.real? p, b.real? p with
  | some x, some y => .ok (x.le y)
  | _, _ => .error .wrongKind

/-- The smaller of two values, the first one if neither is. -/
def least (p : Nat) (a b : Value) : Except Fault Value := do
  if ← b.less p a then return b else return a

def greatest (p : Nat) (a b : Value) : Except Fault Value := do
  if ← a.less p b then return b else return a

/-- The quotient, with infinities for a zero divisor and the invalid number for zero by zero. -/
def divide (p : Nat) (a b : Value) : Except Fault Value :=
  if a.isPrecise || b.isPrecise then do
    if b.isZero p then
      if a.isZero p then return invalid
      if ← a.isNaN? then return invalid
      return .precise (.infinity !(← a.isPositive p))
    let x ← a.toPrecise? p
    match b with
    | .complex y y' =>
      let w := 4 * p + 64
      let size := (y.mul w y).add (p + 10) (y'.mul w y')
      return .complex (((x.mul w y).div? p size).getD .nan)
        ((((x.mul w y').div? p size).getD .nan).neg p)
    | b =>
      match b.real? p with
      | some y => return .precise ((x.div? p y).getD .nan)
      | none => throw .wrongKind
  else do
    let x ← a.floatOperand? p
    let y ← b.floatOperand? p
    return .float (x.div y)

/-- The remainder of the division truncated towards zero: it has the sign of the dividend. -/
def modulo (p : Nat) (a b : Value) : Except Fault Value :=
  if a.isPrecise || b.isPrecise then do
    if b.isZero p then return invalid
    let x ← (← a.abs p).preciseOperand? p
    let y ← (← b.abs p).preciseOperand? p
    let r := x.floorMod p y
    if ← (Value.integer 0).atMost p a then return .precise r
    return .precise (r.neg p)
  else do
    let x ← a.floatOperand? p
    let y ← b.floatOperand? p
    return .float (x.mod y)

/-- Values closer than this are equal for the comparison operators: the number of 53 binary digits
nearest to `1e-10`. -/
def epsilon : Value := .float (.finite (.ofIntWithPrec 7737125245533627 86) (by decide))

def distance (p : Nat) (a b : Value) : Except Fault Value := do (← a.sub p b).abs p

def isNear (p : Nat) (a b : Value) : Except Fault Bool := do
  (← a.distance p b).less p epsilon

def isFar (p : Nat) (a b : Value) : Except Fault Bool := do
  epsilon.less p (← a.distance p b)

def isNonzero (p : Nat) (a : Value) : Except Fault Bool := do
  (← a.abs p).isPositive p

def agrees (p : Nat) (a b relative absolute : Value) : Except Fault Bool := do
  let d ← a.distance p b
  let size ← (← a.abs p).greatest p (← b.abs p)
  d.atMost p (← (← relative.mul p size).greatest p absolute)

def isClose (p : Nat) (a b : Value) (relative absolute : Option Value) : Except Fault Bool :=
  agrees p a b (relative.getD (.float (.finite (.ofIntWithPrec 4835703278458517 82) (by decide))))
    (absolute.getD (.float (.zero false)))

/-- Whether two precise numbers agree within an absolute tolerance, or one relative to the greater
of them. Where only one tolerance is given, it serves as both. -/
def isCloseRelative (p : Nat) (a b : Value) (relative absolute : Option Value) :
    Except Fault Bool := do
  let standard : Value := .precise (.finite (powerOfTwo (4 - p)))
  let b : Value ←
    match b with
    | .complex .. => pure b
    | b => precise <$> b.preciseOperand? p
  let d ← a.distance p b
  if ← d.atMost p (absolute.getD (relative.getD standard)) then return true
  let x ← a.abs p
  let y ← b.abs p
  let error ← d.quotient p (if ← x.less p y then y else x)
  error.atMost p (relative.getD (absolute.getD standard))

end Value

end Formula
