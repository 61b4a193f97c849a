import Formula.Value.Elementary

/-! Binary operators. -/
namespace Formula

inductive Operator where
  | add
  | subtract
  | multiply
  | divide
  | modulo
  | power
  | less
  | lessEqual
  | equal
  | greaterEqual
  | greater
  | notEqual
  | and
  | or
deriving DecidableEq, Repr, Inhabited

namespace Operator

def all : List Operator :=
  [add, subtract, multiply, divide, modulo, power, less, lessEqual, equal, greaterEqual, greater,
    notEqual, and, or]

def label : Operator → String
  | add => "ADD"
  | subtract => "SUBTRACT"
  | multiply => "MULTIPLY"
  | divide => "DIVIDE"
  | modulo => "MODULO"
  | power => "POWER"
  | less => "LT"
  | lessEqual => "LT_EQ"
  | equal => "EQ"
  | greaterEqual => "GT_EQ"
  | greater => "GT"
  | notEqual => "NEQ"
  | and => "AND"
  | or => "OR"

def ofLabel? (s : String) : Option Operator := all.find? (·.label == s)

def symbol : Operator → String
  | add => "+"
  | subtract => "-"
  | multiply => "*"
  | divide => "/"
  | modulo => "%"
  | power => "^"
  | less => "<"
  | lessEqual => "<="
  | equal => "="
  | greaterEqual => ">="
  | greater => ">"
  | notEqual => "!="
  | and => "&&"
  | or => "||"

/-- Operators of a higher priority bind stronger. Those of one priority go from left to right. -/
def priority : Operator → Nat
  | or | and => 1
  | less | lessEqual | equal | greaterEqual | greater | notEqual => 2
  | add | subtract => 3
  | multiply | divide | modulo => 4
  | power => 5

/-- Whether operands may be swapped, and chains grouped in any way. -/
def isCommutative : Operator → Bool
  | add | multiply => true
  | _ => false

/-- Whether a comparison holds, where numbers are equal up to a small distance. -/
def holds (p : Nat) (a b : Value) : Operator → Except Fault Bool
  | less => a.less p b
  | lessEqual => do if ← a.less p b then return true else a.isNear p b
  | equal => a.isNear p b
  | greaterEqual => do if ← b.less p a then return true else a.isNear p b
  | greater => b.less p a
  | notEqual => a.isFar p b
  -- Both operands have been evaluated by now; only the second test is saved.
  | and => do if ← a.isNonzero p then b.isNonzero p else return false
  | or => do if ← a.isNonzero p then return true else b.isNonzero p
  | _ => .ok false

def apply (p : Nat) (op : Operator) (a b : Value) : Except Fault Value :=
  match op with
  | add => a.add p b
  | subtract => a.sub p b
  | multiply => a.mul p b
  | divide => a.divide p b
  | modulo => a.modulo p b
  | power => a.power p b
  | op => Value.ofBool <$> op.holds p a b

/-- The result, or the invalid number in place of a numeric fault. -/
def evaluate (p : Nat) (op : Operator) (a b : Value) : Except Fault Value :=
  Value.recover (op.apply p a b)

end Operator

end Formula
