import Formula.Function
import Formula.Operator

/-! Expressions: trees of constants, references to variables, binary operations and calls. -/
namespace Formula
open Number

inductive Expr where
  | constant (v : Value)
  | reference (v : VariableId) (name : String)
  /-- A sealed operation stood in brackets: the order of its operands is left alone. -/
  | binary (op : Operator) (left right : Expr) (isSealed : Bool)
  | call (f : Function) (name : String) (args : List Expr)

namespace Expr

instance : Inhabited Expr := ⟨.constant .invalid⟩

def empty : Expr := .constant .invalid

mutual

/-- The value of the expression. Both operands of an operation are evaluated, in their order. -/
def evaluate : Expr → Evaluation Value
  | .constant v => pure v
  | .reference v _ => return (← read).value v
  | .binary op l r _ => do
    let a ← l.evaluate
    let b ← r.evaluate
    .ofExcept (op.evaluate (← Evaluation.bits) a b)
  | .call f _ args => f.call (evaluations args)

def evaluations : List Expr → List (Evaluation Value)
  | [] => []
  | e :: rest => e.evaluate :: evaluations rest

end

/-- Whether the value can never change, given which variables are constant. Calls do not count. -/
def isConstant (fixed : VariableId → Bool) : Expr → Bool
  | .constant _ => true
  | .reference v _ => fixed v
  | _ => false

def inBrackets : Expr → Expr
  | .binary op l r _ => .binary op l r true
  | e => e

def isSealed : Expr → Bool
  | .binary _ _ _ s => s
  | _ => false

def kind : Expr → String
  | .constant _ => "Constant"
  | .reference .. => "VariableReference"
  | .binary .. => "BinaryOperation"
  | .call .. => "FunctionCall"

mutual

def toText (pr : Precision) : Expr → String
  | .constant v => v.toText pr
  | .reference _ name => name
  | .binary op l r _ => "(" ++ l.toText pr ++ " " ++ op.label ++ " " ++ r.toText pr ++ ")"
  | .call _ name args => name ++ "(" ++ ", ".intercalate (texts pr args) ++ ")"

def texts (pr : Precision) : List Expr → List String
  | [] => []
  | e :: rest => e.toText pr :: texts pr rest

end

def describe (pr : Precision) (e : Expr) : String := "<" ++ e.kind ++ " " ++ e.toText pr ++ ">"

def title (pr : Precision) : Expr → String
  | .binary op _ _ s => op.label ++ (if s then " (sealed)" else "")
  | .call _ name _ => name ++ "()"
  | e => e.toText pr

def keyedFrom : Nat → List Expr → List (String × Expr)
  | _, [] => []
  | i, e :: rest => ("arg" ++ toString i, e) :: keyedFrom (i + 1) rest

def children : Expr → List (String × Expr)
  | .binary _ l r _ => [("left", l), ("right", r)]
  | .call _ _ args => keyedFrom 0 args
  | _ => []

/-- A node with its key and the nodes above it, from the root down. -/
structure Visit where
  parents : List Expr
  key : String
  node : Expr

mutual

/-- What is below the node, parts after the whole and from left to right. -/
def descend (parents : List Expr) : Expr → List Visit
  | .binary op l r s =>
    let path := parents ++ [.binary op l r s]
    ⟨path, "left", l⟩ :: (l.descend path ++ ⟨path, "right", r⟩ :: r.descend path)
  | .call f name args => descendAll (parents ++ [.call f name args]) 0 args
  | _ => []

def descendAll (path : List Expr) : Nat → List Expr → List Visit
  | _, [] => []
  | i, e :: rest =>
    ⟨path, "arg" ++ toString i, e⟩ :: (e.descend path ++ descendAll path (i + 1) rest)

end

def visits (e : Expr) : List Visit := ⟨[], "", e⟩ :: e.descend []

def line (pr : Precision) (depth : Nat) (key : String) (e : Expr) : String :=
  String.join (List.replicate depth ". ") ++ key ++ " [" ++ e.title pr ++ "] <" ++ e.kind ++ ">"

def listing (pr : Precision) (rootName : String) (e : Expr) : List String :=
  e.line pr 0 rootName :: (e.descend []).map fun v => v.node.line pr v.parents.length v.key

end Expr

end Formula
