import Formula.Expr

/-! Reordering. Expressions are read from right to left, so that `a - b - c` comes as `a` and
`b - c`. An operand is therefore put in front of the leftmost operand of a chain of operators of one
priority. -/
namespace Formula.Expr

def isOpen (priority : Nat) : Expr → Bool
  | .binary op _ _ s => !s && op.priority = priority
  | _ => false

/-- Combines an operand with the leftmost operand of the chain of operations of a priority. -/
def insertLeft (op : Operator) (new : Expr) : Expr → Expr
  | .binary op' l r s =>
    if l.isOpen op.priority then .binary op' (insertLeft op new l) r s
    else .binary op' (.binary op new l false) r s
  | e => e

/-- Combines two operands such that operators of one priority go from left to right. -/
def reorder (op : Operator) (left right : Expr) : Expr :=
  if right.isOpen op.priority then insertLeft op left right else .binary op left right false

end Formula.Expr
