import Formula.Expr

/-! Simplification. Parts that can never change are computed once: constant variables, operations on
constants, and calls of natural functions with constant arguments. Sums and products move their
constants to the left and combine them, unless they are sealed. A node is simplified in place where
that is possible, and otherwise replaced by another one. -/
namespace Formula
open Number

structure Knowledge where
  bits : Nat
  fixed : VariableId → Option Value

def Store.knowledge (st : Store) (bits : Nat) : Knowledge := ⟨bits, st.fixed?⟩

/-- The outcome of a simplification. -/
structure Simplified where
  node : Expr
  /-- The expression that replaces it, if one does, or the fault that stopped the simplification. -/
  replacement : Except Fault (Option Expr) := .ok none

namespace Simplified

def result (s : Simplified) : Except Fault Expr := s.replacement.map fun e => e.getD s.node

def isKept (s : Simplified) : Bool :=
  match s.replacement with
  | .ok none => true
  | _ => false

/-- The expression that is there afterwards, also after a fault. -/
def expression (s : Simplified) : Expr :=
  match s.replacement with
  | .ok (some e) => e
  | _ => s.node

end Simplified

namespace Expr

def constant? : Expr → Option Value
  | .constant v => some v
  | _ => none

def constants? (es : List Expr) : Option (List Value) := es.mapM constant?

/-- Combines constants of a sum or product of which the operands are simplified. The right operand
is no constant. -/
def regroup (k : Knowledge) (op : Operator) (l r : Expr) : Except Fault (Option Expr) :=
  match r with
  | .binary op' l' r' false =>
    if op' = op then
      match l, l' with
      | .constant a, .constant b => do
        -- Not `evaluate`: here a numeric fault ends the simplification.
        return some (.binary op (.constant (← op.apply k.bits a b)) r' false)
      | _, .constant b => .ok (some (.binary op (.constant b) (.binary op l r' false) false))
      | _, _ => .ok none
    else .ok none
  | _ => .ok none

def combine (k : Knowledge) (op : Operator) (l r : Expr) (s : Bool) : Simplified :=
  match l, r with
  | .constant a, .constant b =>
    ⟨.binary op l r s, (op.evaluate k.bits a b).map fun v => some (.constant v)⟩
  | l, r =>
    if !op.isCommutative || s then ⟨.binary op l r s, .ok none⟩
    else match r with
      -- Constants go to the left, which is where `regroup` looks for them.
      | .constant _ => ⟨.binary op r l s, regroup k op r l⟩
      | r => ⟨.binary op l r s, regroup k op l r⟩

def settle (k : Knowledge) (f : Function) (name : String) (args : List Expr) : Simplified :=
  let node := Expr.call f name args
  match f.behaviour, constants? args with
  | .natural plan, some vs =>
    ⟨node, ((plan k.bits vs.length).decide vs).map fun v => some (.constant v)⟩
  | _, _ => ⟨node, .ok none⟩

mutual

def simplify (k : Knowledge) : Expr → Simplified
  | .constant v => ⟨.constant v, .ok none⟩
  | .reference v name => ⟨.reference v name, .ok ((k.fixed v).map .constant)⟩
  | .binary op l r s =>
    let left := l.simplify k
    match left.result with
    | .error f => ⟨.binary op left.node r s, .error f⟩
    | .ok l =>
      let right := r.simplify k
      match right.result with
      | .error f => ⟨.binary op l right.node s, .error f⟩
      | .ok r => combine k op l r s
  | .call f name args =>
    match simplifyAll k args with
    | (args, none) => settle k f name args
    | (nodes, some fault) => ⟨.call f name nodes, .error fault⟩

/-- The simplified expressions. After a fault they are the nodes themselves, simplified as far as
simplification went. -/
def simplifyAll (k : Knowledge) : List Expr → List Expr × Option Fault
  | [] => ([], none)
  | e :: rest =>
    let s := e.simplify k
    match s.result with
    | .error f => (s.node :: rest, some f)
    | .ok e =>
      match simplifyAll k rest with
      | (es, none) => (e :: es, none)
      | (nodes, some f) => (s.node :: nodes, some f)

end

end Expr

end Formula
