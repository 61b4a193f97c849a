import Formula.Proofs.Store.Naming
import Formula.Proofs.Value.Digits
import Formula.Expr.Parser

/-! Terms as they are written. A term is written with blanks around its operators and with brackets
where an operand binds too weakly. The expression that it stands for has the same shape, and
operations are sealed where the brackets are. -/
namespace Formula

open Number
open Lexer (isNameChar)

/-- A name: a letter from the first 128 characters, and characters that may follow in names. -/
structure Identifier where
  first : Char
  more : List Char
  letter : ('A' ≤ first ∧ first ≤ 'Z') ∨ ('a' ≤ first ∧ first ≤ 'z')
  names : ∀ c ∈ more, isNameChar c

namespace Identifier

def chars (n : Identifier) : List Char := n.first :: n.more

def text (n : Identifier) : String := String.ofList n.chars

end Identifier

inductive Term where
  | literal (d : Digits)
  | name (n : Identifier)
  | binary (op : Operator) (left right : Term)
  | call (n : Identifier) (args : List Term)

namespace Term

def isBelow (priority : Nat) : Term → Bool
  | .binary op _ _ => op.priority < priority
  | _ => false

def enclosed (needed : Bool) (cs : List Char) : List Char :=
  if needed then '(' :: (cs ++ [')']) else cs

mutual

/-- The term as it is written. Operators of one priority go from left to right, so that a right
operand needs brackets also if it has the priority itself. -/
def render : Term → List Char
  | .literal d => d.chars
  | .name n => n.chars
  | .binary op l r =>
    enclosed (l.isBelow op.priority) l.render ++ ' ' :: (op.symbol.toList
      ++ ' ' :: enclosed (r.isBelow (op.priority + 1)) r.render)
  | .call n args => n.chars ++ '(' :: (renderFirst args ++ [')'])

def renderFirst : List Term → List Char
  | [] => []
  | a :: rest => a.render ++ renderNext rest

def renderNext : List Term → List Char
  | [] => []
  | a :: rest => ',' :: ' ' :: (a.render ++ renderNext rest)

end

mutual

def literals : Term → List Digits
  | .literal d => [d]
  | .name _ => []
  | .binary _ l r => l.literals ++ r.literals
  | .call _ args => literalsOf args

def literalsOf : List Term → List Digits
  | [] => []
  | a :: rest => a.literals ++ literalsOf rest

end

mutual

/-- Every name that is called is the name of a function that takes so many arguments. -/
def Calls (g : Grammar) : Term → Prop
  | .literal _ | .name _ => True
  | .binary _ l r => l.Calls g ∧ r.Calls g
  | .call n args => (∃ f, g.functions.get? n.text = some f ∧ f.accepts args.length) ∧ AllCall g args

def AllCall (g : Grammar) : List Term → Prop
  | [] => True
  | a :: rest => a.Calls g ∧ AllCall g rest

end

end Term

def Digits.number (g : Grammar) (d : Digits) : Value :=
  match g.mode with
  | .float => .float (.ofScaled false d.value 0)
  | .precise => .precise (.ofScaled g.bits d.value 0)

mutual

/-- The expression has the shape of the term, and the operators, numbers and names that are in it.
It is sealed if it is said so, and its operands are sealed if they stand in brackets. -/
inductive Represents (g : Grammar) (st : Store) : (isSealed : Bool) → Term → Expr → Prop
  | literal {isSealed : Bool} (d : Digits) :
      Represents g st isSealed (.literal d) (.constant (d.number g))
  | name {isSealed : Bool} {n : Identifier} {v : VariableId}
      (found : st.find? g.scope n.text = .ok (some v)) :
      Represents g st isSealed (.name n) (.reference v n.text)
  | binary {isSealed : Bool} {op : Operator} {l r : Term} {x y : Expr}
      (left : Represents g st (l.isBelow op.priority) l x)
      (right : Represents g st (r.isBelow (op.priority + 1)) r y) :
      Represents g st isSealed (.binary op l r) (.binary op x y isSealed)
  | call {isSealed : Bool} {n : Identifier} {f : Function} {args : List Term} {es : List Expr}
      (known : g.functions.get? n.text = some f) (inner : RepresentsAll g st args es) :
      Represents g st isSealed (.call n args) (.call f n.text es)

inductive RepresentsAll (g : Grammar) (st : Store) : List Term → List Expr → Prop
  | nil : RepresentsAll g st [] []
  | cons {t : Term} {ts : List Term} {e : Expr} {es : List Expr} (head : Represents g st false t e)
      (tail : RepresentsAll g st ts es) : RepresentsAll g st (t :: ts) (e :: es)

end

section Represents

variable {g : Grammar} {st st' : Store}

mutual

theorem Represents.later {isSealed : Bool} {t : Term} {e : Expr} (keeps : st.Keeps g.scope st') :
    Represents g st isSealed t e → Represents g st' isSealed t e
  | .literal d => .literal d
  | .name found => .name (keeps _ _ found)
  | .binary left right => .binary (left.later keeps) (right.later keeps)
  | .call known inner => .call known (inner.later keeps)

theorem RepresentsAll.later {ts : List Term} {es : List Expr} (keeps : st.Keeps g.scope st') :
    RepresentsAll g st ts es → RepresentsAll g st' ts es
  | .nil => .nil
  | .cons head tail => .cons (head.later keeps) (tail.later keeps)

end

theorem Represents.inBrackets {isSealed : Bool} {t : Term} {e : Expr} :
    Represents g st isSealed t e → Represents g st true t e.inBrackets
  | .literal d => .literal d
  | .name found => .name found
  | .binary left right => .binary left right
  | .call known inner => .call known inner

theorem RepresentsAll.length {ts : List Term} {es : List Expr} :
    RepresentsAll g st ts es → es.length = ts.length
  | .nil => rfl
  | .cons _ tail => congrArg (· + 1) tail.length

end Represents

end Formula
