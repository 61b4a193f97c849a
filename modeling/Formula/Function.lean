import Formula.Evaluation
import Formula.Value.Elementary

/-! Functions that expressions may call. A function gets its arguments as evaluations, so that it
can leave some of them out. Natural functions have the same value for the same arguments at all
times. -/
namespace Formula
open Number

/-- How a natural function comes to its value: it asks for the values of arguments, one after
another, and answers. -/
inductive Plan where
  | answer (result : Except Fault Value)
  | ask (index : Nat) (next : Value → Plan)

namespace Plan

def decide (args : List Value) : Plan → Except Fault Value
  | answer r => r
  | ask i next =>
    match args[i]? with
    | some v => (next v).decide args
    | none => .error .missingArgument

/-- The value, for which only those arguments are evaluated that are asked for. -/
def run (args : List (Evaluation Value)) : Plan → Evaluation Value
  | answer r => .ofExcept r
  | ask i next => do
    let v ← args.getD i (throw .missingArgument)
    (next v).run args

/-- Asks for an argument, of which an invalid number is the value at once. -/
def askValid (index : Nat) (next : Value → Plan) : Plan :=
  .ask index fun v =>
    match v.isNaN? with
    | .error f => .answer (.error f)
    | .ok true => .answer (.ok v)
    | .ok false => next v

end Plan

inductive Behaviour where
  | natural (plan : (p count : Nat) → Plan)
  | active (run : List (Evaluation Value) → Evaluation Value)

structure Function where
  kind : String
  name : String
  arity : Option Nat
  behaviour : Behaviour

namespace Function

def isNatural (f : Function) : Bool :=
  match f.behaviour with
  | .natural _ => true
  | .active _ => false

def call (f : Function) (args : List (Evaluation Value)) : Evaluation Value :=
  match f.behaviour with
  | .natural plan => do (plan (← Evaluation.bits) args.length).run args
  | .active run => run args

def arityText : Option Nat → String
  | some n => toString n
  | none => "-1"

def describe (f : Function) : String :=
  "<" ++ f.kind ++ " " ++ f.name ++ "/" ++ arityText f.arity ++ ">"

def accepts (f : Function) (count : Nat) : Bool := f.arity.all (· == count)

def unary (name : String) (rule : UnaryRule) : Function :=
  { kind := "UnaryFunction", name, arity := some 1
    behaviour := .natural fun p _ => .askValid 0 fun a => .answer (.ok (a.apply p rule)) }

/-- The second argument is not asked for if the first one is invalid. -/
def binary (name : String) (rule : BinaryRule) : Function :=
  { kind := "BinaryFunction", name, arity := some 2
    behaviour := .natural fun p _ =>
      .askValid 0 fun a => .askValid 1 fun b => .answer (a.apply₂ p rule b) }

def argument (args : List (Evaluation Value)) (index : Nat) : Evaluation Value :=
  args.getD index (throw .missingArgument)

def choose (args : List (Evaluation Value)) : Evaluation Value := do
  let condition ← argument args 0
  if ← .ofExcept condition.isNaN? then return condition
  -- The argument that is not chosen is never evaluated.
  if ← .ofExcept (condition.isNonzero (← Evaluation.bits)) then argument args 1
  else argument args 2

def choice : Function :=
  { kind := "IfFunction", name := "if", arity := some 3, behaviour := .active choose }

/-- Multiplies numbers with a random one. -/
def randomRule (r : Dyadic) : UnaryRule :=
  .entire (Binary64.ofDyadic r).mul (fun p x => x.mul p (.finite r)) fun p z =>
    z.scaled p (.finite r)

def drawBelow (args : List (Evaluation Value)) : Evaluation Value := do
  let bound ← argument args 0
  if ← .ofExcept bound.isNaN? then return bound
  return bound.apply (← Evaluation.bits) (randomRule (← Evaluation.random))

def random : Function :=
  { kind := "RandomFunction", name := "rnd", arity := some 1, behaviour := .active drawBelow }

def builtin : List Function :=
  [unary "sin" .sin, unary "cos" .cos, unary "tan" .tan, unary "sinh" .sinh, unary "cosh" .cosh,
    unary "tanh" .tanh, unary "asin" .asin, unary "acos" .acos, unary "atan" .atan,
    unary "deg" .degrees, unary "rad" .radians, unary "abs" .abs, unary "round" .round,
    unary "ceil" .ceil, unary "floor" .floor, unary "exp" .exp, unary "ln" .ln,
    unary "log" .log10, unary "sqrt" .sqrt, unary "sign" .sign, binary "atan2" .angle,
    binary "pow" .power, binary "min" .least, binary "max" .greatest, random, choice]

def builtin? (name : String) : Option Function := builtin.find? (·.name == name)

/-- The absolute value, which bars around an expression stand for. -/
def absolute : Function := unary "abs" .abs

end Function

end Formula
