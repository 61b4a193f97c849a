import Formula.Function

/-! Functions that are not there from the start and may be registered. -/
namespace Formula

namespace Plan

def averageFrom (p count : Nat) : (remaining index : Nat) → (total : Value) → Plan
  | 0, _, total => .answer (total.quotient p (.integer count))
  | remaining + 1, index, total => .ask index fun v =>
    match total.add p v with
    | .ok total => averageFrom p count remaining (index + 1) total
    | .error f => .answer (.error f)

end Plan

namespace Function

def average (name : String) : Function :=
  { kind := "Average", name, arity := none
    behaviour := .natural fun p count => .averageFrom p count count 0 (.integer 0) }

def answer (name : String) : Function :=
  { kind := "Answer", name, arity := some 0
    behaviour := .natural fun _ _ => .answer (.ok (.float (.ofDyadic 42))) }

/-- The number of its calls. Arguments are never evaluated. -/
def counter (number : Nat) (name : String) : Function :=
  { kind := "Counter", name, arity := none
    behaviour := .active fun _ => do
      return .float (.ofDyadic ((← Evaluation.count number) : Dyadic)) }

def first (name : String) : Function :=
  { kind := "First", name, arity := some 2
    behaviour := .natural fun _ _ => .ask 0 fun v => .answer (.ok v) }

end Function

end Formula
