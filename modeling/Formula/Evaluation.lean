import Formula.Store

/-! Evaluations: computations of a value from the values of variables. They may have effects beside
their value, or end with a fault instead. -/
namespace Formula
open Number

structure Effects where
  seed : Nat := 20250101
  calls : Nat → Nat := fun _ => 0
deriving Inhabited

namespace Effects

def count (e : Effects) (counter : Nat) : Effects :=
  { e with calls := fun i => if i = counter then e.calls i + 1 else e.calls i }

def stir (seed : Nat) : Nat :=
  (seed * 6364136223846793005 + 1442695040888963407) % 0x10000000000000000

/-- A fraction of `2 ^ 53` between zero and one, neither of them. -/
def fraction (seed : Nat) : Nat := max 1 (seed / 0x800)

end Effects

/-- What an evaluation may look at. -/
structure Circumstances where
  precision : Precision
  value : VariableId → Value

abbrev Evaluation (α : Type) := ReaderT Circumstances (EStateM Fault Effects) α

namespace Evaluation

def bits : Evaluation Nat := return (← read).precision.bits

def ofExcept {α : Type} : Except Fault α → Evaluation α
  | .ok a => pure a
  | .error f => throw f

def random : Evaluation Dyadic := do
  let e ← getThe Effects
  let seed := Effects.stir e.seed
  set { e with seed := seed }
  return .ofIntWithPrec (Effects.fraction seed) 53

def count (counter : Nat) : Evaluation Nat := do
  let e := (← getThe Effects).count counter
  set e
  return e.calls counter

end Evaluation

end Formula
