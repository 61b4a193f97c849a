import Formula.Entries
import Formula.Function
import Formula.Text.Quoted

/-! Registries: the names under which functions are called. -/
namespace Formula

inductive Candidate where
  | function (f : Function)
  | text (s : String)

/-- Functions by name, each name once, with the warnings that registering has caused. -/
structure Registry where
  entries : List (String × Function) := []
  warnings : List String := []

namespace Registry

def builtin : Registry := { entries := Function.builtin.map fun f => (f.name, f) }

instance : Inhabited Registry := ⟨{}⟩

def get? (r : Registry) (name : String) : Option Function := r.entries.lookup name

def has (r : Registry) (name : String) : Bool := (r.get? name).isSome

def names (r : Registry) : List String := (r.entries.map (·.1)).mergeSort (· ≤ ·)

def size (r : Registry) : Nat := r.entries.length

/-- Registers a function. Replacing one is worth a warning. -/
def register (name : String) (c : Candidate) : EStateM Fault Registry Unit := do
  match c with
  | .text s => throw (.notAFunction (Text.quoted s))
  | .function f =>
    let r ← get
    set { r with
      entries := putEntry r.entries name f
      warnings := if r.has name then r.warnings ++ ["Replacing function `" ++ name ++ "`."]
        else r.warnings }

def registerAll (cs : List (String × Candidate)) : EStateM Fault Registry Unit :=
  cs.forM fun c => register c.1 c.2

def unregister (r : Registry) (name : String) : Option Function × Registry :=
  (r.get? name, { r with entries := r.entries.filter (·.1 ≠ name) })

end Registry

end Formula
