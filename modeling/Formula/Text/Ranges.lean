/-! Sets of characters as lists of inclusive ranges of code points. -/
namespace Formula.Text

/-- Inclusive ranges of code points. -/
abbrev Ranges := List (Nat × Nat)

namespace Ranges

def find? (rs : Ranges) (c : Char) : Option (Nat × Nat) :=
  List.find? (fun r => r.1 ≤ c.toNat && c.toNat ≤ r.2) rs

def contains (rs : Ranges) (c : Char) : Bool := (rs.find? c).isSome

end Ranges

end Formula.Text
