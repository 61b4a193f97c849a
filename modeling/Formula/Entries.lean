/-! Lists of entries by name. Each name stands at most once; the order is that in which the names
came. -/
namespace Formula

/-- The entries with a value for a name added, or replaced in its place. -/
def putEntry {β : Type} (entries : List (String × β)) (name : String) (value : β) :
    List (String × β) :=
  if entries.any (·.1 == name) then
    entries.map fun e => if e.1 == name then (name, value) else e
  else entries ++ [(name, value)]

def distinct (items : List String) : List String :=
  items.foldl (fun seen s => if seen.contains s then seen else seen ++ [s]) []

end Formula
