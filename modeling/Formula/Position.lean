/-! Positions in a text: lines and columns count from one. -/
namespace Formula

/-- A line and a column within it. A line feed belongs to the line that it ends. -/
structure Position where
  line : Nat
  column : Nat
deriving DecidableEq, Repr, Inhabited

namespace Position

/-- The position of problems that no part of the text causes. -/
def unknown : Position := ⟨0, 0⟩

def start : Position := ⟨1, 0⟩

def next (p : Position) : Position := ⟨p.line, p.column + 1⟩

def after (p : Position) (c : Char) : Position :=
  if c = '\n' then ⟨p.line + 1, 0⟩ else p.next

def afterAll (p : Position) (cs : List Char) : Position := cs.foldl after p

instance : ToString Position := ⟨fun p => toString p.line ++ ":" ++ toString p.column⟩

@[simp] theorem afterAll_nil (p : Position) : p.afterAll [] = p := rfl

@[simp] theorem afterAll_cons (p : Position) (c : Char) (cs : List Char) :
    p.afterAll (c :: cs) = (p.after c).afterAll cs := rfl

theorem afterAll_append (p : Position) (cs ds : List Char) :
    p.afterAll (cs ++ ds) = (p.afterAll cs).afterAll ds := List.foldl_append

end Position

end Formula
