import Formula.Text.Ranges

/-! Blank characters and control characters. -/
namespace Formula.Text

/-- Blanks: separators, and the controls that move the print position. -/
def blankRanges : Ranges := [
  (0x9, 0xD), (0x1C, 0x20), (0x85, 0x85), (0xA0, 0xA0), (0x1680, 0x1680), (0x2000, 0x200A),
  (0x2028, 0x2029), (0x202F, 0x202F), (0x205F, 0x205F), (0x3000, 0x3000)]

def isBlank (c : Char) : Bool := blankRanges.contains c

def isControl (c : Char) : Bool := c.toNat < 32 || (127 ≤ c.toNat && c.toNat < 160)

def strip (cs : List Char) : List Char :=
  ((cs.dropWhile isBlank).reverse.dropWhile isBlank).reverse

/-- The maximal pieces without blanks: the piece that is being read, reversed, and the rest. -/
def wordsFrom : List Char → List Char → List (List Char)
  | [], [] => []
  | piece, [] => [piece.reverse]
  | piece, c :: rest =>
    if isBlank c then
      if piece.isEmpty then wordsFrom [] rest else piece.reverse :: wordsFrom [] rest
    else wordsFrom (c :: piece) rest

def words (cs : List Char) : List (List Char) := wordsFrom [] cs

end Formula.Text
