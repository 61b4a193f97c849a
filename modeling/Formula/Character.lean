import Formula.Position
import Formula.Text.Blank
import Formula.Text.Digits
import Formula.Text.Letters
import Formula.Text.Quoted

/-! Characters with their positions. The null character stands for the end of the input. -/
namespace Formula

/-- The character that stands for the end of the input. -/
def endMark : Char := '\x00'

structure Character where
  value : Char
  position : Position
deriving DecidableEq, Repr, Inhabited

namespace Character

def isEnd (c : Character) : Bool := c.value == endMark

def isDigit (c : Character) : Bool := Text.isDigit c.value

def isLetter (c : Character) : Bool := Text.isLetter c.value

def isBlank (c : Character) : Bool := Text.isBlank c.value && !c.isEnd

def isLineFeed (c : Character) : Bool := c.value == '\n'

def isControl (c : Character) : Bool := Text.isControl c.value

/-- Whether the character is one of the given texts. The end of the input is none of them. -/
def isAny (c : Character) (tests : List String) : Bool :=
  !c.isEnd && tests.contains (String.singleton c.value)

def text (c : Character) : String :=
  if c.isEnd then "" else String.singleton c.value

instance : ToString Character :=
  ⟨fun c => if c.isEnd then "<End Of Input>" else String.singleton c.value⟩

def describe (c : Character) : String :=
  "<Char(" ++ Text.quoted (String.singleton c.value) ++ ", " ++ toString c.position ++ ")>"

end Character

end Formula
