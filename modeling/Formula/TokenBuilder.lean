import Formula.Character
import Formula.Token

/-! Tokens under construction. -/
namespace Formula

/-- A token that is being read. Each step adds one character to some of its texts. -/
structure TokenBuilder where
  kind : TokenKind
  position : Position
  trigger : String := ""
  content : String := ""
  source : String := ""
deriving DecidableEq, Repr, Inhabited

namespace TokenBuilder

def ofCharacter (k : TokenKind) (c : Character) : TokenBuilder :=
  { kind := k, position := c.position, trigger := c.text, content := c.text, source := toString c }

/-- The same token with another kind, and with other texts where they are given. -/
def retype (b : TokenBuilder) (k : TokenKind) (trigger content source : Option String := none) :
    TokenBuilder :=
  { b with
    kind := k
    trigger := trigger.getD b.trigger
    content := content.getD b.content
    source := source.getD b.source }

def isKind (b : TokenBuilder) (k : TokenKind) : Bool := b.kind = k

def addTrigger (b : TokenBuilder) (c : Char) : TokenBuilder :=
  { b with trigger := b.trigger.push c, source := b.source.push c }

def addSource (b : TokenBuilder) (c : Char) : TokenBuilder :=
  { b with source := b.source.push c }

def addContent (b : TokenBuilder) (c : Char) : TokenBuilder :=
  { b with content := b.content.push c, source := b.source.push c }

def addContentText (b : TokenBuilder) (s : String) : TokenBuilder :=
  { b with content := b.content ++ s, source := b.source ++ s }

def addSilently (b : TokenBuilder) (s : String) : TokenBuilder :=
  { b with content := b.content ++ s }

def freeze (b : TokenBuilder) : Token :=
  { kind := b.kind, trigger := b.trigger, content := b.content, source := b.source
    position := b.position }

end TokenBuilder

end Formula
