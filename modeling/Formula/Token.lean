import Formula.Fault
import Formula.Text.Lowercase

/-! Tokens: the lexical units of a text. The kind and the trigger say what a token is, the content
is its value, and the source holds all characters that were read for it. -/
namespace Formula

inductive TokenKind where
  | identifier
  /-- A name after a starter, or before a terminator, of special names. -/
  | specialIdentifier
  | string
  | decimal
  | scientific
  | integer
  | symbol
  | keyword
  | endOfInput
deriving DecidableEq, Repr, Inhabited

namespace TokenKind

def label : TokenKind → String
  | identifier => "ID"
  | specialIdentifier => "SPECIAL_ID"
  | string => "STRING"
  | decimal => "DECIMAL"
  | scientific => "SCIENTIFIC_DECIMAL"
  | integer => "INTEGER"
  | symbol => "SYMBOL"
  | keyword => "KEYWORD"
  | endOfInput => "EOI"

def all : List TokenKind :=
  [identifier, specialIdentifier, string, decimal, scientific, integer, symbol, keyword, endOfInput]

def ofLabel? (s : String) : Option TokenKind := all.find? (·.label == s)

end TokenKind

structure Token where
  kind : TokenKind
  trigger : String := ""
  content : String := ""
  source : String := ""
  position : Position
deriving DecidableEq, Repr, Inhabited

namespace Token

def isKind (t : Token) (k : TokenKind) : Bool := t.kind = k

def isEnd (t : Token) : Bool := t.kind = .endOfInput

def isTriggered (t : Token) (k : TokenKind) (trigger : String) : Bool :=
  t.kind = k && t.trigger == trigger

def isSymbol (t : Token) (trigger : String) : Bool := t.isTriggered .symbol trigger

def isNumber (t : Token) : Bool :=
  t.kind = .integer || t.kind = .decimal || t.kind = .scientific

/-- `isTriggered` for a trigger that may be missing, which matters only if the kind agrees. -/
def matches? (t : Token) (k : TokenKind) (trigger : Option String) : Except Fault Bool :=
  if t.kind = k then
    match trigger with
    | some s => .ok (t.trigger == s)
    | none => .error .missingTrigger
  else .ok false

def wasTriggeredBy (t : Token) (triggers : List (Option String)) : Bool :=
  triggers.contains (some t.trigger)

def hasContent? (t : Token) : Option String → Except Fault Bool
  | some s => .ok (Text.lower s == Text.lower t.content)
  | none => .error .missingContent

def matchesAny? (t : Token) (k : TokenKind) : List (Option String) → Except Fault Bool
  | [] => .ok false
  | s :: rest => do
    if ← t.matches? k s then return true
    t.matchesAny? k rest

/-- Whether the token is of a kind and, if triggers are given, has one of them. -/
def isKindWith? (t : Token) (k : TokenKind) (triggers : List (Option String)) :
    Except Fault Bool :=
  if triggers.isEmpty then .ok (t.isKind k) else t.matchesAny? k triggers

def isIdentifier (t : Token) (names : List (Option String)) : Bool :=
  t.kind = .identifier && (names.isEmpty || names.contains (some t.content))

def isSpecialIdentifierWith? (t : Token) (trigger : Option String) (names : List (Option String)) :
    Except Fault Bool := do
  if ← t.matches? .specialIdentifier trigger then
    return names.isEmpty || names.contains (some t.content)
  return false

instance : ToString Token :=
  ⟨fun t => t.kind.label ++ ":" ++ t.source ++ " (" ++ toString t.position ++ ")"⟩

def describe (t : Token) : String := "<Token " ++ toString t ++ ">"

end Token

end Formula
