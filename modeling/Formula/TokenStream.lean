import Formula.Lexer.Scan
import Formula.Lookahead
import Formula.Text.Template

/-! The tokens of a text, read on demand. -/
namespace Formula

structure Lexer where
  reader : Reader
  settings : Lexer.Settings := {}
  started : Bool := false
  warnings : List String := []
deriving Inhabited

namespace Lexer

/-- The next token. A source that breaks leaves the lexer where it broke. -/
def next (l : Lexer) : Except Fault (Option Token) × Lexer :=
  let (out, r) := scan l.settings l.reader
  match r.settle with
  | .error f r => (.error f, { l with reader := r, started := true })
  | .ok () r => (out, { l with reader := r, started := true })

def endToken (l : Lexer) : Token :=
  (TokenBuilder.ofCharacter .endOfInput (l.reader.characterAt 0)).freeze

/-- Notes that a setting comes too late for the tokens that were read already. -/
def warnIfStarted (l : Lexer) (setting : String) : Lexer :=
  if l.started then
    { l with warnings := l.warnings ++ ["Tokenizer setting `" ++ setting ++
        "` changed after tokens were fetched. Tokens already read are not affected."] }
  else l

def configure (name : String) (v : SettingValue) : EStateM Fault Lexer Unit := fun l =>
  match l.settings.set name v with
  | .ok st => .ok () { l.warnIfStarted name with settings := st }
  | .error f =>
    -- Keywords are cleared before the new ones are looked at.
    if name = "keywords" then
      .error f { l.warnIfStarted name with settings := { l.settings with keywords := [] } }
    else .error f l

def configureAll (settings : List (String × SettingValue)) : EStateM Fault Lexer Unit :=
  settings.forM fun s => configure s.1 s.2

def report (l : Lexer) (p : Problem) : Lexer := { l with reader := l.reader.report p }

end Lexer

instance : Feed Lexer Token where
  fetch := Lexer.next
  endMark := Lexer.endToken

abbrev TokenStream := Lookahead Lexer Token

namespace TokenStream

def ofSource (s : Source) : TokenStream := { source := { reader := .ofSource s } }

def problems (ts : TokenStream) : List Problem := ts.source.reader.problems

def mapLexer (f : Lexer → Lexer) (ts : TokenStream) : TokenStream :=
  { ts with source := f ts.source }

def changeSettings (f : Lexer.Settings → Lexer.Settings) : TokenStream → TokenStream :=
  mapLexer fun l => { l with settings := f l.settings }

def clearProblems : TokenStream → TokenStream :=
  mapLexer fun l => { l with reader := { l.reader with problems := [] } }

def report (p : Problem) : EStateM Fault TokenStream Unit :=
  modify (mapLexer (·.report p))

/-- Adds a problem whose text is a template, filled unless there are no arguments. -/
def reportFilled (severity : Severity) (at_ : Position) (template : String)
    (args : List Text.TemplateArgument) : EStateM Fault TokenStream Unit :=
  if args.isEmpty then report ⟨severity, at_, template⟩
  else match Text.fill template args with
    | .ok text => report ⟨severity, at_, text⟩
    | .error .mismatch => throw .wrongKind
    | .error .malformed => throw .malformedValue

def onLexer {α : Type} (m : EStateM Fault Lexer α) : EStateM Fault TokenStream α := fun ts =>
  match m ts.source with
  | .ok a l => .ok a { ts with source := l }
  | .error f l => .error f { ts with source := l }

def current : EStateM Fault TokenStream Token := Lookahead.current

def next : EStateM Fault TokenStream Token := Lookahead.at? 1

def consume : EStateM Fault TokenStream Token := do
  let t ← current
  Lookahead.drop 1
  return t

def atEnd : EStateM Fault TokenStream Bool := return (← current).isEnd

/-- Consumes a token of a kind with a trigger, or reports the token that stands in its place. -/
def consumeExpected (k : TokenKind) (trigger : Option String) :
    EStateM Fault TokenStream Unit := do
  let t ← current
  match t.matches? k trigger with
  | .error f => throw f
  | .ok true => Lookahead.drop 1
  | .ok false =>
    report ⟨.error, t.position, "Unexpected token: '" ++ t.source ++ "'. Expected: '"
      ++ trigger.getD "None" ++ "'"⟩

def rejectProblems : EStateM Fault TokenStream Unit := do
  let ps := (← get).problems
  if !ps.isEmpty then throw (.rejected ps)

def rejectErrors : EStateM Fault TokenStream Unit := do
  let ps := (← get).problems
  if ps.any Problem.isError then throw (.rejected ps)

def tokensWithin : Nat → EStateM Fault TokenStream (List Token)
  | 0 => return []
  | fuel + 1 => do
    let t ← consume
    if t.isEnd then return [t]
    return t :: (← tokensWithin fuel)

def tokens : EStateM Fault TokenStream (List Token) := do
  let ts ← get
  tokensWithin (ts.buffer.length + ts.source.reader.rest.length + 1)

def describe (ts : TokenStream) : String :=
  match ts.atHand with
  | [] => "No Token fetched..."
  | [t] => "Current: " ++ toString t
  | t :: u :: _ => "Current: " ++ toString t ++ ", Next: " ++ toString u

end TokenStream

end Formula
