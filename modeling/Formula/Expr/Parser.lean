import Formula.Expr.Reorder
import Formula.Expr.Simplify
import Formula.Function.Registry
import Formula.TokenStream

/-! Reading expressions. Each rule of the grammar reads one expression from the tokens that follow:

* `expression`: comparisons joined by `&&` and `||`,
* `relation`: sums joined by `<`, `<=`, `=`, `>=`, `>` and `!=`,
* `sum`: products joined by `+` and `-`,
* `product`: powers joined by `*`, `/` and `%`,
* `power`: atoms joined by `^` and `**`,
* `atom`: a number, a variable, a call, a negated atom, or an expression in brackets or bars.

Problems are collected, and reading goes on after them. -/
namespace Formula
open Number

structure Grammar where
  bits : Nat
  scope : ScopeId
  mode : Mode
  functions : Registry
  failOnWarnings : Bool := true

structure ParserState where
  tokens : TokenStream
  store : Store

abbrev Parser (α : Type) := ReaderT Grammar (EStateM Fault ParserState) α

namespace Parser

inductive Rule where
  | expression
  | relation
  | sum
  | product
  | power
  | atom
  | call
deriving DecidableEq, Repr, Inhabited

/-- How deep rules may call each other. -/
def depthLimit : Nat := 1000

def onTokens {α : Type} (m : EStateM Fault TokenStream α) : Parser α := fun _ s =>
  match m s.tokens with
  | .ok a ts => .ok a { s with tokens := ts }
  | .error f ts => .error f { s with tokens := ts }

def current : Parser Token := onTokens TokenStream.current

def next : Parser Token := onTokens TokenStream.next

def consume : Parser Token := onTokens TokenStream.consume

def complain (t : Token) (text : String) : Parser Unit :=
  onTokens (TokenStream.report ⟨.error, t.position, text⟩)

def expect (symbol : String) : Parser Unit := do
  let t ← current
  if t.isSymbol symbol then discard consume
  else complain t ("Unexpected token '" ++ t.source ++ "'. Expected: '" ++ symbol ++ "'")

def reject : Parser Expr := do
  let t ← consume
  complain t ("Unexpected token: '" ++ t.source ++ "'. Expected an expression.")
  return .empty

def zero : Parser Expr := return .constant (.zero (← read).mode)

def operators : Rule → List (String × Operator)
  | .expression => [("&&", .and), ("||", .or)]
  | .relation =>
    [("<", .less), ("<=", .lessEqual), ("=", .equal), (">=", .greaterEqual), (">", .greater),
      ("!=", .notEqual)]
  | .sum => [("+", .add), ("-", .subtract)]
  | .product => [("*", .multiply), ("/", .divide), ("%", .modulo)]
  | .power => [("^", .power), ("**", .power)]
  | .atom | .call => []

def operator? (r : Rule) (t : Token) : Option Operator :=
  if t.isKind .symbol then (operators r).lookup t.trigger else none

def chain (r : Rule) (operand rest : Parser Expr) : Parser Expr := do
  let left ← operand
  match operator? r (← current) with
  | some op =>
    discard consume
    -- The rest comes as the same rule reads it; `reorder` makes the whole left associative.
    return .reorder op left (← rest)
  | none => return left

def isNegativeNumber (t : Token) : Bool := t.isNumber && t.content.startsWith "-"

def sumChain (operand rest : Parser Expr) : Parser Expr := do
  let left ← operand
  let t ← current
  match operator? .sum t with
  | some op =>
    discard consume
    return .reorder op left (← rest)
  | none =>
    -- The sign of the number is the operator here, so no token is consumed.
    if isNegativeNumber t then return .reorder .add left (← rest) else return left

/-- The powers of ten for which letters after a number stand. -/
def quantifiers : List (String × Int) :=
  [("n", -9), ("u", -6), ("m", -3), ("k", 3), ("K", 3), ("M", 6), ("G", 9)]

def scaled (p : Nat) (v : Value) (e : Int) : Except Fault Value :=
  if e < 0 then v.quotient p (.integer (tenTo e.natAbs)) else v.mul p (.integer (tenTo e.natAbs))

def ofExcept {α : Type} : Except Fault α → Parser α
  | .ok a => pure a
  | .error f => throw f

def quantified (v : Value) : Parser Expr := do
  if (← current).isKind .identifier then
    let t ← consume
    match quantifiers.lookup t.content with
    | some e => return .constant (← ofExcept (scaled (← read).bits v e))
    | none =>
      complain t ("Unexpected token: '" ++ t.source ++ "'. Expected a valid quantifier.")
      return .constant v
  else return .constant v

/-- Drops a plus sign, if the token after it is of a certain kind. -/
def skipPlus (before : Token → Bool) : Parser Unit := do
  if (← current).isSymbol "+" then
    if before (← next) then discard consume

def number : Parser Expr := do
  if (← current).isNumber then
    let t ← consume
    match Value.ofNumeral (← read).mode (← read).bits t.content with
    | .ok v => quantified v
    | .error .malformedValue =>
      complain t ("Invalid number: '" ++ t.source ++ "'")
      return .empty
    | .error f => throw f
  else reject

def literal : Parser Expr := do
  skipPlus Token.isNumber
  number

def resolve (t : Token) : Parser Expr := do
  let s ← get
  match s.store.lookUp (← read).scope t.content with
  | .ok (v, store) =>
    set { s with store := store }
    return .reference v (store.var v).name
  | .error (.unknownVariable _) =>
    -- Zero stands in for the variable, so that the rest of the text is checked as well.
    complain t ("Unknown variable: '" ++ t.content ++ "'")
    zero
  | .error f => throw f

def bracketed (inner : Parser Expr) : Parser Expr := do
  discard consume
  let e ← inner
  expect ")"
  return e.inBrackets

def plainAtom (inner call : Parser Expr) : Parser Expr := do
  let t ← current
  if t.isSymbol "(" then bracketed inner
  else if t.isSymbol "|" then
    discard consume
    let e ← inner
    expect "|"
    return .call .absolute "abs" [e]
  else if t.isKind .identifier then
    if (← next).isSymbol "(" then call
    else resolve (← consume)
  else literal

/-- Reads an atom by the rules for atoms, for expressions and for calls. -/
def anyAtom (self inner call : Parser Expr) : Parser Expr := do
  if (← current).isSymbol "-" then
    discard consume
    let z ← zero
    -- Sealed: what follows must not be drawn into the negation.
    return .binary .subtract z (← self) true
  else
    -- A plus sign before a number is left to `literal`.
    skipPlus (·.isSymbol "(")
    plainAtom inner call

def separator (isFirst : Bool) : Parser Unit := if isFirst then return () else expect ","

/-- Reads arguments up to the closing bracket or the end, at most `fuel` of them. -/
def argumentsWithin (inner : Parser Expr) : (fuel : Nat) → (isFirst : Bool) → Parser (List Expr)
  | 0, _ => return []
  | fuel + 1, isFirst => do
    let t ← current
    if t.isSymbol ")" || t.isEnd then return []
    separator isFirst
    let e ← inner
    return e :: (← argumentsWithin inner fuel false)

def arguments (inner : Parser Expr) : Parser (List Expr) := do
  let ts := (← get).tokens
  -- Every argument consumes a token, of which there are no more than this.
  argumentsWithin inner (ts.buffer.length + ts.source.reader.rest.length + 1) true

def checkedCall (t : Token) (f : Option Function) (args : List Expr) : Parser Expr :=
  match f with
  | none => return .empty
  | some f =>
    if f.accepts args.length then return .call f t.content args
    else do
      complain t ("Number of arguments for function '" ++ t.content
        ++ "' do not match. Expected: " ++ Function.arityText f.arity ++ ", Found: "
        ++ toString args.length)
      return .empty

def functionNamed (t : Token) : Parser (Option Function) := do
  match (← read).functions.get? t.content with
  | some f => return some f
  | none =>
    complain t ("Unknown function: '" ++ t.content ++ "'")
    return none

def anyCall (inner : Parser Expr) : Parser Expr := do
  let t ← consume
  let f ← functionNamed t
  -- The opening bracket, which `plainAtom` has seen.
  discard consume
  let args ← arguments inner
  expect ")"
  checkedCall t f args

/-- Reads an expression by a rule. Rules may call each other `depth` times. -/
def run : (depth : Nat) → Rule → Parser Expr
  | 0, _ => throw .tooDeep
  | d + 1, .expression => chain .expression (run d .relation) (run d .expression)
  | d + 1, .relation => chain .relation (run d .sum) (run d .relation)
  | d + 1, .sum => sumChain (run d .product) (run d .sum)
  | d + 1, .product => chain .product (run d .power) (run d .product)
  | d + 1, .power => chain .power (run d .atom) (run d .power)
  | d + 1, .atom => anyAtom (run d .atom) (run d .expression) (run d .call)
  | d + 1, .call => anyCall (run d .expression)

def rule (r : Rule) : Parser Expr := run depthLimit r

def rejectProblems : Parser Unit := do
  if (← read).failOnWarnings then onTokens TokenStream.rejectProblems
  else onTokens TokenStream.rejectErrors

def simplified : Parser Expr := do
  let e ← rule .expression
  ofExcept (e.simplify ((← get).store.knowledge (← read).bits)).result

def rejectDepth : Parser Expr := do
  complain (← current) "Expression is nested too deeply."
  onTokens TokenStream.rejectErrors
  return .empty

def rejectRest : Parser Unit := do
  if !(← current).isEnd then discard reject

def whole : Parser Expr := do
  let e ← tryCatch simplified fun
    | .tooDeep => rejectDepth
    | f => throw f
  rejectRest
  rejectProblems
  return e

end Parser

end Formula
