import Formula.Expr.Parser

/-! Workspaces: everything that expressions refer to, and everything that reading and evaluating
them changes. -/
namespace Formula
open Number

structure Workspace where
  precision : Precision := .standard
  store : Store := {}
  effects : Effects := {}
  /-- The functions for expressions that are read without naming others. -/
  functions : Registry := .builtin
deriving Inhabited

structure ReadOptions where
  settings : List (String × Lexer.SettingValue) := []
  failOnWarnings : Bool := true
  warnings : List String := []

/-- An expression that was read, with the problems that did not matter. -/
structure Reading where
  expression : Expr
  problems : List Problem
deriving Inhabited

namespace Workspace

abbrev Action (α : Type) := EStateM Fault Workspace α

def onStore {α : Type} (f : Store → α × Store) : Action α := fun w =>
  let (a, st) := f w.store
  .ok a { w with store := st }

def onStore? {α : Type} (f : Store → Except Fault (α × Store)) : Action α := fun w =>
  match f w.store with
  | .ok (a, st) => .ok a { w with store := st }
  | .error e => .error e w

def change (f : Store → Except Fault Store) : Action Unit :=
  onStore? fun st => (f st).map fun st => ((), st)

def newScope (parent : Option ScopeId) (m : Mode) : Action ScopeId := do
  let p := (← get).precision.bits
  onStore (Store.newScope p parent m)

def evaluate (e : Expr) : Action Value := fun w =>
  match e.evaluate ⟨w.precision, w.store.value⟩ w.effects with
  | .ok v effects => .ok v { w with effects := effects }
  | .error f effects => .error f { w with effects := effects }

def knowledge (w : Workspace) : Knowledge := w.store.knowledge w.precision.bits

def grammar (scope : ScopeId) (functions : Registry) (options : ReadOptions) (w : Workspace) :
    Grammar :=
  { bits := w.precision.bits
    scope := scope
    mode := (w.store.scope scope).mode
    functions := functions
    failOnWarnings := options.failOnWarnings }

def tokens (source : Source) (options : ReadOptions) : Except Fault TokenStream :=
  let warn (l : Lexer) (text : String) : Lexer := l.report ⟨.warning, .unknown, text⟩
  match Lexer.configureAll options.settings (TokenStream.ofSource source).source with
  | .ok () l => .ok { source := options.warnings.foldl warn l }
  | .error f _ => .error f

def run {α : Type} (p : Parser α) (g : Grammar) (ts : TokenStream) : Action (α × TokenStream) :=
  fun w =>
    match p g ⟨ts, w.store⟩ with
    | .ok a s => .ok (a, s.tokens) { w with store := s.store }
    | .error f s => .error f { w with store := s.store }

def readTokens (scope : ScopeId) (functions : Registry) (options : ReadOptions)
    (ts : TokenStream) : Action Reading := do
  let (e, ts) ← run Parser.whole ((← get).grammar scope functions options) ts
  return ⟨e, ts.problems⟩

def readExpr (source : Source) (scope : Option ScopeId) (functions : Option Registry)
    (options : ReadOptions) : Action Reading := do
  let s ←
    match scope with
    | some s => pure s
    | none => newScope none .float
  match tokens source options with
  | .ok ts => readTokens s (functions.getD (← get).functions) options ts
  | .error f => throw f

end Workspace

end Formula
