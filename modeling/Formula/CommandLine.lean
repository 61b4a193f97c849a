import Formula.Config

/-! The command line: evaluates one expression. Options may stand before and after it. -/
namespace Formula
open Number

namespace CommandLine

def usageText : String :=
  "Usage: python -m exprparse EXPR [options]

Options:
  -D name=value   Define a variable (may be repeated).
  --mp            Evaluate using mpmath arbitrary precision numbers.
  --dps N         Decimal places for mpmath (implies --mp).
  --strict        Treat undefined variables as errors.
  --config FILE   Read settings from FILE (and FILE's .mine override).
  -v, --verbose   Print informational messages.
"

structure Outcome where
  code : Nat
  output : String := ""
  errors : String := ""
deriving DecidableEq, Repr, Inhabited

inductive Stop where
  | exit (o : Outcome)
  | fault (f : Fault)

structure Session where
  args : List String
  isVerbose : Bool := false
  errors : String := ""
  workspace : Workspace := {}

abbrev Run (α : Type) := EStateM Stop Session α

/-- Whether one of two flags is there. It is removed once. -/
def takeFlag (flag other : String) (args : List String) : Bool × List String :=
  if args.contains flag then (true, args.erase flag)
  else if args.contains other then (true, args.erase other)
  else (false, args)

/-- The value after an option, and the arguments without both. -/
inductive Taken where
  | missing
  | absent
  | value (v : String) (rest : List String)
deriving DecidableEq, Repr, Inhabited

def takeOption (option : String) (args : List String) : Taken :=
  match args.dropWhile (· ≠ option) with
  | [] => .absent
  | [_] => .missing
  | _ :: v :: rest => .value v (args.takeWhile (· ≠ option) ++ rest)

def usage {α : Type} (message : Option String) : Run α := fun s =>
  let line :=
    match message with
    | some m => m ++ "\n"
    | none => ""
  .error (.exit { code := 2, errors := s.errors ++ line ++ usageText }) s

def log (text : String) : Run Unit :=
  modify fun s =>
    if s.isVerbose then { s with errors := s.errors ++ "INFO: " ++ text ++ "\n" } else s

def popFlag (flag other : String) : Run Bool := do
  let (found, args) := takeFlag flag other (← get).args
  modify ({ · with args := args })
  return found

def popOption (option : String) : Run (Option String) := do
  match takeOption option (← get).args with
  | .absent => return none
  | .missing => usage ("Missing value for " ++ option)
  | .value v rest =>
    modify ({ · with args := rest })
    return some v

def trimmed (cs : List Char) : String := String.ofList (Text.strip cs)

def definition? (text : String) : Option (String × String) :=
  match text.toList.takeWhile (· ≠ '='), text.toList.dropWhile (· ≠ '=') with
  | [], _ => none
  | _, [] => none
  | name, _ :: value => some (trimmed name, trimmed value)

/-- Takes the definitions of variables in their order, at most `fuel` of them. -/
def popDefinitions : (fuel : Nat) → Run (List (String × String))
  | 0 => return []
  | fuel + 1 => do
    match ← popOption "-D" with
    | none => return []
    | some text =>
      match definition? text with
      | none => usage ("Invalid definition: " ++ text)
      | some d => return d :: (← popDefinitions fuel)

def onWorkspace {α : Type} (m : Workspace.Action α) : Run α := fun s =>
  match m s.workspace with
  | .ok a w => .ok a { s with workspace := w }
  | .error f w => .error (.fault f) { s with workspace := w }

def popFlags : Run Unit := do
  if (← popFlag "-h" "--help") then
    throw (.exit { code := 0, output := usageText })
  if (← popFlag "-v" "--verbose") then modify ({ · with isVerbose := true })

/-- The configuration of a settings file. An empty name stands for none. -/
def loadConfig (files : String → Option String) : Run Config := do
  match ← popOption "--config" with
  | none => return {}
  | some "" => return {}
  | some path =>
    match Config.load files path with
    | .error f => throw (.fault f)
    | .ok c =>
      log ("Configuration: " ++ c.describe)
      return c

def changeConfig (c : Config) : Run Config := do
  let c := if ← popFlag "--mp" "--mp" then { c with isPrecise := true } else c
  let c ←
    match ← popOption "--dps" with
    | none => pure c
    | some text =>
      match readInt? text.toList with
      | some n => pure { c with digits := some n, isPrecise := true }
      | none => usage ("Invalid number of decimal places: " ++ text)
  return if ← popFlag "--strict" "--strict" then { c with isStrict := true } else c

def define (c : Config) (scope : ScopeId) (name value : String) : Run Unit := do
  let v ← onWorkspace (Workspace.onStore fun st => st.create scope name)
  match Value.ofNumeral c.mode (← get).workspace.precision.bits value with
  | .ok x => onWorkspace (Workspace.change fun st => st.setValue v x)
  | .error .malformedValue => usage ("Invalid value for " ++ name ++ ": " ++ value)
  | .error f => throw (.fault f)
  log ("Variable " ++ name ++ " = " ++ value)

def readExpr (c : Config) (scope : ScopeId) (text : String) : Run Expr := fun s =>
  match c.readExpr text (some scope) s.workspace with
  | .ok r w => .ok r.expression { s with workspace := w }
  | .error (.rejected ps) w =>
    let s := { s with workspace := w }
    .error (.exit { code := 1, errors := s.errors ++ Problem.details ps ++ "\n" }) s
  | .error f w => .error (.fault f) { s with workspace := w }

def evaluate (c : Config) (definitions : List (String × String)) (text : String) : Run Outcome := do
  modify fun s => { s with
    workspace := { s.workspace with precision := c.precision s.workspace.precision } }
  let scope ← onWorkspace c.newScope
  definitions.forM fun d => define c scope d.1 d.2
  log ("Numeric mode: " ++ Fault.modeLabel c.mode)
  let e ← readExpr c scope text
  let pr := (← get).workspace.precision
  log ("Expression: " ++ e.toText pr)
  let v ← onWorkspace (Workspace.evaluate e)
  return { code := 0, output := v.toText pr ++ "\n", errors := (← get).errors }

def perform (files : String → Option String) : Run Outcome := do
  popFlags
  let c ← changeConfig (← loadConfig files)
  let definitions ← popDefinitions (← get).args.length
  match (← get).args with
  | [text] => evaluate c definitions text
  | _ => usage none

def run (files : String → Option String) (args : List String) : Except Fault Outcome :=
  match perform files { args := args } with
  | .ok o _ => .ok o
  | .error (.exit o) _ => .ok o
  | .error (.fault f) _ => .error f

def configPath? (args : List String) : Option String :=
  match (do popFlags; popOption "--config" : Run (Option String)) { args := args } with
  | .ok path _ => path
  | .error .. => none

end CommandLine

end Formula
