import Formula.Entries
import Formula.Text.Quoted
import Formula.Value

/-! Variables and the scopes in which they have names. Expressions refer to variables by number, so
that a variable lives on when its name is removed. A scope may have a parent, in which names are
looked up that it does not define itself. -/
namespace Formula
open Number

abbrev VariableId := Nat

abbrev ScopeId := Nat

structure Variable where
  name : String
  value : Value := .float (.zero false)
  isConstant : Bool := false
deriving DecidableEq, Inhabited

namespace Variable

def toText (pr : Precision) (v : Variable) : String := v.name ++ ": " ++ v.value.toText pr

def describe (pr : Precision) (v : Variable) : String := "<Variable " ++ v.toText pr ++ ">"

def setValue (v : Variable) (x : Value) : Except Fault Variable :=
  if v.isConstant then .error (.constantVariable v.name) else .ok { v with value := x }

def fix (v : Variable) (x : Value) : Except Fault Variable :=
  (v.setValue x).map ({ · with isConstant := true })

end Variable

structure Scope where
  parent : Option ScopeId
  mode : Mode
  /-- Whether unknown names are a fault, instead of names of new variables. -/
  isStrict : Bool := false
  entries : List (String × VariableId) := []
deriving DecidableEq, Inhabited

namespace Scope

def local? (s : Scope) (name : String) : Option VariableId := s.entries.lookup name

def names (s : Scope) : List String := s.entries.map (·.1)

def describe (s : Scope) : String :=
  "<Scope " ++ Text.quotedList (s.names.mergeSort (· ≤ ·))
    ++ (match s.mode with | .float => "" | .precise => " (mp)") ++ ">"

end Scope

/-- All variables and scopes. The root scopes come into being when they are first needed. -/
structure Store where
  vars : List Variable := []
  scopes : List Scope := []
  floatRoot : Option ScopeId := none
  preciseRoot : Option ScopeId := none
deriving DecidableEq, Inhabited

namespace Store

def scope (st : Store) (s : ScopeId) : Scope := st.scopes.getD s default

def var (st : Store) (v : VariableId) : Variable := st.vars.getD v default

def value (st : Store) (v : VariableId) : Value := (st.var v).value

def fixed? (st : Store) (v : VariableId) : Option Value :=
  let x := st.var v
  if x.isConstant then some x.value else none

def addVariable (st : Store) (x : Variable) : VariableId × Store :=
  (st.vars.length, { st with vars := st.vars ++ [x] })

def addScope (st : Store) (s : Scope) : ScopeId × Store :=
  (st.scopes.length, { st with scopes := st.scopes ++ [s] })

def putVariable (st : Store) (v : VariableId) (x : Variable) : Store :=
  { st with vars := st.vars.set v x }

def putScope (st : Store) (s : ScopeId) (x : Scope) : Store :=
  { st with scopes := st.scopes.set s x }

def root? (st : Store) : Mode → Option ScopeId
  | .float => st.floatRoot
  | .precise => st.preciseRoot

def putRoot (st : Store) (m : Mode) (s : ScopeId) : Store :=
  match m with
  | .float => { st with floatRoot := some s }
  | .precise => { st with preciseRoot := some s }

/-- A named constant as the root scope of a mode holds it: a number of 53 binary digits, or still
without a fixed number of digits. -/
def rootConstant (p : Nat) (c : NamedConstant) : Mode → Value
  | .float => .float (c.value p).toBinary64
  | .precise => .constant c

/-- The root scope of a mode, which defines the constants `pi` and `euler`. -/
def root (p : Nat) (m : Mode) (st : Store) : ScopeId × Store :=
  match st.root? m with
  | some s => (s, st)
  | none =>
    let (pi, st) := st.addVariable ⟨"pi", rootConstant p .pi m, true⟩
    let (euler, st) := st.addVariable ⟨"euler", rootConstant p .e m, true⟩
    let (s, st) := st.addScope
      { parent := none, mode := m, entries := [("pi", pi), ("euler", euler)] }
    (s, st.putRoot m s)

/-- A new scope below another one, of which it takes the mode, or below the root scope of a mode. -/
def newScope (p : Nat) (parent : Option ScopeId) (m : Mode) (st : Store) : ScopeId × Store :=
  match parent with
  | some s => st.addScope { parent := some s, mode := (st.scope s).mode }
  | none =>
    let (r, st) := st.root p m
    st.addScope { parent := some r, mode := m }

def chainWithin (st : Store) : Nat → ScopeId → Option (List ScopeId)
  | 0, _ => none
  | fuel + 1, s =>
    match (st.scope s).parent with
    | some t => (st.chainWithin fuel t).map (s :: ·)
    | none => some [s]

/-- The scopes in which names are looked up, from the nearest on, if they come to an end. A chain
with more steps than there are scopes comes back to one of them, and never ends. -/
def chain? (st : Store) (s : ScopeId) : Option (List ScopeId) :=
  st.chainWithin (st.scopes.length + 1) s

def findWithin (st : Store) (name : String) : Nat → ScopeId → Except Fault (Option VariableId)
  | 0, _ => .error .endless
  | fuel + 1, s =>
    match (st.scope s).local? name with
    | some v => .ok (some v)
    | none =>
      match (st.scope s).parent with
      | some t => st.findWithin name fuel t
      | none => .ok none

/-- The variable that a name has in a scope or, if it has none there, above it. The search has come
back to a scope when it has seen more of them than there are, and then it goes round forever. -/
def find? (st : Store) (s : ScopeId) (name : String) : Except Fault (Option VariableId) :=
  st.findWithin name (st.scopes.length + 1) s

def create (st : Store) (s : ScopeId) (name : String) : VariableId × Store :=
  let sc := st.scope s
  match sc.local? name with
  | some v => (v, st)
  | none =>
    let (v, st) := st.addVariable { name := name, value := .zero sc.mode }
    (v, st.putScope s { sc with entries := sc.entries ++ [(name, v)] })

/-- The variable that a name has. An unknown name gets a new variable, or is a fault if the scope is
strict. -/
def lookUp (st : Store) (s : ScopeId) (name : String) : Except Fault (VariableId × Store) :=
  match st.find? s name with
  | .error f => .error f
  | .ok (some v) => .ok (v, st)
  | .ok none =>
    -- Only the scope itself counts, however strict those above it are.
    if (st.scope s).isStrict then .error (.unknownVariable name) else .ok (st.create s name)

def remove (st : Store) (s : ScopeId) (name : String) : Option VariableId × Store :=
  let sc := st.scope s
  (sc.local? name, st.putScope s { sc with entries := sc.entries.filter (·.1 ≠ name) })

def setStrict (st : Store) (s : ScopeId) (strict : Bool) : Store :=
  st.putScope s { st.scope s with isStrict := strict }

/-- Gives a scope another parent, or the root scope of its mode. Parent and child have one mode. -/
def setParent (p : Nat) (st : Store) (s : ScopeId) (parent : Option ScopeId) :
    Except Fault Store :=
  let m := (st.scope s).mode
  let (t, st) :=
    match parent with
    | some t => (t, st)
    | none => st.root p m
  if t = s then .error .ownParent
  else if (st.scope t).mode ≠ m then .error (.mixedModes (st.scope t).mode m)
  else .ok (st.putScope s { st.scope s with parent := some t })

/-- The names of a chain of scopes with their variables. What a scope defines replaces what those
above it define. -/
def visibleIn (st : Store) : List ScopeId → List (String × VariableId)
  | [] => []
  | s :: rest => (st.scope s).entries.foldl (fun es e => putEntry es e.1 e.2) (st.visibleIn rest)

def namesIn (st : Store) : List ScopeId → List String
  | [] => []
  | s :: rest => distinct (st.namesIn rest ++ (st.scope s).names)

def visible (st : Store) (s : ScopeId) : Except Fault (List (String × VariableId)) :=
  match st.chain? s with
  | some c => .ok (st.visibleIn c)
  | none => .error .tooDeep

def visibleVariables (st : Store) (s : ScopeId) : Except Fault (List VariableId) :=
  (st.visible s).map (·.map (·.2))

def names (st : Store) (s : ScopeId) : Except Fault (List String) :=
  match st.chain? s with
  | some c => .ok (st.namesIn c)
  | none => .error .tooDeep

def contains (st : Store) (s : ScopeId) (name : String) : Except Fault Bool :=
  (st.find? s name).map (·.isSome)

def setValue (st : Store) (v : VariableId) (x : Value) : Except Fault Store :=
  ((st.var v).setValue x).map (st.putVariable v)

def fix (st : Store) (v : VariableId) (x : Value) : Except Fault Store :=
  ((st.var v).fix x).map (st.putVariable v)

end Store

end Formula
