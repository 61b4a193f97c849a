import Formula.Entries
import Formula.Fault
import Formula.Text.Blank
import Formula.Text.Lowercase

/-! Settings files: sections of options. A section starts with its name in square brackets; an
option is a name, `=` or `:`, and a value, which goes on in the lines that are indented further.
Lines that start with `#` or `;` are comments. The options of the section `DEFAULT` hold for all
sections. In a value, `%(name)s` stands for the value of another option, and `%%` for a percent
sign. -/
namespace Formula

abbrev Ini.Options := List (String × String)

structure Ini where
  defaults : Ini.Options := []
  sections : List (String × Ini.Options) := []
deriving DecidableEq, Repr, Inhabited

namespace Ini

/-- The section of which the options hold for all sections. -/
def defaultName : String := "DEFAULT"

/-- A file in the middle of being read. -/
structure Draft where
  ini : Ini
  current : Option String := none
  opened : Option (String × List String) := none
  indent : Nat := 0
  seenSections : List String := []
  seenOptions : List (String × String) := []
  malformed : Bool := false

def put (ini : Ini) (section_ option value : String) : Ini :=
  if section_ = defaultName then { ini with defaults := putEntry ini.defaults option value }
  else
    let options := (ini.sections.lookup section_).getD []
    { ini with sections := putEntry ini.sections section_ (putEntry options option value) }

def trimEnd (cs : List Char) : List Char := (cs.reverse.dropWhile Text.isBlank).reverse

def joined (lines : List String) : String :=
  String.ofList (trimEnd ("\n".intercalate lines).toList)

def Draft.save (d : Draft) : Draft :=
  match d.current, d.opened with
  | some s, some (option, lines) => { d with ini := d.ini.put s option (joined lines) }
  | _, _ => d

def header? : List Char → Option String
  | '[' :: rest =>
    match (rest.reverse.dropWhile (· ≠ ']')).drop 1 with
    | [] => none
    | cs => some (String.ofList cs.reverse)
  | _ => none

def isDelimiter (c : Char) : Bool := c = '=' || c = ':'

def option? (cs : List Char) : Option (String × String) :=
  match cs.dropWhile (!isDelimiter ·) with
  | [] => none
  | _ :: value =>
    some (Text.lower (String.ofList (trimEnd (cs.takeWhile (!isDelimiter ·)))),
      String.ofList (Text.strip value))

def Draft.openSection (d : Draft) (name : String) : Except Fault Draft :=
  let d := { d with current := some name, opened := none }
  if d.seenSections.contains name then .error (.ini .duplicateSection)
  -- This section may be opened again: it is not noted.
  else if name = defaultName then .ok d
  else
    let known := d.ini.sections.any (·.1 == name)
    .ok { d with
      seenSections := name :: d.seenSections
      ini := if known then d.ini
        else { d.ini with sections := d.ini.sections ++ [(name, [])] } }

/-- Goes to an option, which a file defines only once in a section. An option without a name makes
the file malformed and has no further lines. -/
def Draft.openOption (d : Draft) (name value : String) : Except Fault Draft :=
  let key := (d.current.getD "", name)
  if d.seenOptions.contains key then .error (.ini .duplicateOption)
  else .ok { d with
    opened := if name = "" then none else some (name, [value])
    seenOptions := key :: d.seenOptions
    malformed := d.malformed || name = "" }

def Draft.extend (d : Draft) (line : String) : Draft :=
  { d with opened := d.opened.map fun o => (o.1, o.2 ++ [line]) }

def Draft.read (d : Draft) (line : List Char) : Except Fault Draft :=
  let value := Text.strip line
  let indent := (line.takeWhile Text.isBlank).length
  match value with
  -- Empty lines belong to a value; `joined` drops those at its end.
  | [] => .ok (d.extend "")
  | '#' :: _ => .ok d
  | ';' :: _ => .ok d
  | value =>
    -- A deeper line goes on with the value, even if it looks like a header.
    if d.opened.isSome && d.indent < indent then .ok (d.extend (String.ofList value))
    else
      let d := { d.save with indent := indent }
      match header? value with
      | some name => d.openSection name
      | none =>
        if d.current.isNone then .error (.ini .missingSectionHeader)
        else match option? value with
          | some (name, text) => d.openOption name text
          | none => .ok { d with malformed := true }

/-- The lines of a text. All kinds of line ends count. -/
def lines : List Char → List (List Char)
  | [] => [[]]
  | '\r' :: '\n' :: rest => [] :: lines rest
  | c :: rest =>
    if c = '\n' ∨ c = '\r' then [] :: lines rest
    else match lines rest with
      | [] => [[c]]
      | l :: ls => (c :: l) :: ls

def read (ini : Ini) (text : String) : Except Fault Ini := do
  let d ← (lines text.toList).foldlM Draft.read { ini := ini }
  if d.malformed then throw (.ini .malformedLine)
  return d.save.ini

/-! Values -/

inductive Piece where
  | char (c : Char)
  | reference (name : String)
  /-- A percent sign that means nothing. -/
  | stray
deriving DecidableEq, Repr, Inhabited

def reference? (cs : List Char) : Option (String × List Char) :=
  match cs.takeWhile (· ≠ ')'), cs.dropWhile (· ≠ ')') with
  | [], _ => none
  | name, ')' :: 's' :: rest => some (Text.lower (String.ofList name), rest)
  | _, _ => none

def piecesWithin : Nat → List Char → List Piece
  | 0, _ => []
  | _ + 1, [] => []
  | fuel + 1, '%' :: '%' :: rest => .char '%' :: piecesWithin fuel rest
  | fuel + 1, '%' :: '(' :: rest =>
    match reference? rest with
    | some (name, rest) => .reference name :: piecesWithin fuel rest
    | none => [.stray]
  | _ + 1, '%' :: _ => [.stray]
  | fuel + 1, c :: rest => .char c :: piecesWithin fuel rest

/-- The pieces of a value, up to the first percent sign that means nothing. -/
def pieces (cs : List Char) : List Piece := piecesWithin cs.length cs

def depthLimit : Nat := 10

def expand (find : String → Option String) : (depth : Nat) → List Char → Except Fault (List Char)
  | 0, _ => .error (.ini .interpolationDepth)
  | depth + 1, cs => do
    let parts ← (pieces cs).mapM fun
      | .char c => .ok [c]
      | .stray => .error (.ini .interpolationForm)
      | .reference name =>
        match find name with
        | none => .error (.ini .interpolationUnknownOption)
        -- Only values that refer further count for the depth.
        | some v => if v.contains '%' then expand find depth v.toList else .ok v.toList
    return parts.flatten

/-- The options of a section, followed by those of all sections that it does not have itself. -/
def optionsOf (ini : Ini) (section_ : String) : Option Options :=
  (ini.sections.lookup section_).map fun own =>
    own ++ ini.defaults.filter fun o => !own.any (·.1 == o.1)

def value? (options : Options) (name : String) : Except Fault (Option String) :=
  match options.lookup name with
  | none => .ok none
  | some v =>
    (expand (List.lookup · options) depthLimit v.toList).map fun cs => some (String.ofList cs)

end Ini

end Formula
