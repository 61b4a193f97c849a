import Formula.Ini
import Formula.Workspace

/-! Configurations: settings for reading and evaluating expressions, as a settings file gives them
in its sections `tokenizer` and `parser`. Beside a file `a.cfg` there may be a file `a.mine.cfg`, of
which the values go before those of the first one. -/
namespace Formula
open Number Lexer

structure Config where
  settings : List (String × SettingValue) := []
  isPrecise : Bool := false
  /-- The number of decimal digits of that precision, unless it is the one in use. -/
  digits : Option Int := none
  isStrict : Bool := false
  failOnWarnings : Bool := true
deriving Inhabited

namespace Config

def readFlag (s : String) : Except Fault Bool :=
  match Text.lower s with
  | "1" | "yes" | "true" | "on" => .ok true
  | "0" | "no" | "false" | "off" => .ok false
  | _ => .error .malformedValue

def characters (cs : List Char) : List String := cs.map String.singleton

def commaSeparated (s : String) : List String :=
  ((s.splitOn ",").map fun piece => String.ofList (Text.strip piece.toList)).filter (· ≠ "")

/-- A delimiter and its escape character, which may be missing. -/
def delimiterEntry : List Char → String × SettingValue
  | d :: e :: _ => (String.singleton d, .text (String.singleton e))
  | [d] => (String.singleton d, .text "\x00")
  | [] => ("", .absent)

def delimiters (s : String) : List (String × SettingValue) :=
  (Text.words s.toList).foldl
    (fun es item => let e := delimiterEntry item; putEntry es e.1 e.2) []

def readSetting (name value : String) : Except Fault SettingValue :=
  match name with
  | "treat_single_pipe_as_bracket" | "keywords_case_sensitive" => .flag <$> readFlag value
  | "brackets" | "special_id_starters" | "special_id_terminators" =>
    .ok (.set (distinct (characters (value.toList.filter (· ≠ ' ')))))
  | "keywords" => .ok (.list ((commaSeparated value).map .text))
  | "string_delimiters" => .ok (.table (delimiters value))
  -- An empty marker stands for none.
  | "line_comment" | "block_comment_start" | "block_comment_end" =>
    .ok (if value = "" then .absent else .text value)
  | _ => .ok (.text value)

def lexerSetting (options : Ini.Options) (name : String) :
    Except Fault (String × SettingValue) := do
  if !Settings.names.contains name then throw (.unknownLexerSetting name)
  let value ← Ini.value? options name
  return (name, ← readSetting name (value.getD ""))

def lexerSettings (options : Ini.Options) : Except Fault (List (String × SettingValue)) :=
  (options.map (·.1)).mapM (lexerSetting options)

def flag (options : Ini.Options) (name : String) (usual : Bool) : Except Fault Bool := do
  match ← Ini.value? options name with
  | some s => readFlag s
  | none => return usual

def number (options : Ini.Options) (name : String) : Except Fault (Option Int) := do
  match ← Ini.value? options name with
  | none => return none
  | some s =>
    match readInt? s.toList with
    | some n => return some n
    | none => throw .malformedValue

def parserOptions : List String := ["use_mp", "dps", "strict", "fail_on_warnings"]

def withParserOptions (c : Config) (options : Ini.Options) : Except Fault Config := do
  let unknown := (options.map (·.1)).filter (!parserOptions.contains ·)
  if !unknown.isEmpty then throw (.unknownParserSettings (unknown.mergeSort (· ≤ ·)))
  return { c with
    isPrecise := ← flag options "use_mp" false
    digits := ← number options "dps"
    isStrict := ← flag options "strict" false
    failOnWarnings := ← flag options "fail_on_warnings" true }

def ofIni (ini : Ini) : Except Fault Config := do
  let settings ←
    match ini.optionsOf "tokenizer" with
    | some options => lexerSettings options
    | none => .ok []
  let c : Config := { settings := settings }
  match ini.optionsOf "parser" with
  | some options => c.withParserOptions options
  | none => return c

/-- A path as the part up to its extension, and the extension with its dot. Dots at the beginning of
a file name do not start an extension. -/
def splitExtension (path : String) : String × String :=
  let cs := path.toList.reverse
  let file := (cs.takeWhile (· ≠ '/')).reverse
  let directory := (cs.dropWhile (· ≠ '/')).reverse
  let dots := file.takeWhile (· = '.')
  let name := (file.dropWhile (· = '.')).reverse
  let extension := name.takeWhile (· ≠ '.')
  match name.dropWhile (· ≠ '.') with
  | [] => (path, "")
  | _ :: stem =>
    (String.ofList (directory ++ dots ++ stem.reverse), String.ofList ('.' :: extension.reverse))

def overrideName (path : String) : String :=
  let (stem, extension) := splitExtension path
  stem ++ ".mine" ++ extension

/-- Reads a settings file, and the one beside it if there is one. -/
def load (files : String → Option String) (path : String) : Except Fault Config := do
  let ini ←
    match files path with
    | some text => Ini.read {} text
    | none => throw .missingFile
  match files (overrideName path) with
  | some text => ofIni (← ini.read text)
  | none => ofIni ini

def flagText (b : Bool) : String := if b then "True" else "False"

def describe (c : Config) : String :=
  "<ExprConfig use_mp=" ++ flagText c.isPrecise
    ++ ", dps=" ++ (match c.digits with | some n => toString n | none => "None")
    ++ ", strict=" ++ flagText c.isStrict
    ++ ", fail_on_warnings=" ++ flagText c.failOnWarnings
    ++ ", tokenizer=" ++ (SettingValue.table c.settings).describe ++ ">"

def mode (c : Config) : Mode := if c.isPrecise then .precise else .float

/-- The precision that replaces the one in use. Zero digits are no precision. -/
def precision (c : Config) (usual : Precision) : Precision :=
  match c.digits with
  | some d => if c.isPrecise && d ≠ 0 then .ofDigits d else usual
  | none => usual

def readOptions (c : Config) : ReadOptions :=
  { settings := c.settings, failOnWarnings := c.failOnWarnings }

def newScope (c : Config) : Workspace.Action ScopeId := do
  let s ← Workspace.newScope none c.mode
  Workspace.change fun st => .ok (st.setStrict s c.isStrict)
  return s

def readExpr (c : Config) (text : String) (scope : Option ScopeId) :
    Workspace.Action Reading := do
  let s ←
    match scope with
    | some s => pure s
    | none => c.newScope
  Workspace.readExpr (.ofString text) (some s) none c.readOptions

end Config

end Formula
