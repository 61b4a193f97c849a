import Formula.Entries
import Formula.Fault
import Formula.Text.Quoted

/-! Settings of the lexer: separators, comments, brackets, keywords and string delimiters. Settings
come from outside and need not be of the kind that they should have. -/
namespace Formula.Lexer

inductive SettingValue where
  | absent
  | flag (b : Bool)
  | number (n : Int)
  | text (s : String)
  | list (items : List SettingValue)
  | set (items : List String)
  | table (entries : List (String × SettingValue))
deriving Inhabited

namespace SettingValue

def isOn : SettingValue → Bool
  | absent => false
  | flag b => b
  | number n => n ≠ 0
  | text s => s ≠ ""
  | list items => !items.isEmpty
  | set items => !items.isEmpty
  | table entries => !entries.isEmpty

/-- Whether the value is the text of just this character. The null character is never meant. -/
def isChar (v : SettingValue) (c : Char) : Bool :=
  match v with
  | text s => c ≠ '\x00' && s == String.singleton c
  | _ => false

/-- The texts that a value consists of: the characters of a text, the items of a collection. -/
def texts? : SettingValue → Except Fault (List String)
  | text s => .ok (s.toList.map String.singleton)
  | list items => .ok (items.filterMap fun | text s => some s | _ => none)
  | set items => .ok items
  | table entries => .ok (entries.map (·.1))
  | _ => .error .wrongKind

def pair? : SettingValue → Except Fault (String × SettingValue)
  | text s =>
    match s.toList with
    | [a, b] => .ok (String.singleton a, .text (String.singleton b))
    | _ => .error .malformedValue
  | list [text a, b] => .ok (a, b)
  | list _ => .error .malformedValue
  | _ => .error .wrongKind

def pairs? : SettingValue → Except Fault (List (String × SettingValue))
  | table entries => .ok entries
  | list items => items.mapM pair?
  | text s => if s = "" then .ok [] else .error .malformedValue
  | set items => if items.isEmpty then .ok [] else .error .malformedValue
  | _ => .error .wrongKind

mutual

def describe : SettingValue → String
  | absent => "None"
  | flag b => if b then "True" else "False"
  | number n => toString n
  | text s => Text.quoted s
  | list items => "[" ++ ", ".intercalate (descriptions items) ++ "]"
  | set [] => "set()"
  | set items => "\x7b" ++ ", ".intercalate (items.map Text.quoted) ++ "\x7d"
  | table es => "\x7b" ++ ", ".intercalate (descriptionsOf es) ++ "\x7d"

def descriptions : List SettingValue → List String
  | [] => []
  | v :: rest => v.describe :: descriptions rest

def descriptionsOf : List (String × SettingValue) → List String
  | [] => []
  | (name, v) :: rest => (Text.quoted name ++ ": " ++ v.describe) :: descriptionsOf rest

end

end SettingValue

structure Settings where
  decimalSeparator : SettingValue := .text "."
  /-- What the decimal separator becomes in the content of a number. -/
  effectiveDecimalSeparator : SettingValue := .text "."
  /-- May stand between digits and is left out of the content. -/
  groupingSeparator : SettingValue := .text "_"
  exponentSeparator : SettingValue := .text "e"
  alternateExponentSeparator : SettingValue := .text "E"
  effectiveExponentSeparator : SettingValue := .text "e"
  lineComment : SettingValue := .text "//"
  blockCommentStart : SettingValue := .text "/*"
  blockCommentEnd : SettingValue := .text "*/"
  brackets : List String := ["(", "[", "\x7b", "\x7d", "]", ")"]
  barIsBracket : SettingValue := .flag true
  specialStarters : List String := []
  specialTerminators : List String := []
  keywords : List String := []
  keywordsCaseSensitive : SettingValue := .flag false
  /-- Each string delimiter with its escape character; the null character stands for none. -/
  stringDelimiters : List (String × SettingValue) :=
    [("\"", .text "\\"), ("'", .text "\x00")]
deriving Inhabited

namespace Settings

def names : List String :=
  ["decimal_separator", "effective_decimal_separator", "grouping_separator",
    "scientific_notation_separator", "alternate_scientific_notation_separator",
    "effective_scientific_notation_separator", "line_comment", "block_comment_start",
    "block_comment_end", "brackets", "treat_single_pipe_as_bracket", "special_id_starters",
    "special_id_terminators", "keywords", "keywords_case_sensitive", "string_delimiters"]

def addKeyword (st : Settings) (k : String) : Settings :=
  { st with keywords := distinct (st.keywords ++ [k]) }

def addSpecialStarter (st : Settings) (s : String) : Settings :=
  { st with specialStarters := distinct (st.specialStarters ++ [s]) }

def addSpecialTerminator (st : Settings) (s : String) : Settings :=
  { st with specialTerminators := distinct (st.specialTerminators ++ [s]) }

def addStringDelimiter (st : Settings) (delimiter : String) (escape : SettingValue) : Settings :=
  { st with stringDelimiters := putEntry st.stringDelimiters delimiter escape }

def set (st : Settings) (name : String) (v : SettingValue) : Except Fault Settings :=
  match name with
  | "decimal_separator" => .ok { st with decimalSeparator := v }
  | "effective_decimal_separator" => .ok { st with effectiveDecimalSeparator := v }
  | "grouping_separator" => .ok { st with groupingSeparator := v }
  | "scientific_notation_separator" => .ok { st with exponentSeparator := v }
  | "alternate_scientific_notation_separator" => .ok { st with alternateExponentSeparator := v }
  | "effective_scientific_notation_separator" => .ok { st with effectiveExponentSeparator := v }
  | "line_comment" => .ok { st with lineComment := v }
  | "block_comment_start" => .ok { st with blockCommentStart := v }
  | "block_comment_end" => .ok { st with blockCommentEnd := v }
  | "brackets" => v.texts?.map fun ss => { st with brackets := distinct ss }
  | "treat_single_pipe_as_bracket" => .ok { st with barIsBracket := v }
  | "special_id_starters" => v.texts?.map fun ss => { st with specialStarters := distinct ss }
  | "special_id_terminators" =>
    v.texts?.map fun ss => { st with specialTerminators := distinct ss }
  | "keywords" => v.texts?.map fun ss => { st with keywords := distinct ss }
  | "keywords_case_sensitive" => .ok { st with keywordsCaseSensitive := v }
  | "string_delimiters" =>
    v.pairs?.map fun es =>
      { st with stringDelimiters := es.foldl (fun acc e => putEntry acc e.1 e.2) [] }
  | _ => .error (.unknownLexerSetting name)

/-- The value of a setting, with sets in the order of their characters. -/
def get? (st : Settings) (name : String) : Option SettingValue :=
  let sorted (ss : List String) : SettingValue := .set (ss.mergeSort (· ≤ ·))
  match name with
  | "decimal_separator" => some st.decimalSeparator
  | "effective_decimal_separator" => some st.effectiveDecimalSeparator
  | "grouping_separator" => some st.groupingSeparator
  | "scientific_notation_separator" => some st.exponentSeparator
  | "alternate_scientific_notation_separator" => some st.alternateExponentSeparator
  | "effective_scientific_notation_separator" => some st.effectiveExponentSeparator
  | "line_comment" => some st.lineComment
  | "block_comment_start" => some st.blockCommentStart
  | "block_comment_end" => some st.blockCommentEnd
  | "brackets" => some (sorted st.brackets)
  | "treat_single_pipe_as_bracket" => some st.barIsBracket
  | "special_id_starters" => some (sorted st.specialStarters)
  | "special_id_terminators" => some (sorted st.specialTerminators)
  | "keywords" => some (.list (st.keywords.map .text))
  | "keywords_case_sensitive" => some st.keywordsCaseSensitive
  | "string_delimiters" => some (.table st.stringDelimiters)
  | _ => none

/-- Whether names may be keywords only in their exact spelling. -/
def caseMatters (st : Settings) : Bool := st.keywordsCaseSensitive.isOn

end Settings

end Formula.Lexer
