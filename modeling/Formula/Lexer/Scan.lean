import Formula.Lexer.Settings
import Formula.Reader
import Formula.TokenBuilder

/-! One step of lexical analysis: from a reader to the next token. Every decision looks at the
characters that follow, and every look ahead is noted on the reader, since the end of a source that
fails is reported when it is first looked at. -/
namespace Formula.Lexer

open Formula.Text (isDigit isLetter isBlank isControl)

abbrev Scanned (α : Type) := Except Fault α × Reader

namespace Settings

variable (st : Settings)

def isDecimalSeparator (c : Char) : Bool := st.decimalSeparator.isChar c

def isGroupingSeparator (c : Char) : Bool := st.groupingSeparator.isChar c

def isExponentSeparator (c : Char) : Bool :=
  st.exponentSeparator.isChar c || st.alternateExponentSeparator.isChar c

def isBracket (c : Char) : Bool :=
  c ≠ endMark && st.brackets.contains (String.singleton c)

def escapeOf? (c : Char) : Option SettingValue :=
  (st.stringDelimiters.find? (·.1 == String.singleton c)).map (·.2)

/-- A number starts with a digit, or with a decimal separator before a digit, and may have a minus
sign in front. -/
def startsNumber : List Char → Bool
  | [] => false
  | c :: rest =>
    let digitAt (n : Nat) : Bool := isDigit (rest.getD n endMark)
    isDigit c
      || (c == '-' && digitAt 0)
      || (c == '-' && st.isDecimalSeparator (rest.getD 0 endMark) && digitAt 1)
      || (st.isDecimalSeparator c && digitAt 0)

def numberReach (cs : List Char) : Nat :=
  match cs with
  | c :: d :: _ =>
    if !isDigit c && c == '-' && !isDigit d && st.isDecimalSeparator d then 2 else 1
  | _ => 1

def continuesNumber (cs : List Char) : Bool :=
  let c := cs.getD 0 endMark
  let d := cs.getD 1 endMark
  isDigit c || st.isDecimalSeparator c
    || (st.isGroupingSeparator c && isDigit d)
    || (st.isExponentSeparator c
      && (isDigit d || ((d == '+' || d == '-') && isDigit (cs.getD 2 endMark))))

def continuationReach (cs : List Char) : Nat :=
  let c := cs.getD 0 endMark
  let d := cs.getD 1 endMark
  if isDigit c || st.isDecimalSeparator c || (st.isGroupingSeparator c && isDigit d) then 1
  else if st.isExponentSeparator c && !isDigit d && (d == '+' || d == '-') then 2
  else 1

def keyword? (content : String) : Option String :=
  if st.caseMatters then st.keywords.find? (· == content)
  else
    let wanted := Text.lower content
    st.keywords.find? (Text.lower · == wanted)

end Settings

def isNameChar (c : Char) : Bool := isDigit c || isLetter c || c == '_'

def freezeName (st : Settings) (b : TokenBuilder) : Token :=
  match st.keyword? b.content with
  | some k => (b.retype .keyword (some k)).freeze
  | none => b.freeze

def scanNameTail : Nat → TokenBuilder → Reader → TokenBuilder × Reader
  | 0, b, r => (b, r)
  | fuel + 1, b, r =>
    let r := r.reach 0
    if isNameChar (r.char 0) then scanNameTail fuel (b.addContent (r.char 0)) r.advance
    else (b, r)

def scanName (st : Settings) (r : Reader) : Token × Reader :=
  let b : TokenBuilder := { kind := .identifier, position := r.position }
  let (b, r) := scanNameTail r.rest.length (b.addContent (r.char 0)) r.advance
  let c := r.char 0
  if c ≠ endMark && st.specialTerminators.contains (String.singleton c) then
    let b := b.retype .specialIdentifier (some (String.singleton c))
    (freezeName st (b.addSource c), r.advance)
  else (freezeName st b, r)

def scanSpecialName (st : Settings) (r : Reader) : Token × Reader :=
  let b : TokenBuilder := { kind := .specialIdentifier, position := r.position }
  let (b, r) := scanNameTail r.rest.length (b.addTrigger (r.char 0)) r.advance
  (freezeName st b, r)

/-- An operator of one character, or of two if the second one is an equals sign or doubles an
asterisk, ampersand or bar. -/
def scanSymbol (r : Reader) : Token × Reader :=
  let first := r.char 0
  let b : TokenBuilder := { kind := .symbol, position := r.position }
  let b := b.addTrigger first
  let r := r.advance.reach 0
  let c := r.char 0
  if ((first == '*' || first == '&' || first == '|') && c == first) || c == '=' then
    ((b.addTrigger c).freeze, r.advance)
  else (b.freeze, r)

def scanBracket (r : Reader) : Token × Reader :=
  ((TokenBuilder.ofCharacter .symbol (r.characterAt 0)).freeze, r.advance)

def unescape? (delimiter : Char) (escape : SettingValue) (c : Char) : Option String :=
  if c = endMark then none
  else if c = delimiter then some (String.singleton delimiter)
  else if escape.isChar c then some (String.singleton c)
  else if c = 'n' then some "\n"
  else if c = 'r' then some "\r"
  else none

/-- Whether a text constant ends, rightly or wrongly, before this character. -/
def endsString (delimiter c : Char) : Bool := c == '\n' || c == delimiter || c == endMark

def scanStringTail (delimiter : Char) (escape : SettingValue) :
    Nat → TokenBuilder → Reader → TokenBuilder × Reader
  | 0, b, r => (b, r)
  | fuel + 1, b, r =>
    let r := r.reach 0
    let c := r.char 0
    if endsString delimiter c then (b, r)
    else if escape.isChar c then
      let b := b.addSource c
      let r := r.advance.reach 0
      let e := r.char 0
      match unescape? delimiter escape e with
      | some s => scanStringTail delimiter escape fuel ((b.addSilently s).addSource e) r.advance
      | none =>
        -- The character is not dropped: the next round reads it as part of the text.
        scanStringTail delimiter escape fuel b
          (r.report ⟨.error, r.position,
            "Cannot use '" ++ (r.characterAt 0).text ++ "' as escaped character"⟩)
    else scanStringTail delimiter escape fuel (b.addContent c) r.advance

def scanString (escape : SettingValue) (r : Reader) : Token × Reader :=
  let delimiter := r.char 0
  let b : TokenBuilder := { kind := .string, position := r.position }
  let (b, r) :=
    scanStringTail delimiter escape r.rest.length (b.addTrigger delimiter) r.advance
  if r.char 0 = delimiter then ((b.addSource delimiter).freeze, r.advance)
  else (b.freeze, r.report ⟨.error, r.position, "Premature end of string constant"⟩)

def addEffective (b : TokenBuilder) : SettingValue → Except Fault TokenBuilder
  | .text s => .ok (b.addSilently s)
  | _ => .error .wrongKind

def scanNumberTail (st : Settings) : Nat → TokenBuilder → Reader → Scanned Token
  | 0, b, r => (.ok b.freeze, r)
  | fuel + 1, b, r =>
    let r := r.reach (st.continuationReach r.rest)
    let c := r.char 0
    if !st.continuesNumber r.rest then (.ok b.freeze, r)
    else if st.isGroupingSeparator c then scanNumberTail st fuel (b.addSource c) r.advance
    else if st.isDecimalSeparator c then
      if b.kind = .integer then
        match addEffective (b.retype .decimal) st.effectiveDecimalSeparator with
        | .error f => (.error f, r)
        | .ok b => scanNumberTail st fuel (b.addSource c) r.advance
      else
        -- Only an integer becomes a decimal number; any other separator is left out.
        scanNumberTail st fuel (b.addSource c)
          (r.report ⟨.error, r.position, "Unexpected decimal separators"⟩).advance
    else if st.isExponentSeparator c then
      if b.kind = .scientific then
        scanNumberTail st fuel (b.addSource c)
          (r.report ⟨.error, r.position, "Unexpected scientific notation separators"⟩).advance
      else
        match addEffective (b.retype .scientific) st.effectiveExponentSeparator with
        | .error f => (.error f, r)
        | .ok b =>
          let b := b.addSource c
          let r := r.advance
          let s := r.char 0
          -- A sign continues no number, so the one of the exponent is read here.
          if s == '+' || s == '-' then scanNumberTail st fuel (b.addContent s) r.advance
          else scanNumberTail st fuel b r
    else scanNumberTail st fuel (b.addContent c) r.advance

def scanNumber (st : Settings) (r : Reader) : Scanned Token :=
  let b : TokenBuilder := { kind := .integer, position := r.position }
  let c := r.char 0
  if st.isDecimalSeparator c then
    match addEffective (b.retype .decimal) st.effectiveDecimalSeparator with
    | .error f => (.error f, r)
    | .ok b => scanNumberTail st r.rest.length (b.addSource c) r.advance
  else scanNumberTail st r.rest.length (b.addContent c) r.advance

def skipBlanks : Nat → Reader → Reader
  | 0, r => r
  | fuel + 1, r =>
    let r := r.reach 0
    if isBlank (r.char 0) && !(r.char 0 == endMark) then skipBlanks fuel r.advance else r

/-- How many characters agree with those of a marker, up to the first difference. -/
def agreement : List Char → List Char → Nat
  | m :: ms, c :: cs => if m = c ∧ m ≠ endMark then agreement ms cs + 1 else 0
  | _, _ => 0

/-- Whether the text goes on with a marker. A marker that is absent or empty is never found; one
that is no text at all is a fault. The reader notes the look ahead. -/
def findMarker (marker : SettingValue) (r : Reader) : Scanned Nat :=
  match marker with
  | .text s =>
    let ms := s.toList
    if ms.isEmpty then (.ok 0, r)
    else
      let n := agreement ms r.rest
      if n = ms.length then (.ok n, r.reach (n - 1)) else (.ok 0, r.reach n)
  | v => if v.isOn then (.error .wrongKind, r) else (.ok 0, r)

def skipLine : Nat → Reader → Reader
  | 0, r => r
  | fuel + 1, r =>
    let r := r.reach 0
    if r.char 0 == endMark || r.char 0 == '\n' then r else skipLine fuel r.advance

def skipBlock (marker : SettingValue) : Nat → Reader → Scanned Unit
  | 0, r => (.ok (), r)
  | fuel + 1, r =>
    let r := r.reach 0
    if r.char 0 == endMark then
      (.ok (), r.report ⟨.error, r.position, "Premature end of block comment"⟩)
    else match findMarker marker r with
      | (.error f, r) => (.error f, r)
      | (.ok 0, r) => skipBlock marker fuel r.advance
      | (.ok n, r) => (.ok (), r.skip n)

/-- Whether the current character is a bracket. A bar is one unless another bar follows. -/
def atBracket (st : Settings) (r : Reader) : Bool × Reader :=
  let c := r.char 0
  if st.isBracket c then (true, r)
  else if st.barIsBracket.isOn && c == '|' then
    let r := r.reach 1
    (r.char 1 ≠ '|', r)
  else (false, r)

inductive Step where
  | done (t : Option Token)
  | skipped

def skipComment (st : Settings) (r : Reader) : Scanned Bool :=
  match findMarker st.lineComment r with
  | (.error f, r) => (.error f, r)
  | (.ok (n + 1), r) => (.ok true, skipLine (r.rest.length + 1) (r.skip (n + 1)))
  | (.ok 0, r) =>
  match findMarker st.blockCommentStart r with
  | (.error f, r) => (.error f, r)
  | (.ok (n + 1), r) =>
    match skipBlock st.blockCommentEnd (r.rest.length + 1) (r.skip (n + 1)) with
    | (.error f, r) => (.error f, r)
    | (.ok (), r) => (.ok true, r)
  | (.ok 0, r) => (.ok false, r)

/-- Reads the token that starts with the current character, or skips a character with which no token
starts. -/
def scanToken (st : Settings) (r : Reader) : Scanned Step :=
  let c := r.char 0
  let token (out : Token × Reader) : Scanned Step := (.ok (.done (some out.1)), out.2)
  -- Numbers go first: a minus sign before a digit belongs to the number.
  let r := r.reach (st.numberReach r.rest)
  if st.startsNumber r.rest then
    match scanNumber st r with
    | (.ok t, r) => token (t, r)
    | (.error f, r) => (.error f, r)
  else if isLetter c then token (scanName st r)
  else match st.escapeOf? c with
  | some escape => token (scanString escape r)
  | none =>
  match atBracket st r with
  | (true, r) => token (scanBracket r)
  | (false, r) =>
  if st.specialStarters.contains (String.singleton c) then token (scanSpecialName st r)
  else if isControl c then
    (.ok .skipped,
      (r.report ⟨.error, r.position,
        "Invalid character in input: '" ++ String.singleton c ++ "'"⟩).advance)
  else token (scanSymbol r)

def step (st : Settings) (r : Reader) : Scanned Step :=
  let r := skipBlanks (r.rest.length + 1) r
  if r.char 0 == endMark then (.ok (.done none), r)
  else match skipComment st r with
  | (.error f, r) => (.error f, r)
  | (.ok true, r) => (.ok .skipped, r)
  | (.ok false, r) => scanToken st r

def afterStep (more : Reader → Scanned (Option Token)) : Scanned Step → Scanned (Option Token)
  | (.error f, r) => (.error f, r)
  | (.ok (.done t), r) => (.ok t, r)
  | (.ok .skipped, r) => more r

/-- Steps until a token is read or the text is at its end. Every step that skips drops a character,
so the length of the text bounds their number. -/
def scanWithin (st : Settings) : Nat → Reader → Scanned (Option Token)
  | 0, r => (.ok none, r)
  | fuel + 1, r => afterStep (scanWithin st fuel) (step st r)

def scan (st : Settings) (r : Reader) : Scanned (Option Token) :=
  scanWithin st (r.rest.length + 1) r

end Formula.Lexer
