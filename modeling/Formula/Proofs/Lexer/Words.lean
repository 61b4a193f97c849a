import Formula.Proofs.Entries
import Formula.Proofs.Lexer.Progress

/-! The lexical grammar under the standard settings. It says which characters spell a token, which
may stand between two tokens, and what may follow. What is read from a text is determined by it. -/
namespace Formula

namespace Lexer

open Formula.Text (isDigit isLetter isBlank isControl)

/-- What a token says, apart from its source and its position. -/
structure Word where
  kind : TokenKind
  trigger : String
  content : String
deriving DecidableEq

/-- What a number says from a place on: the kind it has so far, the characters that follow, and the
kind and the content that they give it. -/
inductive Numeral : TokenKind → List Char → TokenKind → List Char → Prop
  | done {k : TokenKind} : Numeral k [] k []
  | digit {k k' : TokenKind} {c : Char} {cs ds : List Char} (is : isDigit c)
      (more : Numeral k cs k' ds) : Numeral k (c :: cs) k' (c :: ds)
  | group {k k' : TokenKind} {cs ds : List Char} (before : isDigit (cs.getD 0 endMark))
      (more : Numeral k cs k' ds) : Numeral k ('_' :: cs) k' ds
  | point {k' : TokenKind} {cs ds : List Char} (more : Numeral .decimal cs k' ds) :
      Numeral .integer ('.' :: cs) k' ('.' :: ds)
  | exponent {k k' : TokenKind} {c : Char} {cs ds : List Char} (is : c = 'e' ∨ c = 'E')
      (first : k ≠ .scientific) (before : isDigit (cs.getD 0 endMark))
      (more : Numeral .scientific cs k' ds) : Numeral k (c :: cs) k' ('e' :: ds)
  | signed {k k' : TokenKind} {c s : Char} {cs ds : List Char} (is : c = 'e' ∨ c = 'E')
      (first : k ≠ .scientific) (sign : s = '+' ∨ s = '-') (before : isDigit (cs.getD 0 endMark))
      (more : Numeral .scientific cs k' ds) : Numeral k (c :: s :: cs) k' ('e' :: s :: ds)

def StartsUnsigned (cs : List Char) : Prop :=
  isDigit (cs.getD 0 endMark) ∨ cs.getD 0 endMark = '.' ∧ isDigit (cs.getD 1 endMark)

structure StartsWord (cs : List Char) : Prop where
  visible : cs.getD 0 endMark ≠ endMark
  noBlank : isBlank (cs.getD 0 endMark) = false
  noComment : cs.getD 0 endMark = '/' → cs.getD 1 endMark ≠ '/' ∧ cs.getD 1 endMark ≠ '*'

structure StartsSymbol (c : Char) (rest : List Char) : Prop where
  noNumber : ({} : Settings).startsNumber (c :: rest) = false
  noLetter : isLetter c = false
  noDelimiter : ({} : Settings).escapeOf? c = none
  noBracket : ({} : Settings).isBracket c = false
  noBar : c = '|' → rest.getD 0 endMark = '|'
  noControl : isControl c = false

def joins (c d : Char) : Bool := ((c == '*' || c == '&' || c == '|') && d == c) || d == '='

/-- The characters spell the word where the others follow. -/
inductive Spells : List Char → Word → List Char → Prop
  | name {c : Char} {cs rest : List Char} (letter : isLetter c) (noDigit : isDigit c = false)
      (more : ∀ d ∈ cs, isNameChar d)
      (stop : isNameChar (rest.getD 0 endMark) = false) :
      Spells (c :: cs) ⟨.identifier, "", String.ofList (c :: cs)⟩ rest
  | number {cs ds rest : List Char} {k : TokenKind} (starts : StartsUnsigned cs)
      (reads : Numeral .integer cs k ds) (stop : ({} : Settings).continuesNumber rest = false) :
      Spells cs ⟨k, "", String.ofList ds⟩ rest
  | negative {cs ds rest : List Char} {k : TokenKind} (starts : StartsUnsigned cs)
      (reads : Numeral .integer cs k ds) (stop : ({} : Settings).continuesNumber rest = false) :
      Spells ('-' :: cs) ⟨k, "", String.ofList ('-' :: ds)⟩ rest
  | bracket {c : Char} {rest : List Char} (is : ({} : Settings).isBracket c) :
      Spells [c] ⟨.symbol, String.singleton c, String.singleton c⟩ rest
  | bar {rest : List Char} (single : rest.getD 0 endMark ≠ '|') :
      Spells ['|'] ⟨.symbol, "|", "|"⟩ rest
  | symbol {c : Char} {rest : List Char} (starts : StartsSymbol c rest)
      (single : joins c (rest.getD 0 endMark) = false) :
      Spells [c] ⟨.symbol, String.singleton c, ""⟩ rest
  | double {c d : Char} {rest : List Char} (starts : StartsSymbol c (d :: rest))
      (joined : joins c d) :
      Spells [c, d] ⟨.symbol, String.ofList [c, d], ""⟩ rest

inductive BlockBody : List Char → Prop
  | last : BlockBody ['*', '/']
  | more {c : Char} {cs : List Char} (visible : c ≠ endMark)
      (goesOn : c = '*' → cs.getD 0 endMark ≠ '/')
      (rest : BlockBody cs) : BlockBody (c :: cs)

/-- From the first characters on, blanks and comments lead to the second ones. -/
inductive Gap : List Char → List Char → Prop
  | none {cs : List Char} : Gap cs cs
  | blank {c : Char} {cs rest : List Char} (is : isBlank c) (more : Gap cs rest) :
      Gap (c :: cs) rest
  | line {body cs rest : List Char} (inside : ∀ c ∈ body, c ≠ '\n' ∧ c ≠ endMark)
      (ends : cs.getD 0 endMark = '\n' ∨ cs.getD 0 endMark = endMark) (more : Gap cs rest) :
      Gap ('/' :: '/' :: (body ++ cs)) rest
  | block {body cs rest : List Char} (inside : BlockBody body) (more : Gap cs rest) :
      Gap ('/' :: '*' :: (body ++ cs)) rest

/-- From the first characters on, the words are read, and a gap leads to the second ones. -/
inductive Reaches : List Char → List Word → List Char → Prop
  | done {cs rest : List Char} (gap : Gap cs rest) : Reaches cs [] rest
  | word {cs ws cs' rest : List Char} {w : Word} {words : List Word} (gap : Gap cs (ws ++ cs'))
      (starts : StartsWord (ws ++ cs')) (spells : Spells ws w cs') (more : Reaches cs' words rest) :
      Reaches cs (w :: words) rest

/-- The characters are the words and nothing else, up to their end. -/
def Reads (cs : List Char) (words : List Word) : Prop :=
  ∃ rest, Reaches cs words rest ∧ rest.getD 0 endMark = endMark

section Gaps

variable {cs cs' rest rest' : List Char} {ws ws' : List Word}

theorem Gap.trans (h : Gap cs cs') (h' : Gap cs' rest) : Gap cs rest := by
  induction h with
  | none => exact h'
  | blank is _ ih => exact .blank is (ih h')
  | line inside ends _ ih => exact .line inside ends (ih h')
  | block inside _ ih => exact .block inside (ih h')

theorem Reaches.after (gap : Gap cs cs') (h : Reaches cs' ws rest) : Reaches cs ws rest := by
  cases h with
  | done more => exact .done (gap.trans more)
  | word more starts spells later => exact .word (gap.trans more) starts spells later

theorem Reaches.trans (h : Reaches cs ws cs') (h' : Reaches cs' ws' rest) :
    Reaches cs (ws ++ ws') rest := by
  induction h with
  | done gap => exact h'.after gap
  | word gap starts spells _ ih => exact .word gap starts spells (ih h')

theorem Reaches.single {w : List Char} {word : Word} (starts : StartsWord (w ++ rest))
    (spells : Spells w word rest) : Reaches (w ++ rest) [word] rest :=
  .word .none starts spells (.done .none)

end Gaps

end Lexer

def Token.word (t : Token) : Lexer.Word := ⟨t.kind, t.trigger, t.content⟩

/-- A reader of a complete text, with the characters before it and the problems found so far. -/
structure Reader.Stands (cs : List Char) (ps : List Problem) (r : Reader) : Prop where
  rest : r.rest = cs
  problems : r.problems = ps
  quiet : r.ending = .quiet
  whole : r.broken = none

namespace Reader.Stands

variable {c : Char} {cs : List Char} {ps : List Problem} {r : Reader}

theorem char (h : Stands cs ps r) (n : Nat) : r.char n = cs.getD n endMark := by
  simp [Reader.char, h.rest]

theorem reach (h : Stands cs ps r) (n : Nat) : Stands cs ps (r.reach n) := by
  obtain ⟨rfl, rfl, quiet, whole⟩ := h
  unfold Reader.reach
  split
  · exact ⟨rfl, rfl, quiet, whole⟩
  · simp only [quiet]
    exact ⟨rfl, rfl, rfl, whole⟩

theorem advance (h : Stands (c :: cs) ps r) : Stands cs ps r.advance := by
  obtain ⟨rest, rfl, quiet, whole⟩ := h
  unfold Reader.advance
  rw [rest]
  exact ⟨rfl, rfl, quiet, whole⟩

end Reader.Stands

end Formula
