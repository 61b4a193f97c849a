import Formula.Proofs.Lexer.Separators
import Formula.Proofs.TokenStream.Layout

/-! Quotations. A text that is written in quotes is read back as it was, and its quotation is the
source of the token, whatever stands behind it. -/
namespace Formula

namespace Lexer

open Reader (Stands)

/-- How a character stands in double quotes. -/
def escaped (c : Char) : List Char :=
  if c = '"' ∨ c = '\\' then ['\\', c]
  else if c = '\n' then ['\\', 'n']
  else if c = '\r' then ['\\', 'r']
  else [c]

def doubleQuoted (w : String) : String := String.ofList ('"' :: (w.toList.flatMap escaped ++ ['"']))

/-- A text in single quotes, between which there are no escapes. -/
def singleQuoted (w : String) : String := String.ofList ('\'' :: (w.toList ++ ['\'']))

section Inside

variable {w : List Char}

theorem quoted_escaped (visible : endMark ∉ w) : Quoted '"' (.text "\\") (w.flatMap escaped) w := by
  induction w with
  | nil => exact .done
  | cons c w ih =>
    obtain ⟨here, later⟩ := not_or.mp (List.mem_cons.not.mp visible)
    have more := ih later
    have backslash : (SettingValue.text "\\").isChar '\\' := by decide
    have inside : endsString '"' '\\' = false := by decide
    rw [List.flatMap_cons]
    by_cases special : c = '"' ∨ c = '\\' ∨ c = '\n' ∨ c = '\r'
    · -- each of the four is an escape of its own
      rcases special with rfl | rfl | rfl | rfl
      · exact .escaped inside backslash (s := "\"") (by decide) more
      · exact .escaped inside backslash (s := "\\") (by decide) more
      · exact .escaped inside backslash (s := "\n") (by decide) more
      · exact .escaped inside backslash (s := "\r") (by decide) more
    · obtain ⟨noQuote, noBackslash, noLine, noReturn⟩ : c ≠ '"' ∧ c ≠ '\\' ∧ c ≠ '\n'
          ∧ c ≠ '\r' := by
        simpa only [not_or] using special
      have plain : escaped c = [c] := by simp [escaped, noQuote, noBackslash, noLine, noReturn]
      have goesOn : endsString '"' c = false := by simp [endsString, noLine, noQuote, Ne.symm here]
      rw [plain]
      refine .plain goesOn ?_ more
      rw [isChar_singleton (d := '\\') "\\" (by decide) (by decide)]
      exact decide_eq_false noBackslash

theorem quoted_plain (visible : endMark ∉ w) (noLine : '\n' ∉ w) (noQuote : '\'' ∉ w) :
    Quoted '\'' (.text "\x00") w w := by
  induction w with
  | nil => exact .done
  | cons c w ih =>
    obtain ⟨here, later⟩ := not_or.mp (List.mem_cons.not.mp visible)
    obtain ⟨noLineHere, noLineLater⟩ := not_or.mp (List.mem_cons.not.mp noLine)
    obtain ⟨noQuoteHere, noQuoteLater⟩ := not_or.mp (List.mem_cons.not.mp noQuote)
    refine .plain ?_ ?_ (ih later noLineLater noQuoteLater)
    · simp [endsString, Ne.symm noLineHere, Ne.symm noQuoteHere, Ne.symm here]
    · -- the null character is no escape, as it never is inside a text constant
      have other : "\x00" ≠ String.singleton c := by
        intro same
        have equal : '\x00' = c := by simpa using congrArg String.toList same
        exact here equal
      simp [SettingValue.isChar, other]

end Inside

end Lexer

namespace TokenStream

open Lexer (Quoted SettingValue doubleQuoted singleQuoted)

/-- The first token of the text says the word, and is read without a problem up to the rest. -/
def StartsWith (text : String) (spelling : Lexer.Word × String) (rest : List Char) : Prop :=
  ∃ t s, TokenStream.current (ofSource (.ofString text)) = .ok t s ∧ t.spelling = spelling
    ∧ s.problems = []
    ∧ s.source.reader.rest = rest

theorem current_fresh {l l' : Lexer} {t : Token} (read : l.next = (.ok (some t), l')) :
    TokenStream.current ({ source := l } : TokenStream) =
      .ok t { source := l', buffer := [t] } := by
  have fetched : Feed.fetch l = (.ok (some t), l') := read
  simp [TokenStream.current, Lookahead.current, Lookahead.at?, Lookahead.fill, fetched]

theorem startsWith_quoted (text : String) {delimiter : Char} {escape : SettingValue}
    {body content : List Char}
    (rest : List Char) (is : ({} : Lexer.Settings).escapeOf? delimiter = some escape)
    (inside : Quoted delimiter escape body content)
    (written : text.toList = delimiter :: (body ++ [delimiter]) ++ rest) :
    StartsWith text (⟨.string, String.singleton delimiter, String.ofList content⟩,
      String.ofList (delimiter :: (body ++ [delimiter]))) rest := by
  have starts : Lexer.StartsWord (delimiter :: (body ++ [delimiter]) ++ rest) := by
    have plain : delimiter ≠ endMark ∧ Text.isBlank delimiter = false ∧ delimiter ≠ '/' := by
      rcases Lexer.escapeOf?_standard is with rfl | rfl <;> decide
    obtain ⟨visible, noBlank, noSlash⟩ := plain
    exact ⟨visible, noBlank, fun slash => absurd slash noSlash⟩
  let l : Lexer := { reader := .ofSource (.ofString text) }
  have stands : l.reader.Stands (delimiter :: (body ++ [delimiter]) ++ rest) [] :=
    ⟨written, rfl, rfl, rfl⟩
  obtain ⟨t, r, read, stands', same⟩ := Lexer.scan_lexeme starts (.quoted is inside) .none stands
  have first : l.next = (.ok (some t), { l with reader := r, started := true }) :=
    Lexer.next_of_scan read stands'.whole
  exact ⟨t, _, current_fresh first, same, stands'.problems, stands'.rest⟩

/-- Text constants round-trip: a text in double quotes is read back with its escapes undone, and a
text in one line without single quotes is read back from single quotes, whatever stands behind the
constant. -/
theorem startsWith_quotation (w rest : String) (visible : endMark ∉ w.toList) :
    StartsWith (doubleQuoted w ++ rest) (⟨.string, "\"", w⟩, doubleQuoted w) rest.toList
    ∧ ('\n' ∉ w.toList → '\'' ∉ w.toList →
      StartsWith (singleQuoted w ++ rest) (⟨.string, "'", w⟩, singleQuoted w) rest.toList) := by
  constructor
  · have double : ({} : Lexer.Settings).escapeOf? '"' = some (.text "\\") := rfl
    have read := startsWith_quoted (doubleQuoted w ++ rest) rest.toList double
      (Lexer.quoted_escaped visible) (by simp [doubleQuoted])
    rwa [String.ofList_toList] at read
  · intro noLine noQuote
    have single : ({} : Lexer.Settings).escapeOf? '\'' = some (.text "\x00") := rfl
    have read := startsWith_quoted (singleQuoted w ++ rest) rest.toList single
      (Lexer.quoted_plain visible noLine noQuote) (by simp [singleQuoted])
    rwa [String.ofList_toList] at read

/-- A text that ends in backslashes and a quote, and one with a backslash in front of the closing
quote. -/
theorem startsWith_quotation_backslashes :
    StartsWith ("\"a\\n\\\"b\\\\\\\\\\\"\"" ++ "\"+1")
      (⟨.string, "\"", "a\n\"b\\\\\""⟩, "\"a\\n\\\"b\\\\\\\\\\\"\"") ['"', '+', '1']
    ∧ StartsWith ("'\"\\'" ++ "x'") (⟨.string, "'", "\"\\"⟩, "'\"\\'") ['x', '\''] := by
  have double := (startsWith_quotation "a\n\"b\\\\\"" "\"+1" (by decide)).1
  have single := (startsWith_quotation "\"\\" "x'" (by decide)).2 (by decide) (by decide)
  rw [show doubleQuoted "a\n\"b\\\\\"" = "\"a\\n\\\"b\\\\\\\\\\\"\"" by decide] at double
  rw [show singleQuoted "\"\\" = "'\"\\'" by decide] at single
  exact ⟨double, single⟩

end TokenStream

end Formula
