import Formula.Proofs.Expr.Terms
import Formula.Proofs.Lexer.Spelling

/-! The words of a term. What is written for a term is read word by word: no two words run into each
other, and nothing that is written starts a comment. -/
namespace Formula

open Lexer Number
open Text (isDigit isLetter isBlank isControl)

namespace Lexer

/-- A word that ends in front of the characters. -/
def Delimits (rest : List Char) : Prop := rest.getD 0 endMark ∈ [endMark, ' ', ')', ',', '(']

/-- Wherever they are delimited, the characters are read as the words. -/
def Says (cs : List Char) (words : List Word) : Prop :=
  ∀ rest, Delimits rest → Reaches (cs ++ rest) words rest

theorem startsWord_of {c : Char} {cs : List Char} (visible : c ≠ endMark)
    (noBlank : isBlank c = false) (noSlash : c ≠ '/') : StartsWord (c :: cs) :=
  ⟨visible, noBlank, fun slash => absurd slash noSlash⟩

theorem says_digits (d : Digits) : Says d.chars [⟨.integer, "", String.ofList d.chars⟩] := by
  intro rest delimits
  obtain ⟨c, cs, same, digit⟩ := d.head
  have plain := plainDigit digit
  have starts : StartsWord (d.chars ++ rest) := by
    rw [same]
    refine startsWord_of ?_ plain.noBlank fun slash => plain.other (by simp [slash])
    rintro rfl
    exact absurd plain.isDigit (by decide)
  have reads {cs : List Char} (plain : ∀ c ∈ cs, isAsciiDigit c) :
      Lexer.Numeral .integer cs .integer cs := by
    induction cs with
    | nil => exact .done
    | cons c cs ih =>
      exact .digit (plainDigit (plain c List.mem_cons_self)).isDigit
        (ih fun d hd => plain d (List.mem_cons_of_mem c hd))
  have stop : ({} : Settings).continuesNumber rest = false := by
    have none : ∀ c ∈ [endMark, ' ', ')', ',', '('], isDigit c = false ∧ c ∉ ['.', '_', 'e', 'E'] :=
      forall_mem_of_all (by decide)
    obtain ⟨noDigit, other⟩ := none _ delimits
    simp only [List.mem_cons, List.not_mem_nil, or_false, not_or] at other
    simp only [Settings.continuesNumber, noDigit, isDecimalSeparator_standard,
      isGroupingSeparator_standard, isExponentSeparator_standard, other]
    rfl
  refine .single starts (.number (.inl ?_) (reads d.plain) stop)
  rw [same]
  exact plain.isDigit

theorem plainLetter {c : Char} (h : ('A' ≤ c ∧ c ≤ 'Z') ∨ ('a' ≤ c ∧ c ≤ 'z')) :
    isLetter c ∧ isDigit c = false ∧ isBlank c = false ∧ c ≠ endMark ∧ c ≠ '/' := by
  have range : (65 ≤ c.toNat ∧ c.toNat ≤ 90) ∨ (97 ≤ c.toNat ∧ c.toNat ≤ 122) := h
  have same : c = Char.ofNat c.toNat := (Char.ofNat_toNat c).symm
  generalize c.toNat = n at range same
  subst same
  have all : ∀ n ≤ 122, (65 ≤ n ∧ n ≤ 90) ∨ 97 ≤ n → isLetter (Char.ofNat n)
      ∧ isDigit (Char.ofNat n) = false ∧ isBlank (Char.ofNat n) = false
      ∧ Char.ofNat n ≠ endMark ∧ Char.ofNat n ≠ '/' := by
    decide +kernel
  exact all n (by omega) (by omega)

theorem says_identifier (n : Identifier) : Says n.chars [⟨.identifier, "", n.text⟩] := by
  intro rest delimits
  have stop : isNameChar (rest.getD 0 endMark) = false := by
    have none : ∀ c ∈ [endMark, ' ', ')', ',', '('], isNameChar c = false :=
      forall_mem_of_all (by decide)
    exact none _ delimits
  obtain ⟨letter, noDigit, noBlank, visible, noSlash⟩ := plainLetter n.letter
  exact .single (startsWord_of visible noBlank noSlash) (.name letter noDigit n.names stop)

def symbolStarts : List (Char × Char) :=
  [('+', ' '), ('-', ' '), ('*', ' '), ('/', ' '), ('%', ' '), ('^', ' '), ('<', ' '), ('<', '='),
    ('=', ' '), ('>', '='), ('>', ' '), ('!', '='), ('&', '&'), ('|', '|'), (',', ' ')]

theorem startsSymbol_of_mem {c d : Char} (h : (c, d) ∈ symbolStarts) (rest : List Char) :
    StartsWord (c :: d :: rest) ∧ StartsSymbol c (d :: rest) := by
  have all : ∀ q ∈ symbolStarts, (q.1 ≠ endMark ∧ isBlank q.1 = false ∧ (q.1 = '/' → q.2 = ' '))
      ∧ (isDigit q.1 = false ∧ q.1 ≠ '.' ∧ (q.1 = '-' → q.2 = ' ')) ∧ isLetter q.1 = false
      ∧ (({} : Settings).escapeOf? q.1).isNone ∧ ({} : Settings).isBracket q.1 = false
      ∧ (q.1 = '|' → q.2 = '|') ∧ isControl q.1 = false :=
    forall_mem_of_all (by decide +kernel)
  obtain ⟨⟨visible, noBlank, slash⟩, ⟨noDigit, noPoint, minus⟩, noLetter, noDelimiter,
    noBracket, noBar, noControl⟩ := all (c, d) h
  have noNumber : ({} : Settings).startsNumber (c :: d :: rest) = false := by
    by_cases sign : c = '-'
    · obtain ⟨rfl, rfl⟩ := And.intro sign (minus sign)
      simp [startsNumber_eq, show isDigit '-' = false by decide, show isDigit ' ' = false by decide]
    · exact startsNumber_of_ne noDigit sign noPoint
  refine ⟨⟨visible, noBlank, fun is => ?_⟩,
    ⟨noNumber, noLetter, Option.isNone_iff_eq_none.mp noDelimiter, noBracket, noBar, noControl⟩⟩
  obtain rfl : d = ' ' := slash is
  exact ⟨show ' ' ≠ '/' by decide, show ' ' ≠ '*' by decide⟩

theorem reaches_single {c : Char} (h : (c, ' ') ∈ symbolStarts) (rest : List Char) :
    Reaches (c :: ' ' :: rest) [⟨.symbol, String.singleton c, ""⟩] (' ' :: rest) := by
  obtain ⟨starts, symbol⟩ := startsSymbol_of_mem h rest
  have single : joins c ' ' = false := by
    have all : ∀ q ∈ symbolStarts, joins q.1 ' ' = false := forall_mem_of_all (by decide)
    exact all _ h
  exact .single (w := [c]) starts (.symbol symbol single)

theorem reaches_double {c d : Char} (h : (c, d) ∈ symbolStarts) (joined : joins c d)
    (rest : List Char) :
    Reaches (c :: d :: rest) [⟨.symbol, String.ofList [c, d], ""⟩] rest := by
  obtain ⟨starts, symbol⟩ := startsSymbol_of_mem h rest
  exact .single (w := [c, d]) starts (.double symbol joined)

def operatorWord (op : Operator) : Word := ⟨.symbol, op.symbol, ""⟩

theorem reaches_operator (op : Operator) (rest : List Char) :
    Reaches (op.symbol.toList ++ ' ' :: rest) [operatorWord op] (' ' :: rest) := by
  cases op with
  | add | subtract | multiply | divide | modulo | power | less | equal | greater =>
    exact reaches_single (by decide) rest
  | lessEqual | greaterEqual | notEqual | and | or =>
    exact reaches_double (by decide) (by decide) (' ' :: rest)

theorem reaches_bracket {c : Char} (h : c ∈ ['(', ')']) (rest : List Char) :
    Reaches (c :: rest) [⟨.symbol, String.singleton c, String.singleton c⟩] rest := by
  have all : ∀ c ∈ ['(', ')'], c ≠ endMark ∧ isBlank c = false ∧ c ≠ '/'
      ∧ ({} : Settings).isBracket c :=
    forall_mem_of_all (by decide)
  obtain ⟨visible, noBlank, noSlash, is⟩ := all c h
  exact .single (w := [c]) (startsWord_of visible noBlank noSlash) (.bracket is)

theorem Reaches.blank {rest : List Char} : Reaches (' ' :: rest) [] rest :=
  .done (.blank (by decide) .none)

def enclosedWords (needed : Bool) (words : List Word) : List Word :=
  if needed then ⟨.symbol, "(", "("⟩ :: (words ++ [⟨.symbol, ")", ")"⟩]) else words

theorem Says.enclosed {cs : List Char} {words : List Word} (plain : Says cs words) (needed : Bool) :
    Says (Term.enclosed needed cs) (enclosedWords needed words) := by
  intro rest delimits
  cases needed with
  | false => exact plain rest delimits
  | true =>
    have inner := plain (')' :: rest) (show ')' ∈ _ by simp)
    have all := (reaches_bracket (c := '(') (by simp) _).trans
      (inner.trans (reaches_bracket (c := ')') (by simp) rest))
    simpa [Term.enclosed, enclosedWords] using all

theorem Says.operation {cs ds : List Char} {words words' : List Word} (left : Says cs words)
    (right : Says ds words') (op : Operator) :
    Says (cs ++ ' ' :: (op.symbol.toList ++ ' ' :: ds)) (words ++ operatorWord op :: words') := by
  intro rest delimits
  have before := left (' ' :: (op.symbol.toList ++ ' ' :: (ds ++ rest))) (show ' ' ∈ _ by simp)
  have symbol := Reaches.blank.trans (reaches_operator op (ds ++ rest))
  have all := before.trans (symbol.trans (Reaches.blank.trans (right rest delimits)))
  simpa using all

end Lexer

namespace Term

mutual

def words : Term → List Word
  | .literal d => [⟨.integer, "", String.ofList d.chars⟩]
  | .name n => [⟨.identifier, "", n.text⟩]
  | .binary op l r => enclosedWords (l.isBelow op.priority) l.words
      ++ operatorWord op :: enclosedWords (r.isBelow (op.priority + 1)) r.words
  | .call n args => ⟨.identifier, "", n.text⟩ :: ⟨.symbol, "(", "("⟩ :: (wordsFirst args
      ++ [⟨.symbol, ")", ")"⟩])

def wordsFirst : List Term → List Word
  | [] => []
  | a :: rest => a.words ++ wordsNext rest

def wordsNext : List Term → List Word
  | [] => []
  | a :: rest => ⟨.symbol, ",", ""⟩ :: (a.words ++ wordsNext rest)

end

theorem delimits_next (args : List Term) {rest : List Char} (closes : rest.getD 0 endMark = ')') :
    Delimits (renderNext args ++ rest) := by
  cases args with
  | nil =>
    change rest.getD 0 endMark ∈ _
    rw [closes]
    simp
  | cons a args => exact (show ',' ∈ _ by simp)

mutual

theorem says_words : ∀ t : Term, Says t.render t.words
  | .literal d => says_digits d
  | .name n => says_identifier n
  | .binary op l r => (l.says_words.enclosed _).operation (r.says_words.enclosed _) op
  | .call n args => by
    intro rest delimits
    have name := says_identifier n ('(' :: (renderFirst args ++ ')' :: rest)) (show '(' ∈ _ by simp)
    have opening := reaches_bracket (c := '(') (by simp) (renderFirst args ++ ')' :: rest)
    have closing := reaches_bracket (c := ')') (by simp) rest
    have all := name.trans (opening.trans ((saysFirst args (')' :: rest) (by simp)).trans closing))
    simpa [render, words] using all

theorem saysFirst : ∀ (args : List Term) (rest : List Char), rest.getD 0 endMark = ')' →
    Reaches (renderFirst args ++ rest) (wordsFirst args) rest
  | [], rest, _ => .done .none
  | a :: args, rest, closes => by
    have head := a.says_words (renderNext args ++ rest) (delimits_next args closes)
    simpa [renderFirst, wordsFirst] using head.trans (saysNext args rest closes)

theorem saysNext : ∀ (args : List Term) (rest : List Char), rest.getD 0 endMark = ')' →
    Reaches (renderNext args ++ rest) (wordsNext args) rest
  | [], rest, _ => .done .none
  | a :: args, rest, closes => by
    have comma := reaches_single (c := ',') (by decide) (a.render ++ (renderNext args ++ rest))
    have head := a.says_words (renderNext args ++ rest) (delimits_next args closes)
    have all := comma.trans (Reaches.blank.trans (head.trans (saysNext args rest closes)))
    simpa [renderNext, wordsNext] using all

end

/-- What is written for a term is its words and nothing else. -/
theorem reads_words (t : Term) : Lexer.Reads t.render t.words :=
  ⟨[], by simpa using t.says_words [] (show endMark ∈ _ by simp), rfl⟩

end Term

end Formula
