import Formula.Proofs.Lexer.Skipping
import Formula.Proofs.TokenStream.Ahead

/-! Reading a text word by word. A text that consists of words is read without a problem, and the
tokens that are read say the words. -/
namespace Formula

open Lexer (Word Reads Reaches Supplies)

namespace Lexer

variable {cs rest : List Char} {words : List Word} {l : Lexer}

/-- The tokens of a text that consists of words say the words. -/
theorem supplies_of_reaches (reaches : Reaches cs words rest)
    (ended : rest.getD 0 endMark = endMark)
    (standard : l.settings = {}) (stands : l.reader.Stands cs []) :
    ∃ ts mark, Supplies mark ts l ∧ mark.isEnd ∧ ts.map Token.word = words := by
  induction reaches generalizing l with
  | done gap =>
    obtain ⟨r, read, stands'⟩ := scan_end gap ended stands
    let l' : Lexer := { l with reader := r, started := true }
    have last : l.next = (.ok none, l') := next_of_scan (standard.symm ▸ read) stands'.whole
    exact ⟨[], l'.endToken, ⟨l', last, stands'.problems, rfl⟩, rfl, rfl⟩
  | word gap starts spells more ih =>
    obtain ⟨t, r, read, stands', rfl⟩ := scan_word gap starts spells stands
    let l' : Lexer := { l with reader := r, started := true }
    obtain ⟨ts, mark, supplied, isEnd, said⟩ := ih (l := l') ended standard stands'
    have first : l.next = (.ok (some t), l') := next_of_scan (standard.symm ▸ read) stands'.whole
    exact ⟨t :: ts, mark, ⟨l', first, stands'.problems, supplied⟩, isEnd,
      congrArg (t.word :: ·) said⟩

end Lexer

namespace TokenStream

theorem isLexeme_of_ahead {src : Source} {ts : List Token} {mark : Token}
    (ahead : Ahead mark (ofSource src) ts) :
    ∀ t ∈ ts, Lexer.IsLexeme t := by
  generalize same : ofSource src = s at ahead
  cases ahead with
  | ended ended =>
    subst same
    cases ended
  | more _ _ _ supplied =>
    subst same
    exact Lexer.isLexeme_of_supplies rfl supplied

theorem ahead_of_reads {text : String} {words : List Word} (reads : Reads text.toList words) :
    ∃ ts mark, Ahead mark (ofSource (.ofString text)) ts ∧ mark.isEnd ∧
      ts.map Token.word = words := by
  obtain ⟨rest, reaches, ended⟩ := reads
  let l : Lexer := { reader := .ofSource (.ofString text) }
  obtain ⟨ts, mark, supplied, isEnd, said⟩ :=
    Lexer.supplies_of_reaches (l := l) reaches ended rfl ⟨rfl, rfl, rfl, rfl⟩
  exact ⟨ts, mark, .more rfl rfl rfl supplied, isEnd, said⟩

end TokenStream

end Formula
