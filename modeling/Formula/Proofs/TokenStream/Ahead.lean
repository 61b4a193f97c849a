import Formula.Proofs.Lexer.Earlier
import Formula.Proofs.Lexer.Shape

/-! The tokens ahead. A token stream over a text without problems is a list of tokens, with a mark
past the last of them, whatever was looked at before and whatever problems were found by others. -/
namespace Formula

namespace Lexer

def forget (l : Lexer) : Lexer := { l with reader := { l.reader with problems := [] } }

/-- The lexer reads these tokens without a problem and then comes to the end of the text, for which
the mark stands. -/
def Supplies (mark : Token) : List Token → Lexer → Prop
  | [], l => ∃ l', l.next = (.ok none, l') ∧ l'.reader.problems = [] ∧ l'.endToken = mark
  | t :: ts, l => ∃ l', l.next = (.ok (some t), l') ∧ l'.reader.problems = [] ∧ Supplies mark ts l'

theorem isLexeme_of_supplies {ts : List Token} {mark : Token} {l : Lexer}
    (standard : l.settings = {}) (supplied : Supplies mark ts l) : ∀ t ∈ ts, IsLexeme t := by
  induction ts generalizing l with
  | nil => exact List.forall_mem_nil _
  | cons t ts ih =>
    obtain ⟨l', read, _, others⟩ := supplied
    obtain ⟨r, scanned, rfl⟩ := next_eq_token read
    have lexeme : IsLexeme t := scan_isLexeme (standard ▸ scanned)
    refine List.forall_mem_cons.mpr ⟨lexeme, ih ?_ others⟩
    exact standard

theorem broken_of_next {l l' : Lexer} {t : Option Token} (h : l.next = (.ok t, l')) :
    l'.reader.broken = none := by
  unfold next at h
  generalize scan l.settings l.reader = out at h
  obtain ⟨out, r⟩ := out
  cases broken : r.broken with
  | none =>
    simp only [Reader.settle, broken] at h
    obtain ⟨rfl, rfl⟩ := Prod.mk.inj h
    exact broken
  | some c => simp [Reader.settle, broken] at h

theorem withEarlier_forget {l : Lexer} (h : l.reader.broken = none) :
    l.forget.withEarlier l.reader.problems = l := by
  obtain ⟨⟨⟨rest, last, problems⟩, ending, ahead, ended, broken⟩, settings, started, warnings⟩ := l
  cases h
  simp [forget, withEarlier, Reader.withEarlier]

theorem next_of_forget {l l' : Lexer} {t : Option Token} (whole : l.reader.broken = none)
    (h : l.forget.next = (.ok t, l')) :
    l.next = (.ok t, l'.withEarlier l.reader.problems) := by
  have same := next_withEarlier l.reader.problems l.forget
  rw [withEarlier_forget whole] at same
  rw [same, h]

theorem problems_of_next {l l' : Lexer} {t : Option Token} (whole : l.reader.broken = none)
    (h : l.next = (.ok t, l')) : l.reader.problems <+: l'.reader.problems := by
  have same := next_withEarlier l.reader.problems l.forget
  rw [withEarlier_forget whole, h] at same
  rw [(Prod.mk.inj same).2]
  exact List.prefix_append _ _

theorem forget_withEarlier {ps : List Problem} {l : Lexer} (whole : l.reader.broken = none)
    (clean : l.reader.problems = []) : (l.withEarlier ps).forget = l := by
  obtain ⟨⟨⟨rest, last, problems⟩, ending, ahead, ended, broken⟩, settings, started, warnings⟩ := l
  cases whole
  cases clean
  rfl

end Lexer

namespace TokenStream

/-- The tokens that are still to come from a stream, and the mark past the last of them. -/
inductive Ahead (mark : Token) (s : TokenStream) : List Token → Prop
  | ended (ended : s.ended = true) (same : s.endMark.getD s.source.endToken = mark) :
      Ahead mark s s.buffer
  | more {later : List Token} (notEnded : s.ended = false) (unmarked : s.endMark = none)
      (whole : s.source.reader.broken = none)
      (supplied : Lexer.Supplies mark later s.source.forget) :
      Ahead mark s (s.buffer ++ later)

namespace Ahead

variable {mark : Token} {s : TokenStream} {ts : List Token}

theorem fetch_end (unmarked : s.endMark = none) (whole : s.source.reader.broken = none)
    (supplied : Lexer.Supplies mark [] s.source.forget) :
    ∃ l : Lexer, Feed.fetch s.source = (.ok none, l) ∧ l.reader.problems = s.problems
      ∧ ∀ buffer, Ahead mark { s with source := l, buffer := buffer, ended := true } buffer := by
  obtain ⟨l', read, clean, same⟩ := supplied
  refine ⟨_, Lexer.next_of_forget whole read, ?_, fun buffer => .ended rfl ?_⟩
  · simp [problems, Lexer.withEarlier, Reader.withEarlier, clean]
  · rw [unmarked]
    exact same

theorem fetch_token {t : Token} {later : List Token} (notEnded : s.ended = false)
    (unmarked : s.endMark = none) (whole : s.source.reader.broken = none)
    (supplied : Lexer.Supplies mark (t :: later) s.source.forget) :
    ∃ l : Lexer, Feed.fetch s.source = (.ok (some t), l) ∧ l.reader.problems = s.problems
      ∧ ∀ buffer, Ahead mark { s with source := l, buffer := buffer } (buffer ++ later) := by
  obtain ⟨l', read, clean, rest⟩ := supplied
  have still := Lexer.broken_of_next read
  refine ⟨_, Lexer.next_of_forget whole read, ?_, fun buffer => .more notEnded unmarked ?_ ?_⟩
  · simp [problems, Lexer.withEarlier, Reader.withEarlier, clean]
  · simp [Lexer.withEarlier, Reader.withEarlier, still]
  · rwa [Lexer.forget_withEarlier still clean]

theorem fill (h : Ahead mark s ts) (n : Nat) :
    ∃ s' : TokenStream, Lookahead.fill n s = .ok () s' ∧ Ahead mark s' ts
      ∧ s'.problems = s.problems ∧ s'.buffer = ts.take (s.buffer.length + n)
      ∧ (s'.ended = true ∨ s.buffer.length + n ≤ s'.buffer.length) := by
  induction n generalizing s with
  | zero =>
    refine ⟨s, rfl, h, rfl, ?_, .inr (Nat.le_refl _)⟩
    cases h <;> simp
  | succ n ih =>
    -- At the end nothing is fetched; before it, the next token or else the end.
    cases h with
    | ended ended same =>
      refine ⟨s, by simp [Lookahead.fill, ended], .ended ended same, rfl, ?_, .inl ended⟩
      rw [List.take_of_length_le (by omega)]
    | @more later notEnded unmarked whole supplied =>
      cases later with
      | nil =>
        obtain ⟨l, read, found, ahead⟩ := fetch_end unmarked whole supplied
        rw [List.append_nil]
        refine ⟨_, by simp only [Lookahead.fill, notEnded, read]; rfl, ahead s.buffer, found,
          ?_, .inl rfl⟩
        rw [List.take_of_length_le (by omega)]
      | cons t later =>
        obtain ⟨l, read, found, ahead⟩ := fetch_token notEnded unmarked whole supplied
        have more := ahead (s.buffer ++ [t])
        rw [List.append_assoc] at more
        obtain ⟨s', run, ahead', found', buffer, enough⟩ := ih more
        refine ⟨s', ?_, ahead', found'.trans found, ?_, ?_⟩
        · simpa [Lookahead.fill, notEnded, read] using run
        · rw [buffer]
          simp [Nat.add_assoc, Nat.add_comm 1 n]
        · simpa [Nat.add_assoc, Nat.add_comm 1 n] using enough

theorem markAtEnd (h : Ahead mark s ts) (ended : s.ended = true) :
    ∃ s' : TokenStream, Lookahead.mark s = .ok mark s' ∧ Ahead mark s' ts
      ∧ s'.problems = s.problems := by
  cases h with
  | ended _ same =>
    cases made : s.endMark with
    | some m =>
      obtain rfl : m = mark := by simpa [made] using same
      exact ⟨s, by simp [Lookahead.mark, made], .ended ended (by simp [made]), rfl⟩
    | none =>
      obtain rfl : s.source.endToken = mark := by simpa [made] using same
      exact ⟨{ s with endMark := some s.source.endToken },
        by simp [Lookahead.mark, made, Feed.endMark],
        .ended ended rfl, rfl⟩
  | more notEnded => simp [notEnded] at ended

theorem at? (h : Ahead mark s ts) (n : Nat) :
    ∃ s' : TokenStream, Lookahead.at? n s = .ok (ts.getD n mark) s' ∧ Ahead mark s' ts
      ∧ s'.problems = s.problems := by
  obtain ⟨s', run, ahead, found, buffer, enough⟩ := h.fill (n + 1 - s.buffer.length)
  have item : s'.buffer[n]? = ts[n]? := by
    rw [buffer, List.getElem?_take]
    exact if_pos (by omega)
  cases ht : ts[n]? with
  | some t =>
    refine ⟨s', ?_, ahead, found⟩
    simp [Lookahead.at?, run, item, ht, List.getD_eq_getElem?_getD]
  | none =>
    have short : s'.buffer.length ≤ n := List.getElem?_eq_none_iff.mp (item.trans ht)
    have ended : s'.ended = true := enough.resolve_right (by omega)
    obtain ⟨s'', marked, ahead', same⟩ := ahead.markAtEnd ended
    refine ⟨s'', ?_, ahead', same.trans found⟩
    simp [Lookahead.at?, run, item, ht, List.getD_eq_getElem?_getD, marked]

theorem drop (h : Ahead mark s ts) :
    ∃ s' : TokenStream, Lookahead.drop 1 s = .ok () s' ∧ Ahead mark s' ts.tail
      ∧ s'.problems = s.problems := by
  cases buffered : s.buffer with
  | cons t rest =>
    refine ⟨{ s with buffer := rest }, by simp [Lookahead.drop, buffered], ?_, rfl⟩
    cases h with
    | ended ended same =>
      rw [buffered]
      exact .ended ended same
    | more notEnded unmarked whole supplied =>
      rw [buffered]
      exact .more notEnded unmarked whole supplied
  | nil =>
    cases h with
    | ended ended same =>
      refine ⟨s, by simp [Lookahead.drop, buffered, ended], ?_, rfl⟩
      simpa [buffered] using Ahead.ended ended same
    | @more later notEnded unmarked whole supplied =>
      cases later with
      | nil =>
        obtain ⟨l, read, found, ahead⟩ := fetch_end unmarked whole supplied
        refine ⟨{ s with source := l, ended := true }, ?_,
          by simpa [buffered] using ahead [], found⟩
        simp [Lookahead.drop, buffered, notEnded, read]
      | cons t later =>
        obtain ⟨l, read, found, ahead⟩ := fetch_token notEnded unmarked whole supplied
        refine ⟨{ s with source := l }, ?_, by simpa [buffered] using ahead [], found⟩
        simp [Lookahead.drop, buffered, notEnded, read]

theorem report (h : Ahead mark s ts) (p : Problem) :
    Ahead mark (s.mapLexer (·.report p)) ts := by
  cases h with
  | ended ended same => exact .ended ended same
  | more notEnded unmarked whole supplied => exact .more notEnded unmarked whole supplied

theorem length_le (h : Ahead mark s ts) :
    ts.length ≤ s.buffer.length + s.source.reader.rest.length := by
  have supplied_length {l : Lexer} (ts : List Token) (h : Lexer.Supplies mark ts l) :
      ts.length ≤ l.reader.rest.length := by
    induction ts generalizing l with
    | nil => exact Nat.zero_le _
    | cons t ts ih =>
      obtain ⟨l', read, _, rest⟩ := h
      exact Nat.lt_of_le_of_lt (ih rest) (Lexer.next_length read)
  cases h with
  | ended => exact Nat.le_add_right _ _
  | @more later _ _ _ supplied =>
    have short : later.length ≤ s.source.forget.reader.rest.length := supplied_length later supplied
    simp only [Lexer.forget] at short
    rw [List.length_append]
    omega

end Ahead

theorem consume_fresh (l : Lexer) :
    (consume : EStateM Fault TokenStream Token) { source := l } = match l.next with
      | (.ok (some t), l') => .ok t { source := l' }
      | (.ok none, l') =>
        .ok l'.endToken { source := l', ended := true, endMark := some l'.endToken }
      | (.error f, l') => .error f { source := l' } := by
  generalize h : l.next = out
  obtain ⟨out, l'⟩ := out
  have fetched : Feed.fetch l = (out, l') := h
  rcases out with f | _ | t <;>
    simp [consume, current, Lookahead.current, Lookahead.at?, Lookahead.fill, fetched,
      Lookahead.drop, Lookahead.mark, Feed.endMark, bind, EStateM.bind, pure, EStateM.pure]

theorem supplies_of_tokensWithin (n : Nat) {l : Lexer} (whole : l.reader.broken = none)
    {ts : List Token} {mark : Token}
    {s : TokenStream} (isEnd : mark.isEnd)
    (run : tokensWithin n { source := l } = .ok (ts ++ [mark]) s)
    (clean : s.problems = []) : l.reader.problems = [] ∧ Lexer.Supplies mark ts l := by
  induction n generalizing l ts with
  | zero =>
    simp only [tokensWithin] at run
    cases ts <;> cases run
  | succ n ih =>
    simp only [tokensWithin, bind, EStateM.bind, consume_fresh] at run
    generalize h : l.next = out at run
    obtain ⟨out, l'⟩ := out
    rcases out with f | _ | t
    · simp at run
    · have ended : l'.endToken.isEnd = true := rfl
      simp only [ended, if_true] at run
      have single : [l'.endToken] = ts ++ [mark] := by injection run
      have found : l'.reader.problems = [] := by
        injection run with _ same
        simpa [problems, ← same] using clean
      obtain ⟨rfl, same⟩ := List.append_inj' ((List.nil_append _).trans single) rfl
      simp only [List.cons.injEq, and_true] at same
      exact ⟨List.prefix_nil.mp (found ▸ Lexer.problems_of_next whole h), l', h, found, same⟩
    · obtain ⟨r, read, rfl⟩ := Lexer.next_eq_token h
      have notEnd := Lexer.scan_notEnd read
      simp only [notEnd, Bool.false_eq_true, if_false, EStateM.bind] at run
      split at run
      · rename_i us s' more
        cases ts with
        | nil =>
          injection run with all _
          obtain ⟨rfl, _⟩ := List.cons.inj all
          simp [notEnd] at isEnd
        | cons u ts =>
          injection run with all same
          obtain ⟨rfl, rfl⟩ := List.cons.inj all
          obtain ⟨found, rest⟩ := ih (Lexer.broken_of_next h) (same ▸ more)
          exact ⟨List.prefix_nil.mp (found ▸ Lexer.problems_of_next whole h), _, h, found, rest⟩
      · cases run

/-- All tokens of a text with the mark past the last of them, and the problems found in it, unless
its source breaks. -/
def lexed (src : Source) : Option (List Token × List Problem) :=
  match (ofSource src).tokens with
  | .ok ts s => some (ts, s.problems)
  | .error _ _ => none

theorem lexed_eq {src : Source} {ts : List Token} {s : TokenStream}
    (run : (ofSource src).tokens = .ok ts s) :
    lexed src = some (ts, s.problems) := by
  unfold lexed
  rw [run]

theorem tokens_eq (s : TokenStream) :
    tokens s = tokensWithin (s.buffer.length + s.source.reader.rest.length + 1) s := rfl

theorem supplies_of_lexed {src : Source} {ts : List Token} {mark : Token} (isEnd : mark.isEnd)
    (h : lexed src = some (ts ++ [mark], [])) :
    Lexer.Supplies mark ts { reader := .ofSource src } ∧ ∀ t ∈ ts, Lexer.IsLexeme t := by
  unfold lexed at h
  split at h
  · rename_i all s run
    obtain ⟨rfl, clean⟩ := Prod.mk.inj (Option.some.inj h)
    rw [tokens_eq] at run
    obtain ⟨_, supplied⟩ := supplies_of_tokensWithin _ rfl isEnd run clean
    exact ⟨supplied, Lexer.isLexeme_of_supplies rfl supplied⟩
  · cases h

theorem ahead_of_lexed {src : Source} {ts : List Token} {mark : Token} (isEnd : mark.isEnd)
    (h : lexed src = some (ts ++ [mark], [])) :
    Ahead mark (ofSource src) ts ∧ ∀ t ∈ ts, Lexer.IsLexeme t := by
  obtain ⟨supplied, lexemes⟩ := supplies_of_lexed isEnd h
  exact ⟨.more rfl rfl rfl supplied, lexemes⟩

end TokenStream

end Formula
