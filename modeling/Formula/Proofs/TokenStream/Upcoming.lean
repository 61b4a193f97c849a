import Formula.Proofs.TokenStream.Coming

/-! The tokens that a stream has before it, up to the end of the text or up to the place where its
source breaks. Nothing is assumed of the source: what was looked at and consumed is one of these
tokens, and a look that fails does so for the source alone. -/
namespace Formula

namespace Lexer

/-- The lexer reads these tokens, and no other one after them: the text ends there, or its source
breaks. -/
def Offers : List Token → Lexer → Prop
  | [], l => ∀ t l', l.forget.next ≠ (.ok (some t), l')
  | t :: ts, l => t.isEnd = false ∧ ∃ l', l.forget.next = (.ok (some t), l') ∧ Offers ts l'

variable {l l' : Lexer} {t : Token} {ts : List Token} {f : Fault}

theorem next_eq_forget (whole : l.reader.broken = none) :
    l.next = (l.forget.next.1, l.forget.next.2.withEarlier l.reader.problems) := by
  rw [← next_withEarlier, withEarlier_forget whole]

theorem eq_brokenSource_of_next (standard : l.settings = {}) (h : l.next = (.error f, l')) :
    f = .brokenSource := by
  obtain ⟨t, r, read, _⟩ := scan_succeeds (r := l.reader)
  unfold next at h
  rw [standard, read] at h
  cases broken : r.broken with
  | none => simp [Reader.settle, broken] at h
  | some c =>
    simp only [Reader.settle, broken] at h
    exact (Except.error.inj (Prod.mk.inj h).1).symm

theorem settings_of_next {out : Except Fault (Option Token)} (h : l.next = (out, l')) :
    l'.settings = l.settings := by
  unfold next at h
  dsimp only at h
  split at h <;> exact (congrArg (·.settings) (Prod.mk.inj h).2).symm

namespace Offers

theorem of_forget (same : l.forget = l'.forget) (h : Offers ts l) : Offers ts l' := by
  cases ts with
  | nil =>
    unfold Offers at h ⊢
    rwa [← same]
  | cons t ts =>
    unfold Offers at h ⊢
    rwa [← same]

theorem next (h : Offers ts l) (whole : l.reader.broken = none)
    (read : l.next = (.ok (some t), l')) :
    ∃ later, ts = t :: later ∧ t.isEnd = false ∧ l'.reader.broken = none ∧ Offers later l' := by
  rw [next_eq_forget whole] at read
  generalize asked : l.forget.next = out at read
  obtain ⟨out, l''⟩ := out
  obtain ⟨rfl, rfl⟩ := Prod.mk.inj read
  cases ts with
  | nil => exact absurd asked (h t l'')
  | cons u later =>
    obtain ⟨notEnd, l', read', more⟩ := h
    obtain ⟨rfl, rfl⟩ : t = u ∧ l'' = l' := by simpa [asked] using read'
    have still := broken_of_next asked
    refine ⟨later, rfl, notEnd, ?_, ?_⟩
    · simp [withEarlier, Reader.withEarlier, still]
    · exact more.of_forget (forget_forget_withEarlier still).symm

theorem stop (h : Offers ts l) (whole : l.reader.broken = none) (read : l.next = (.ok none, l')) :
    ts = [] := by
  cases ts with
  | nil => rfl
  | cons u later =>
    obtain ⟨_, l'', read', _⟩ := h
    rw [next_eq_forget whole, read'] at read
    cases (Prod.mk.inj read).1

theorem unique {us : List Token} (h : Offers ts l) (h' : Offers us l) : ts = us := by
  induction ts generalizing us l with
  | nil =>
    cases us with
    | nil => rfl
    | cons u us =>
      obtain ⟨_, l', read, _⟩ := h'
      exact absurd read (h u l')
  | cons t ts ih =>
    obtain ⟨_, l', read, more⟩ := h
    cases us with
    | nil => exact absurd read (h' t l')
    | cons u us =>
      obtain ⟨_, l'', read', more'⟩ := h'
      obtain ⟨rfl, rfl⟩ : t = u ∧ l' = l'' := by simpa [read] using read'
      rw [ih more more']

end Offers

theorem exists_offers (standard : l.settings = {}) : ∃ ts, Offers ts l := by
  -- each token leaves less to read
  induction length : l.reader.rest.length using Nat.strongRecOn generalizing l with
  | _ n ih =>
    cases read : l.forget.next with
    | mk out l' =>
      rcases out with f | _ | t
      · exact ⟨[], fun t l'' same => nomatch read.symm.trans same⟩
      · exact ⟨[], fun t l'' same => nomatch read.symm.trans same⟩
      · obtain ⟨r, scanned, _⟩ := next_eq_token read
        have lexeme : IsLexeme t := scan_isLexeme (standard ▸ scanned)
        have shorter : l'.reader.rest.length < l.forget.reader.rest.length := next_length read
        obtain ⟨ts, offers⟩ := ih _ (length ▸ shorter) ((settings_of_next read).trans standard) rfl
        exact ⟨t :: ts, lexeme.notEnd, l', read, offers⟩

end Lexer

namespace TokenStream

open Lookahead (Looks Breaks Found)

/-- These are the tokens that the stream can still give. -/
structure Upcoming (s : TokenStream) (ts : List Token) : Prop where
  standard : s.source.settings = {}
  tokens : ∀ t ∈ s.buffer, t.isEnd = false
  mark : ∀ m, s.endMark = some m → m.isEnd
  split : ∃ later, ts = s.buffer ++ later ∧ (s.ended = true → later = [])
    ∧ (s.ended = false → s.source.reader.broken = none ∧ Lexer.Offers later s.source)

theorem exists_upcoming (src : Source) : ∃ ts, Upcoming (ofSource src) ts := by
  obtain ⟨ts, offers⟩ := Lexer.exists_offers (l := (ofSource src).source) rfl
  exact ⟨ts, rfl, nofun, nofun, ts, rfl, nofun, fun _ => ⟨rfl, offers⟩⟩

namespace Upcoming

variable {s s' : TokenStream} {t : Token} {ts : List Token} {n : Nat} {f : Fault}

theorem iff (h : Upcoming s ts) (us : List Token) : Upcoming s us ↔ us = ts := by
  constructor
  · intro h'
    obtain ⟨later, rfl, none, more⟩ := h.split
    obtain ⟨later', rfl, none', more'⟩ := h'.split
    cases ended : s.ended with
    | true => rw [none ended, none' ended]
    | false => rw [(more ended).2.unique (more' ended).2]
  · rintro rfl
    exact h

theorem report (h : Upcoming s ts) (p : Problem) : Upcoming (s.mapLexer (·.report p)) ts := by
  obtain ⟨later, split, none, more⟩ := h.split
  have same : s.source.forget = (s.source.report p).forget := rfl
  refine ⟨h.standard, h.tokens, h.mark, later, split, none, fun notEnded => ?_⟩
  obtain ⟨whole, offers⟩ := more notEnded
  exact ⟨whole, offers.of_forget same⟩

theorem looks (h : Upcoming s ts) (looks : Looks s s') : Upcoming s' ts := by
  -- By induction on the looks: each fetches a token, shows the end, or makes the mark.
  induction looks with
  | none => exact h
  | @item s s' t l notEnded fetched rest ih =>
    have read : s.source.next = (.ok (some t), l) := fetched
    obtain ⟨later, split, none, more⟩ := h.split
    obtain ⟨whole, offers⟩ := more notEnded
    obtain ⟨later, rfl, isToken, still, offers'⟩ := offers.next whole read
    apply ih
    refine ⟨(Lexer.settings_of_next read).trans h.standard, ?_, h.mark, later,
      by simp [split], ?_, ?_⟩
    · exact List.forall_mem_append.mpr ⟨h.tokens, List.forall_mem_singleton.mpr isToken⟩
    · exact fun ended => nomatch notEnded.symm.trans ended
    · exact fun _ => ⟨still, offers'⟩
  | @stop s s' l notEnded fetched rest ih =>
    have read : s.source.next = (.ok none, l) := fetched
    obtain ⟨later, split, none, more⟩ := h.split
    obtain ⟨whole, offers⟩ := more notEnded
    apply ih
    exact ⟨(Lexer.settings_of_next read).trans h.standard, h.tokens, h.mark, later, split,
      fun _ => offers.stop whole read, nofun⟩
  | mark ended unmarked rest ih =>
    obtain ⟨later, split, none, more⟩ := h.split
    apply ih
    exact ⟨h.standard, h.tokens, fun m made => Option.some.inj made ▸ rfl, later, split, none, more⟩

theorem isFirst_of_found (h : Upcoming s ts) (found : Found n t s) : IsFirst t (ts.drop n) := by
  obtain ⟨later, rfl, none, more⟩ := h.split
  cases found with
  | waits here =>
    obtain ⟨inside, rfl⟩ := List.getElem?_eq_some_iff.mp here
    rw [List.drop_append_of_le_length (Nat.le_of_lt inside), List.drop_eq_getElem_cons inside]
    rfl
  | mark ended made short =>
    rw [none ended, List.append_nil, List.drop_of_length_le short]
    exact h.mark t made

theorem eq_brokenSource (h : Upcoming s ts) (breaks : Breaks s f) : f = .brokenSource := by
  obtain ⟨s', l, looks, _, fetched⟩ := breaks
  have failed : s'.source.next = (.error f, l) := fetched
  exact Lexer.eq_brokenSource_of_next (h.looks looks).standard failed

theorem at? (h : Upcoming s ts) (run : Lookahead.at? n s = .ok t s') :
    Upcoming s' ts ∧ IsFirst t (ts.drop n) := by
  obtain ⟨looks, found⟩ := Lookahead.found_at? run
  have upcoming := h.looks looks
  exact ⟨upcoming, upcoming.isFirst_of_found found⟩

theorem consume (h : Upcoming s ts) (run : TokenStream.consume s = .ok t s') :
    Upcoming s' ts.tail ∧ IsFirst t ts := by
  obtain ⟨s₁, looked, rfl⟩ := consume_ok run
  obtain ⟨looks, found⟩ := Lookahead.found_at? looked
  have upcoming := h.looks looks
  have first : IsFirst t ts := upcoming.isFirst_of_found found
  refine ⟨?_, first⟩
  obtain ⟨later, rfl, none, more⟩ := upcoming.split
  cases buffered : s₁.buffer with
  | cons u rest =>
    have tokens : ∀ v ∈ u :: rest, v.isEnd = false := buffered ▸ upcoming.tokens
    exact ⟨upcoming.standard, fun v hv => tokens v (List.mem_cons_of_mem u hv), upcoming.mark,
      later, rfl, none, more⟩
  | nil =>
    cases found with
    | waits here => simp [buffered] at here
    | mark ended made short =>
      rw [none ended]
      exact ⟨upcoming.standard, nofun, upcoming.mark, [], rfl, fun _ => rfl,
        fun notEnded => nomatch notEnded.symm.trans ended⟩

end Upcoming

end TokenStream

end Formula
