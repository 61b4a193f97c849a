import Formula.Proofs.Lexer.Progress
import Formula.Proofs.Lookahead
import Formula.Proofs.TokenStream.Ahead

/-! The tokens that are still to come from a stream, however malformed what they make up: they may
wait in the buffer, whatever they are, or the lexer may yet have to read them. Unlike with the
tokens ahead of a text without problems, nothing is said about problems here. -/
namespace Formula

namespace Lexer

/-- The lexer reads these tokens, whatever it has to say of them, and then comes to the end of the
text. -/
def Gives : List Token → Lexer → Prop
  | [], l => ∃ l', l.forget.next = (.ok none, l')
  | t :: ts, l => t.isEnd = false ∧ ∃ l', l.forget.next = (.ok (some t), l') ∧ Gives ts l'

variable {l l' : Lexer} {ts : List Token}

theorem Gives.of_forget (same : l.forget = l'.forget) (h : Gives ts l) : Gives ts l' := by
  cases ts with
  | nil =>
    unfold Gives at h ⊢
    rwa [← same]
  | cons t ts =>
    unfold Gives at h ⊢
    rwa [← same]

theorem forget_forget_withEarlier {ps : List Problem} (whole : l.reader.broken = none) :
    (l.withEarlier ps).forget = l.forget := by
  obtain ⟨⟨⟨rest, last, problems⟩, ending, ahead, ended, broken⟩, settings, started, warnings⟩ := l
  cases whole
  rfl

theorem Gives.next_none (h : Gives [] l) (whole : l.reader.broken = none) :
    ∃ l', l.next = (.ok none, l') := by
  obtain ⟨l', read⟩ := h
  exact ⟨_, next_of_forget whole read⟩

theorem Gives.next_some {t : Token} (h : Gives (t :: ts) l) (whole : l.reader.broken = none) :
    ∃ l', l.next = (.ok (some t), l') ∧ l'.reader.broken = none ∧ Gives ts l' := by
  obtain ⟨_, l', read, more⟩ := h
  have still := broken_of_next read
  refine ⟨_, next_of_forget whole read, ?_, ?_⟩
  · simp [withEarlier, Reader.withEarlier, still]
  · exact more.of_forget (forget_forget_withEarlier still).symm

theorem Gives.length_le (h : Gives ts l) : ts.length ≤ l.reader.rest.length := by
  induction ts generalizing l with
  | nil => exact Nat.zero_le _
  | cons t ts ih =>
    obtain ⟨_, l', read, more⟩ := h
    have shorter : l'.reader.rest.length < l.forget.reader.rest.length := next_length read
    exact Nat.lt_of_le_of_lt (ih more) shorter

theorem Gives.unique {us : List Token} (h : Gives ts l) (h' : Gives us l) : ts = us := by
  induction ts generalizing us l with
  | nil =>
    obtain ⟨l', read⟩ := h
    cases us with
    | nil => rfl
    | cons u us =>
      obtain ⟨_, l'', read', _⟩ := h'
      simp [read] at read'
  | cons t ts ih =>
    obtain ⟨_, l', read, more⟩ := h
    cases us with
    | nil =>
      obtain ⟨l'', read'⟩ := h'
      simp [read] at read'
    | cons u us =>
      obtain ⟨_, l'', read', more'⟩ := h'
      obtain ⟨rfl, rfl⟩ : t = u ∧ l' = l'' := by simpa [read] using read'
      rw [ih more more']

theorem exists_gives (standard : l.settings = {}) (steady : l.reader.ending ≠ .breaking)
    (whole : l.reader.broken = none) : ∃ ts, Gives ts l ∧ ∀ t ∈ ts, IsLexeme t := by
  induction length : l.reader.rest.length using Nat.strongRecOn generalizing l with
  | _ n ih =>
    obtain ⟨t, r, read, steady', whole', next⟩ :=
      next_succeeds (l := l.forget) standard steady whole
    cases t with
    | none => exact ⟨[], ⟨_, next⟩, nofun⟩
    | some t =>
      have lexeme := scan_isLexeme read
      have shorter : r.rest.length < l.forget.reader.rest.length := next_length next
      obtain ⟨ts, gives, lexemes⟩ := ih r.rest.length (length ▸ shorter)
        (l := { l.forget with reader := r, started := true }) standard steady' whole' rfl
      exact ⟨t :: ts, ⟨lexeme.notEnd, _, next, gives⟩, List.forall_mem_cons.mpr ⟨lexeme, lexemes⟩⟩

end Lexer

namespace TokenStream

open Lookahead (Looks Breaks Found)

inductive Fetches (s : TokenStream) : List Token → Prop
  | ended (ended : s.ended = true) : Fetches s []
  | more {later : List Token} (notEnded : s.ended = false) (whole : s.source.reader.broken = none)
      (gives : Lexer.Gives later s.source) : Fetches s later

/-- These tokens are still to come from the stream, and after them its end. -/
structure Coming (s : TokenStream) (ts : List Token) : Prop where
  tokens : ∀ t ∈ s.buffer, t.isEnd = false
  mark : ∀ m, s.endMark = some m → m.isEnd
  split : ∃ later, ts = s.buffer ++ later ∧ Fetches s later

theorem coming_of_ended {s : TokenStream} (ended : s.ended = true) (unmarked : s.endMark = none)
    (tokens : ∀ t ∈ s.buffer, t.isEnd = false) : Coming s s.buffer := by
  refine ⟨tokens, fun m made => ?_, [], (List.append_nil _).symm, .ended ended⟩
  rw [unmarked] at made
  cases made

theorem coming_ofSource {src : Source} (steady : src.ending ≠ .breaking) :
    ∃ ts, Coming (ofSource src) ts ∧ ∀ t ∈ ts, Lexer.IsLexeme t := by
  obtain ⟨ts, gives, lexemes⟩ := Lexer.exists_gives (l := (ofSource src).source) rfl steady rfl
  exact ⟨ts, ⟨nofun, nofun, ts, rfl, .more rfl rfl gives⟩, lexemes⟩

def IsFirst (t : Token) : List Token → Prop
  | [] => t.isEnd
  | u :: _ => t = u

namespace Coming

variable {s s' : TokenStream} {t : Token} {ts : List Token} {n : Nat}

theorem length_le (h : Coming s ts) :
    ts.length ≤ s.buffer.length + s.source.reader.rest.length := by
  obtain ⟨later, rfl, fetches⟩ := h.split
  rw [List.length_append]
  cases fetches with
  | ended => exact Nat.le_add_right _ _
  | more _ _ gives => exact Nat.add_le_add_left gives.length_le _

/-- A stream determines what is to come from it. -/
theorem iff (h : Coming s ts) (us : List Token) : Coming s us ↔ us = ts := by
  constructor
  · intro h'
    obtain ⟨later, rfl, fetches⟩ := h.split
    obtain ⟨later', rfl, fetches'⟩ := h'.split
    cases fetches with
    | ended ended =>
      cases fetches' with
      | ended => rfl
      | more notEnded => simp [ended] at notEnded
    | more notEnded _ gives =>
      cases fetches' with
      | ended ended => simp [notEnded] at ended
      | more _ _ gives' => rw [gives.unique gives']
  · rintro rfl
    exact h

theorem report (h : Coming s ts) (p : Problem) : Coming (s.mapLexer (·.report p)) ts := by
  obtain ⟨later, split, fetches⟩ := h.split
  have same : s.source.forget = (s.source.report p).forget := rfl
  refine ⟨h.tokens, h.mark, later, split, ?_⟩
  cases fetches with
  | ended ended => exact .ended ended
  | more notEnded whole gives => exact .more notEnded whole (gives.of_forget same)

theorem looks (h : Coming s ts) (looks : Looks s s') : Coming s' ts := by
  -- By induction on the looks: each fetches a token, shows the end, or makes the mark.
  induction looks with
  | none => exact h
  | @item s s' t l more fetched rest ih =>
    have read : s.source.next = (.ok (some t), l) := fetched
    obtain ⟨later, split, fetches⟩ := h.split
    apply ih
    cases fetches with
    | ended ended => simp [more] at ended
    | more _ whole gives =>
      cases later with
      | nil =>
        obtain ⟨l', none⟩ := gives.next_none whole
        simp [none] at read
      | cons u later =>
        obtain ⟨l', next, still, gives'⟩ := gives.next_some whole
        obtain ⟨rfl, rfl⟩ : u = t ∧ l' = l := by simpa [next] using read
        have isToken : ∀ v ∈ s.buffer ++ [u], v.isEnd = false :=
          List.forall_mem_append.mpr ⟨h.tokens, List.forall_mem_singleton.mpr gives.1⟩
        exact ⟨isToken, h.mark, later, by simp [split], .more more still gives'⟩
  | @stop s s' l more fetched rest ih =>
    have read : s.source.next = (.ok none, l) := fetched
    obtain ⟨later, split, fetches⟩ := h.split
    apply ih
    cases fetches with
    | ended ended => simp [more] at ended
    | more _ whole gives =>
      cases later with
      | nil => exact ⟨h.tokens, h.mark, [], split, .ended rfl⟩
      | cons u later =>
        obtain ⟨l', next, _⟩ := gives.next_some whole
        simp [next] at read
  | @mark s s' ended unmarked rest ih =>
    obtain ⟨later, split, fetches⟩ := h.split
    apply ih
    refine ⟨h.tokens, fun m made => Option.some.inj made ▸ rfl, later, split, ?_⟩
    cases fetches with
    | ended _ => exact .ended ended
    | more notEnded => simp [notEnded] at ended

theorem not_breaks (h : Coming s ts) (f : Fault) : ¬ Breaks s f := by
  rintro ⟨s', l, looks, more, fetched⟩
  have failed : s'.source.next = (.error f, l) := fetched
  obtain ⟨later, _, fetches⟩ := (h.looks looks).split
  cases fetches with
  | ended ended => simp [more] at ended
  | more _ whole gives =>
    cases later with
    | nil =>
      obtain ⟨l', read⟩ := gives.next_none whole
      simp [read] at failed
    | cons t later =>
      obtain ⟨l', read, _⟩ := gives.next_some whole
      simp [read] at failed

theorem isFirst_of_found (h : Coming s ts) (found : Found n t s) : IsFirst t (ts.drop n) := by
  obtain ⟨later, rfl, fetches⟩ := h.split
  cases found with
  | waits here =>
    obtain ⟨inside, rfl⟩ := List.getElem?_eq_some_iff.mp here
    rw [List.drop_append_of_le_length (Nat.le_of_lt inside), List.drop_eq_getElem_cons inside]
    rfl
  | mark ended made short =>
    cases fetches with
    | ended =>
      rw [List.append_nil, List.drop_of_length_le short]
      exact h.mark t made
    | more notEnded => simp [notEnded] at ended

theorem at? (h : Coming s ts) (n : Nat) :
    ∃ t s', Lookahead.at? n s = .ok t s' ∧ Coming s' ts ∧ IsFirst t (ts.drop n) ∧ Found n t s' := by
  cases run : Lookahead.at? n s with
  | error f s' => exact absurd (Lookahead.breaks_of_at? run) (h.not_breaks f)
  | ok t s' =>
    obtain ⟨looks, found⟩ := Lookahead.found_at? run
    have coming := h.looks looks
    exact ⟨t, s', rfl, coming, coming.isFirst_of_found found, found⟩

theorem consume (h : Coming s ts) :
    ∃ t s', TokenStream.consume s = .ok t s' ∧ Coming s' ts.tail ∧ IsFirst t ts := by
  cases run : TokenStream.consume s with
  | error f s' => exact absurd (breaks_of_consume run) (h.not_breaks f)
  | ok t s' =>
    obtain ⟨s₁, looked, rfl⟩ := consume_ok run
    obtain ⟨_, _, again, coming, first, found⟩ := h.at? 0
    obtain ⟨rfl, rfl⟩ := EStateM.Result.ok.inj (looked.symm.trans again)
    refine ⟨t, _, rfl, ?_, first⟩
    obtain ⟨later, rfl, fetches⟩ := coming.split
    cases buffered : s₁.buffer with
    | cons u rest =>
      have tokens : ∀ v ∈ u :: rest, v.isEnd = false := buffered ▸ coming.tokens
      refine ⟨fun v hv => tokens v (List.mem_cons_of_mem u hv), coming.mark, later, rfl, ?_⟩
      cases fetches with
      | ended ended => exact .ended ended
      | more notEnded whole gives => exact .more notEnded whole gives
    | nil =>
      cases found with
      | waits here => simp [buffered] at here
      | mark ended made short =>
        cases fetches with
        | ended => exact ⟨nofun, coming.mark, [], rfl, .ended ended⟩
        | more notEnded => simp [notEnded] at ended

end Coming

end TokenStream

end Formula
