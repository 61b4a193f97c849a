import Formula.TokenStream

/-! What looking at an item does to a stream. Items are fetched until there are enough of them in
the buffer or the source shows its end, and behind the last one stands a mark that is made once. -/
namespace Formula.Lookahead

variable {σ α : Type} [Feed σ α] {s s' s'' : Lookahead σ α} {a : α} {n : Nat} {f : Fault}

/-- A stream comes from another one by looking ahead. -/
inductive Looks : Lookahead σ α → Lookahead σ α → Prop
  | none {s : Lookahead σ α} : Looks s s
  | item {s s' : Lookahead σ α} {a : α} {l : σ} (more : s.ended = false)
      (fetched : Feed.fetch s.source = (.ok (some a), l))
      (rest : Looks { s with source := l, buffer := s.buffer ++ [a] } s') : Looks s s'
  | stop {s s' : Lookahead σ α} {l : σ} (more : s.ended = false)
      (fetched : Feed.fetch s.source = (.ok none, l))
      (rest : Looks { s with source := l, ended := true } s') : Looks s s'
  | mark {s s' : Lookahead σ α} (ended : s.ended = true) (unmarked : s.endMark = none)
      (rest : Looks { s with endMark := some (Feed.endMark s.source) } s') : Looks s s'

def Breaks (s : Lookahead σ α) (f : Fault) : Prop :=
  ∃ s' l, Looks s s' ∧ s'.ended = false ∧ Feed.fetch s'.source = (.error f, l)

/-- An item waits in the buffer, or else it is the mark behind all of them. -/
inductive Found (n : Nat) (a : α) (s : Lookahead σ α) : Prop
  | waits (here : s.buffer[n]? = some a)
  | mark (ended : s.ended = true) (made : s.endMark = some a) (short : s.buffer.length ≤ n)

theorem Looks.trans (first : Looks s s') (second : Looks s' s'') : Looks s s'' := by
  induction first with
  | none => exact second
  | item more fetched _ ih => exact .item more fetched (ih second)
  | stop more fetched _ ih => exact .stop more fetched (ih second)
  | mark ended unmarked _ ih => exact .mark ended unmarked (ih second)

theorem Breaks.after (looks : Looks s s') (h : Breaks s' f) : Breaks s f := by
  obtain ⟨s'', l, later, more, failed⟩ := h
  exact ⟨s'', l, looks.trans later, more, failed⟩

theorem looks_fill (run : fill n s = .ok () s') :
    Looks s s' ∧ (s'.ended = true ∨ s.buffer.length + n ≤ s'.buffer.length) := by
  -- By induction on the items to fetch; the end or a fault stops it early.
  induction n generalizing s with
  | zero =>
    cases run
    exact ⟨.none, .inr (Nat.le_refl _)⟩
  | succ n ih =>
    cases ended : s.ended with
    | true =>
      simp only [fill, ended, if_true] at run
      cases run
      exact ⟨.none, .inl ended⟩
    | false =>
      rw [fill, if_neg (ne_true_of_eq_false ended)] at run
      split at run
      · rename_i a l fetched
        obtain ⟨looks, enough⟩ := ih run
        refine ⟨.item ended fetched looks, ?_⟩
        simpa [Nat.add_assoc, Nat.add_comm 1 n] using enough
      · rename_i l fetched
        cases run
        exact ⟨.stop ended fetched .none, .inl rfl⟩
      · cases run

theorem breaks_of_fill (run : fill n s = .error f s') : Breaks s f := by
  induction n generalizing s with
  | zero => cases run
  | succ n ih =>
    cases ended : s.ended with
    | true => simp [fill, ended] at run
    | false =>
      rw [fill, if_neg (ne_true_of_eq_false ended)] at run
      split at run
      · rename_i a l fetched
        exact (ih run).after (.item ended fetched .none)
      · cases run
      · rename_i f' l fetched
        cases run
        exact ⟨s, l, .none, ended, fetched⟩

theorem found_mark (run : mark s = .ok a s') (ended : s.ended = true)
    (short : s.buffer.length ≤ n) :
    Looks s s' ∧ Found n a s' := by
  unfold mark at run
  split at run
  · rename_i m made
    cases run
    exact ⟨.none, .mark ended made short⟩
  · rename_i unmarked
    cases run
    exact ⟨.mark ended unmarked .none, .mark ended rfl short⟩

theorem found_at? (run : at? n s = .ok a s') : Looks s s' ∧ Found n a s' := by
  unfold at? at run
  split at run
  · cases run
  · rename_i s₁ filled
    obtain ⟨looks, enough⟩ := looks_fill filled
    split at run
    · rename_i b waits
      cases run
      exact ⟨looks, .waits waits⟩
    · rename_i nothing
      have short : s₁.buffer.length ≤ n := List.getElem?_eq_none_iff.mp nothing
      have ended : s₁.ended = true := enough.resolve_right (by omega)
      obtain ⟨marks, found⟩ := found_mark run ended short
      exact ⟨looks.trans marks, found⟩

theorem breaks_of_at? (run : at? n s = .error f s') : Breaks s f := by
  unfold at? at run
  split at run
  · rename_i f' s₁ filled
    cases run
    exact breaks_of_fill filled
  · split at run
    · cases run
    · unfold mark at run
      split at run <;> cases run

/-- Once the current item was looked at, dropping it fetches nothing. Behind the last item nothing
is dropped. -/
theorem drop_of_found (found : Found 0 a s) :
    drop 1 s = .ok () { s with buffer := s.buffer.tail } := by
  obtain ⟨source, buffer, ended, endMark⟩ := s
  cases buffer with
  | cons b rest => rfl
  | nil =>
    cases found with
    | waits here => cases here
    | mark isEnded made short =>
      obtain rfl : ended = true := isEnded
      rfl

end Formula.Lookahead

namespace Formula.TokenStream

open Lookahead (Looks Found Breaks)

variable {s s' : TokenStream} {t : Token} {f : Fault}

theorem consume_ok (run : consume s = .ok t s') :
    ∃ s₁, current s = .ok t s₁ ∧ s' = { s₁ with buffer := s₁.buffer.tail } := by
  simp only [consume, bind, EStateM.bind] at run
  cases looked : current s with
  | error f s₁ => simp [looked] at run
  | ok u s₁ =>
    simp only [looked, Lookahead.drop_of_found (Lookahead.found_at? looked).2] at run
    cases run
    exact ⟨s₁, rfl, rfl⟩

theorem breaks_of_consume (run : consume s = .error f s') : Breaks s f := by
  simp only [consume, bind, EStateM.bind] at run
  cases looked : current s with
  | error f' s₁ =>
    simp only [looked] at run
    cases run
    exact Lookahead.breaks_of_at? looked
  | ok u s₁ =>
    simp only [looked, Lookahead.drop_of_found (Lookahead.found_at? looked).2] at run
    cases run

end Formula.TokenStream
