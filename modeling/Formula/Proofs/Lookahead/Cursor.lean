import Mathlib.Logic.Function.Iterate
import Formula.Lookahead

/-! A stream as a list with a cursor. Whatever was looked at or consumed before, the calls on a
stream over a finite source return what a cursor in the list of all items shows. The source is asked
for an item only if a call needs that item or a later one, and not again once it has shown its
end. -/
namespace Formula

namespace Feed

variable {σ α : Type} [Feed σ α] {s : σ} {items : List α}

def asked (s : σ) (n : Nat) : σ := (fun s => (fetch s).2)^[n] s

/-- The source is finite: whenever it is asked it hands out the next of the items, and at last it
shows its end. -/
inductive Supplies : σ → List α → Prop
  | stop {s s' : σ} (shown : fetch s = (.ok none, s')) : Supplies s []
  | item {s s' : σ} {a : α} {items : List α} (handed : fetch s = (.ok (some a), s'))
      (rest : Supplies s' items) :
      Supplies s (a :: items)

theorem asked_succ (s : σ) (n : Nat) : asked s (n + 1) = asked (fetch s).2 n := rfl

theorem Supplies.fetch_asked (h : Supplies s items) {n : Nat} (bound : n ≤ items.length) :
    fetch (asked s n) = (.ok items[n]?, asked s (n + 1)) := by
  induction h generalizing n with
  | @stop s s' shown =>
    obtain rfl : n = 0 := Nat.le_zero.mp bound
    rw [asked_succ, shown]
    exact shown
  | @item s s' a items handed _ ih =>
    cases n with
    | zero =>
      rw [asked_succ, handed]
      exact handed
    | succ n =>
      rw [asked_succ, asked_succ, handed]
      exact ih (Nat.le_of_succ_le_succ bound)

end Feed

namespace Lookahead

inductive Call where
  | peek (offset : Int)
  | current
  | next (offset : Int)
  | consume (count : Int)

namespace Call

variable {σ α : Type} [Feed σ α]

def run : Call → EStateM Fault (Lookahead σ α) α
  | peek offset | next offset => Lookahead.peek offset
  | current => Lookahead.current
  | consume count => Lookahead.consume count

def outcome (call : Call) (l : Lookahead σ α) : Except Fault α × Lookahead σ α :=
  match call.run l with
  | .ok a l => (.ok a, l)
  | .error f l => (.error f, l)

/-- The place of the item that is returned, where the cursor is at the place `c`. -/
def place? (c : Nat) : Call → Except Fault Nat
  | peek offset | next offset =>
    if offset < 0 then .error .negativeOffset else .ok (c + offset.toNat)
  | current => .ok c
  | consume count => if count < 0 then .error .negativeCount else .ok c

/-- How far the cursor moves, if there are enough items. -/
def count : Call → Nat
  | consume count => count.toNat
  | _ => 0

/-- How many items the call needs, from the first one of the list on. -/
def needs (c : Nat) (call : Call) : Nat :=
  match call.place? c with
  | .ok i => max (i + 1) (c + call.count)
  | .error _ => 0

def isPast (length c : Nat) (call : Call) : Bool :=
  match call.place? c with
  | .ok i => length ≤ i
  | .error _ => false

end Call

structure Progress where
  place : Nat := 0
  /-- How many items were needed so far, where more than there are stands for the end. -/
  needed : Nat := 0
  marked : Bool := false

namespace Progress

def after (length : Nat) (p : Progress) (call : Call) : Progress :=
  { place := min (p.place + call.count) length
    needed := max p.needed (call.needs p.place)
    marked := p.marked || call.isPast length p.place }

def afterAll (length : Nat) (calls : List Call) : Progress := calls.foldl (after length) {}

/-- What the calls return for a list, from some progress on. -/
def answers {α : Type} (items : List α) (mark : α) : Progress → List Call → List (Except Fault α)
  | _, [] => []
  | p, call :: rest =>
    (call.place? p.place).map (items.getD · mark) :: answers items mark
      (p.after items.length call) rest

end Progress

variable {σ α : Type} [Feed σ α]

/-- What the calls return one after another, and the stream after all of them. A call that fails is
followed by the next one. -/
def outcomes : List Call → Lookahead σ α → List (Except Fault α) × Lookahead σ α
  | [], l => ([], l)
  | call :: rest, l =>
    let (first, l) := call.outcome l
    let (others, l) := outcomes rest l
    (first :: others, l)

def marksMade : List Call → Lookahead σ α → Nat
  | [], _ => 0
  | call :: rest, l =>
    let l' := (call.outcome l).2
    (if l.endMark.isNone ∧ l'.endMark.isSome then 1 else 0) + marksMade rest l'

/-- The stream is what the progress in the list makes of it. -/
structure Tracks (start : σ) (items : List α) (c needed : Nat) (l : Lookahead σ α) : Prop where
  source : l.source = Feed.asked start (min needed (items.length + 1))
  buffer : l.buffer = (items.take needed).drop c
  ended : l.ended = decide (items.length < needed)
  inside : c ≤ items.length
  passed : c ≤ needed

namespace Tracks

variable {start : σ} {items : List α} {c n m k : Nat} {l : Lookahead σ α}

theorem past (h : Tracks start items c n l) (past : items.length < n) (past' : items.length < m) :
    Tracks start items c m l := by
  obtain ⟨source, buffer, ended, inside, _⟩ := h
  constructor
  · rw [source, Nat.min_eq_right past, Nat.min_eq_right past']
  · rw [buffer, List.take_of_length_le (Nat.le_of_lt past),
      List.take_of_length_le (Nat.le_of_lt past')]
  · rw [ended, decide_eq_true past, decide_eq_true past']
  · exact inside
  · omega

theorem length_buffer (h : Tracks start items c n l) :
    l.buffer.length = min n items.length - c := by
  rw [h.buffer, List.length_drop, List.length_take]

theorem item (h : Tracks start items c n l) (supplied : Feed.Supplies start items)
    (more : n < items.length) :
    ∃ s, Feed.fetch l.source = (.ok (some items[n]), s) ∧
      Tracks start items c (n + 1) { l with source := s, buffer := l.buffer ++ [items[n]] } := by
  have read := supplied.fetch_asked (Nat.le_of_lt more)
  have here : l.source = Feed.asked start n := by
    rw [h.source, Nat.min_eq_left (by omega)]
  rw [← here, List.getElem?_eq_getElem more] at read
  refine ⟨_, read, ?_⟩
  constructor
  · rw [Nat.min_eq_left (by omega)]
  · have reach : c ≤ (items.take n).length := by
      have := h.passed
      rw [List.length_take]
      omega
    rw [h.buffer, List.take_succ_eq_append_getElem more, List.drop_append_of_le_length reach]
  · rw [h.ended, decide_eq_false (by omega), decide_eq_false (by omega)]
  · exact h.inside
  · exact Nat.le_succ_of_le h.passed

theorem stop (h : Tracks start items c items.length l) (supplied : Feed.Supplies start items) :
    ∃ s, Feed.fetch l.source = (.ok none, s) ∧
      Tracks start items c (items.length + 1) { l with source := s, ended := true } := by
  have read := supplied.fetch_asked (Nat.le_refl _)
  have here : l.source = Feed.asked start items.length := by
    rw [h.source, Nat.min_eq_left (by omega)]
  rw [← here, List.getElem?_eq_none (Nat.le_refl _)] at read
  refine ⟨_, read, ?_⟩
  constructor
  · rw [Nat.min_self]
  · rw [h.buffer, List.take_of_length_le (Nat.le_refl _), List.take_of_length_le (by omega)]
  · simp
  · exact h.inside
  · exact Nat.le_succ_of_le h.passed

theorem tail (h : Tracks start items c n l) {a : α} {rest : List α} (waits : l.buffer = a :: rest) :
    Tracks start items (c + 1) n { l with buffer := rest } := by
  have some := h.length_buffer
  rw [waits, List.length_cons] at some
  constructor
  · exact h.source
  · rw [← List.drop_drop, ← h.buffer, waits]
    rfl
  · exact h.ended
  · omega
  · omega

theorem fill (supplied : Feed.Supplies start items) (k : Nat) (h : Tracks start items c n l) :
    ∃ l', Lookahead.fill k l = .ok () l' ∧ Tracks start items c (n + k) l' ∧
      l'.endMark = l.endMark := by
  induction k generalizing n l with
  | zero => exact ⟨l, rfl, h, rfl⟩
  | succ k ih =>
    rcases Nat.lt_trichotomy n items.length with more | rfl | past
    · have goesOn : l.ended = false := h.ended.trans (decide_eq_false (by omega))
      obtain ⟨s, read, next⟩ := h.item supplied more
      obtain ⟨l', run, tracks, same⟩ := ih next
      refine ⟨l', ?_, by rwa [Nat.add_right_comm n 1 k] at tracks, same⟩
      rw [Lookahead.fill, if_neg (ne_true_of_eq_false goesOn), read]
      exact run
    · have goesOn : l.ended = false := h.ended.trans (decide_eq_false (Nat.lt_irrefl _))
      obtain ⟨s, read, next⟩ := h.stop supplied
      refine ⟨_, ?_, next.past (by omega) (by omega), rfl⟩
      rw [Lookahead.fill, if_neg (ne_true_of_eq_false goesOn), read]
    · have ended : l.ended = true := h.ended.trans (decide_eq_true past)
      refine ⟨l, ?_, h.past past (by omega), rfl⟩
      rw [Lookahead.fill, ended, if_pos rfl]

theorem skip (h : Tracks start items c n l) (supplied : Feed.Supplies start items)
    (empty : l.buffer = []) (more : n < items.length) :
    ∃ s, Feed.fetch l.source = (.ok (some items[n]), s) ∧ Tracks start items (c + 1) (n + 1)
      { l with source := s } := by
  obtain ⟨s, read, next⟩ := h.item supplied more
  have waits : l.buffer ++ [items[n]] = [items[n]] := by rw [empty, List.nil_append]
  have given := next.tail waits
  rw [← empty] at given
  exact ⟨s, read, given⟩

theorem drop (supplied : Feed.Supplies start items) (k : Nat) (h : Tracks start items c n l) :
    ∃ l', Lookahead.drop k l = .ok () l' ∧
      Tracks start items (min (c + k) items.length)
        (max n (c + k)) l' ∧ l'.endMark = l.endMark := by
  induction k generalizing c n l with
  | zero =>
    refine ⟨l, rfl, ?_, rfl⟩
    rwa [Nat.add_zero, Nat.min_eq_left h.inside, Nat.max_eq_left h.passed]
  | succ k ih =>
    have inside := h.inside
    have passed := h.passed
    have length := h.length_buffer
    cases waits : l.buffer with
    | cons a rest =>
      obtain ⟨l', run, tracks, same⟩ := ih (h.tail waits)
      refine ⟨l', ?_, by rwa [Nat.add_right_comm] at tracks, same⟩
      rw [Lookahead.drop, waits]
      exact run
    | nil =>
      rw [waits, List.length_nil] at length
      rw [Lookahead.drop, waits]
      dsimp only
      -- With an empty buffer, `n` tells whether the source goes on, is about to end, or has ended.
      rcases Nat.lt_trichotomy n items.length with more | rfl | past
      · -- nothing waits, so the cursor stands where the source does
        obtain rfl : c = n := by omega
        have goesOn : l.ended = false := h.ended.trans (decide_eq_false (by omega))
        obtain ⟨s, read, next⟩ := h.skip supplied waits more
        obtain ⟨l', run, tracks, same⟩ := ih next
        rw [if_neg (ne_true_of_eq_false goesOn), read]
        refine ⟨l', ?_, ?_, same⟩
        · rw [waits] at run
          exact run
        · have there : max (c + 1) (c + 1 + k) = max c (c + (k + 1)) := by omega
          rwa [there, Nat.add_right_comm] at tracks
      · obtain rfl : c = items.length := by omega
        have goesOn : l.ended = false := h.ended.trans (decide_eq_false (Nat.lt_irrefl _))
        obtain ⟨s, read, next⟩ := h.stop supplied
        obtain ⟨l', run, tracks, same⟩ := ih next
        rw [if_neg (ne_true_of_eq_false goesOn), read]
        refine ⟨l', ?_, ?_, same⟩
        · rw [waits] at run
          exact run
        · have there : min (items.length + k) items.length =
              min (items.length + (k + 1)) items.length := by omega
          rw [there] at tracks
          exact tracks.past (by omega) (by omega)
      · have ended : l.ended = true := h.ended.trans (decide_eq_true past)
        obtain rfl : c = items.length := by omega
        rw [if_pos ended]
        refine ⟨l, rfl, ?_, rfl⟩
        rw [Nat.min_eq_right (by omega)]
        exact h.past past (by omega)

end Tracks

def lastMark (start : σ) (items : List α) : α := Feed.endMark (Feed.asked start (items.length + 1))

structure Follows (start : σ) (items : List α) (p : Progress) (l : Lookahead σ α) : Prop
    extends Tracks start items p.place p.needed l where
  mark : l.endMark = if p.marked then some (lastMark start items) else none

theorem Call.outcome_refused {call : Call} {c : Nat} {f : Fault}
    (refused : call.place? c = .error f) (l : Lookahead σ α) : call.outcome l = (.error f, l) := by
  cases call with
  | current => cases refused
  | peek k | next k =>
    simp only [place?] at refused
    split at refused
    · rename_i negative
      cases refused
      simp only [outcome, run, Lookahead.peek, if_pos negative]
      rfl
    · cases refused
  | consume k =>
    simp only [place?] at refused
    split at refused
    · rename_i negative
      cases refused
      simp only [outcome, run, Lookahead.consume, if_pos negative]
      rfl
    · cases refused

section Calls

variable {start : σ} {items : List α} {p : Progress} {l : Lookahead σ α}

theorem Follows.mark_end (h : Follows start items p l) (past : items.length < p.needed) :
    Lookahead.mark l = .ok (lastMark start items)
      { l with endMark := some (lastMark start items) } := by
  have ended : Feed.endMark l.source = lastMark start items := by
    rw [h.source, Nat.min_eq_right past]
    rfl
  have marks := h.mark
  obtain ⟨source, buffer, shown, endMark⟩ := l
  cases endMark with
  | none =>
    exact congrArg (fun m => EStateM.Result.ok m (Lookahead.mk source buffer shown (some m))) ended
  | some m =>
    cases marked : p.marked with
    | false => simp [marked] at marks
    | true =>
      obtain rfl : m = lastMark start items := by simpa [marked] using marks
      rfl

theorem Follows.at? (supplied : Feed.Supplies start items) (i : Nat) (h : Follows start items p l) :
    ∃ l', Lookahead.at? i l = .ok (items.getD (p.place + i) (lastMark start items)) l' ∧
      Follows start items { p with
        needed := max p.needed (p.place + i + 1)
        marked := p.marked || decide (items.length ≤ p.place + i) } l' := by
  have length := h.length_buffer
  obtain ⟨l₁, filled, tracks, same⟩ := h.toTracks.fill supplied (i + 1 - l.buffer.length)
  have enough : Tracks start items p.place (max p.needed (p.place + i + 1)) l₁ := by
    rcases Nat.lt_or_ge items.length p.needed with past | inside
    · exact tracks.past (by omega) (by omega)
    · have there : p.needed + (i + 1 - l.buffer.length) = max p.needed (p.place + i + 1) := by
        have := h.passed
        omega
      rwa [there] at tracks
  have found : l₁.buffer[i]? = items[p.place + i]? := by
    rw [enough.buffer, List.getElem?_drop, List.getElem?_take_of_lt (by omega)]
  simp only [Lookahead.at?, filled, found, List.getD_eq_getElem?_getD]
  -- Either there is an item at the place, or the end mark stands for it.
  rcases Nat.lt_or_ge (p.place + i) items.length with there | past
  · refine ⟨l₁, ?_, enough, ?_⟩
    · rw [List.getElem?_eq_getElem there]
      rfl
    · rw [same, h.mark, decide_eq_false (by omega), Bool.or_false]
  · have later : Follows start items { p with needed := max p.needed (p.place + i + 1) } l₁ :=
      ⟨enough, same.trans h.mark⟩
    refine ⟨{ l₁ with endMark := some (lastMark start items) }, ?_, ?_, ?_⟩
    · rw [List.getElem?_eq_none past]
      exact later.mark_end (Nat.lt_of_lt_of_le (by omega) (Nat.le_max_right _ _))
    · exact ⟨enough.source, enough.buffer, enough.ended, enough.inside, enough.passed⟩
    · rw [decide_eq_true past, Bool.or_true, if_pos rfl]

theorem Follows.look (supplied : Feed.Supplies start items) {call : Call} {i : Nat}
    (looks : (call.run : EStateM Fault (Lookahead σ α) α) = Lookahead.at? i)
    (there : call.place? p.place = .ok (p.place + i)) (stays : call.count = 0)
    (h : Follows start items p l) :
    ∃ l', call.outcome l = ((call.place? p.place).map (items.getD · (lastMark start items)), l') ∧
      Follows start items (p.after items.length call) l' := by
  obtain ⟨l', run, follows⟩ := h.at? supplied i
  have progress : p.after items.length call = { p with
      needed := max p.needed (p.place + i + 1)
      marked := p.marked || decide (items.length ≤ p.place + i) } := by
    simp only [Progress.after, Call.needs, Call.isPast, there, stays, Nat.add_zero,
      Nat.min_eq_left h.inside]
    rw [Nat.max_eq_left (a := p.place + i + 1) (by omega)]
  rw [progress, there]
  exact ⟨l', by rw [Call.outcome, looks, run]; rfl, follows⟩

theorem Follows.refused {call : Call} {f : Fault} (refused : call.place? p.place = .error f)
    (stays : call.count = 0) (h : Follows start items p l) :
    ∃ l', call.outcome l = ((call.place? p.place).map (items.getD · (lastMark start items)), l') ∧
      Follows start items (p.after items.length call) l' := by
  have progress : p.after items.length call = p := by
    simp only [Progress.after, Call.needs, Call.isPast, refused, stays, Nat.add_zero,
      Nat.min_eq_left h.inside, Nat.max_eq_left (Nat.zero_le p.needed), Bool.or_false]
  rw [progress, Call.outcome_refused refused, refused]
  exact ⟨l, rfl, h⟩

theorem Follows.consume (supplied : Feed.Supplies start items) {k : Int} (fits : ¬ k < 0)
    (h : Follows start items p l) :
    ∃ l', Lookahead.consume k l = .ok (items.getD p.place (lastMark start items)) l' ∧
      Follows start items (p.after items.length (.consume k)) l' := by
  obtain ⟨l₁, run, looked⟩ := h.at? supplied 0
  obtain ⟨l', dropped, tracks, same⟩ := looked.toTracks.drop supplied k.toNat
  have there : (Call.consume k).place? p.place = .ok p.place := if_neg fits
  have needed : max p.needed ((Call.consume k).needs p.place)
      = max (max p.needed (p.place + 1)) (p.place + k.toNat) := by
    simp only [Call.needs, there, Call.count]
    omega
  refine ⟨l', ?_, ?_, ?_⟩
  · simp only [Lookahead.consume, if_neg fits, Lookahead.current, bind, EStateM.bind, run, dropped]
    rfl
  · simp only [Progress.after, needed]
    exact tracks
  · simp only [Progress.after, Call.isPast, there, same]
    exact looked.mark

/-- One call: what it returns, and how far the list was read afterwards. -/
theorem Follows.outcome (supplied : Feed.Supplies start items) (call : Call)
    (h : Follows start items p l) :
    ∃ l', call.outcome l = ((call.place? p.place).map (items.getD · (lastMark start items)), l') ∧
      Follows start items (p.after items.length call) l' := by
  cases call with
  | current => exact h.look supplied rfl rfl rfl
  | peek k | next k =>
    by_cases negative : k < 0
    · exact h.refused (if_pos negative) rfl
    · exact h.look supplied (if_neg negative) (if_neg negative) rfl
  | consume k =>
    by_cases negative : k < 0
    · exact h.refused (if_pos negative) (Int.toNat_of_nonpos (Int.le_of_lt negative))
    · obtain ⟨l', run, follows⟩ := h.consume supplied negative
      have there : (Call.consume k).place? p.place = .ok p.place := if_neg negative
      exact ⟨l', by rw [Call.outcome, Call.run, run, there]; rfl, follows⟩

/-- The mark is made by the first call that finds nothing at its place, and not again. -/
theorem Follows.made {call : Call} {l' : Lookahead σ α} (h : Follows start items p l)
    (h' : Follows start items (p.after items.length call) l') :
    (if p.marked then 1 else 0) + (if l.endMark.isNone ∧ l'.endMark.isSome then 1 else 0)
      = if (p.after items.length call).marked then 1 else 0 := by
  have before := h.mark
  have behind := h'.mark
  cases marked : p.marked with
  | true =>
    have still : (p.after items.length call).marked = true := by simp [Progress.after, marked]
    simp [before, marked, still]
  | false =>
    cases still : (p.after items.length call).marked <;> simp [before, behind, marked, still]

theorem Follows.outcomes (supplied : Feed.Supplies start items) (calls : List Call)
    (h : Follows start items p l) :
    ∃ l', Lookahead.outcomes calls l = (p.answers items (lastMark start items) calls, l') ∧
      Follows start items (calls.foldl (Progress.after items.length) p) l' ∧
      (if p.marked then 1 else 0) + marksMade calls l
        = if (calls.foldl (Progress.after items.length) p).marked then 1 else 0 := by
  induction calls generalizing p l with
  | nil => exact ⟨l, rfl, h, rfl⟩
  | cons call calls ih =>
    obtain ⟨l₁, first, follows⟩ := h.outcome supplied call
    obtain ⟨l', others, done, made⟩ := ih follows
    have once := h.made follows
    refine ⟨l', ?_, done, ?_⟩
    · simp only [Lookahead.outcomes, first, others, Progress.answers]
    · rw [marksMade, first, ← Nat.add_assoc, once]
      exact made

theorem follows_start (start : σ) (items : List α) :
    Follows start items {} { source := start } := by
  constructor
  · constructor
    · rw [Nat.min_eq_left (Nat.zero_le _)]
      rfl
    · rfl
    · rfl
    · exact Nat.zero_le _
    · exact Nat.le_refl _
  · rfl

end Calls

/-- A stream over a finite source is a list with a cursor, whatever is called on it. The source was
asked for the items in their order, as far as the furthest one that was needed, and once past the
last one at most; the mark past the last item was made once at most; calls that are refused change
nothing. -/
theorem outcomes_supplied {start : σ} {items : List α} (supplied : Feed.Supplies start items)
    (calls : List Call) :
    let p := Progress.afterAll items.length calls
    (∃ l : Lookahead σ α,
      outcomes calls { source := start } =
        (Progress.answers items (lastMark start items) {} calls, l) ∧
        l.source = Feed.asked start (min p.needed (items.length + 1)) ∧
        l.buffer = (items.take p.needed).drop p.place ∧ l.ended = decide (items.length < p.needed) ∧
        l.endMark = if p.marked then some (lastMark start items) else none) ∧
      (∀ n ≤ items.length,
        Feed.fetch (Feed.asked start n) = (.ok items[n]?, Feed.asked start (n + 1))) ∧
      marksMade calls { source := start } = (if p.marked then 1 else 0) ∧
      ∀ (call : Call) (c : Nat) (f : Fault), call.place? c = .error f →
        ∀ l : Lookahead σ α, call.outcome l = (.error f, l) := by
  intro p
  obtain ⟨l, run, follows, made⟩ := (follows_start start items).outcomes supplied calls
  refine ⟨⟨l, run, follows.source, follows.buffer, follows.ended, follows.mark⟩, ?_, ?_, ?_⟩
  · exact fun n bound => supplied.fetch_asked bound
  · rwa [if_neg Bool.false_ne_true, Nat.zero_add] at made
  · exact fun call c f refused l => Call.outcome_refused refused l

/-- Three items are looked at and removed, past the last of them as well. -/
theorem outcomes_supplied_three :
    let start : ListFeed Nat := { rest := [1, 2, 3], mark := 0 }
    let calls : List Call :=
      [.peek 1, .consume 0, .peek (-1), .consume 2, .next 5, .consume (-3), .consume 4, .current]
    Feed.Supplies start [1, 2, 3] ∧ ∃ l : Lookahead (ListFeed Nat) Nat,
      outcomes calls { source := start } = ([.ok 2, .ok 1, .error .negativeOffset, .ok 1, .ok 0,
        .error .negativeCount, .ok 3, .ok 0], l) ∧
      l.source = Feed.asked start 4 ∧ l.buffer = [] ∧ l.ended = true ∧ l.endMark = some 0 ∧
      marksMade calls { source := start } = 1 := by
  intro start calls
  have supplied : Feed.Supplies start [1, 2, 3] := .item rfl (.item rfl (.item rfl (.stop rfl)))
  obtain ⟨⟨l, run, source, buffer, ended, mark⟩, _, made, _⟩ := outcomes_supplied supplied calls
  exact ⟨supplied, l, run, source, buffer, ended, mark, made⟩

end Lookahead

end Formula
