import Formula.Lookahead
import Formula.Reader

/-! A stream that delivers a text character by character and then fails. It is read through a
lookahead, which asks for as many characters as it needs and no more, and counts nothing; the stream
itself counts how often it is read. A reader of the same text shows the same characters at the same
places, and has come to the end when the lookahead has. -/
namespace Formula

/-- A stream in the middle of a text, with the problems that its reader has found in it. -/
structure Delivery where
  rest : List Char
  reason : String
  last : Position := Position.start
  problems : List Problem := []
  reads : Nat := 0

instance : Feed Delivery Character where
  fetch d :=
    match d.rest with
    | c :: rest =>
      (.ok (some ⟨c, d.last.next⟩),
        { d with rest := rest, last := d.last.after c, reads := d.reads + 1 })
    | [] =>
      (.ok none,
        { d with problems := d.problems ++ [⟨.error, d.last, d.reason⟩], reads := d.reads + 1 })
  endMark d := ⟨endMark, d.last⟩

def placed : Position → List Char → List Character
  | _, [] => []
  | p, c :: cs => ⟨c, p.next⟩ :: placed (p.after c) cs

theorem length_placed (p : Position) (cs : List Char) : (placed p cs).length = cs.length := by
  induction cs generalizing p with
  | nil => rfl
  | cons c cs ih => simp [placed, ih]

theorem placed_append (p : Position) (cs ds : List Char) :
    placed p (cs ++ ds) = placed p cs ++ placed (p.afterAll cs) ds := by
  induction cs generalizing p with
  | nil => rfl
  | cons c cs ih => simp [placed, ih]

theorem getElem?_placed (p : Position) (cs : List Char) (n : Nat) :
    (placed p cs)[n]? = cs[n]?.map fun c => ⟨c, (p.afterAll (cs.take n)).next⟩ := by
  induction cs generalizing p n with
  | nil => rfl
  | cons c cs ih =>
    cases n with
    | zero => rfl
    | succ n => simp [placed, ih]

/-- The lookahead stands behind the place `last`, with `rest` before it: some characters wait, and
the others are still to be delivered. The stream was read once for each character that it has
delivered, and once more if it has failed. -/
structure Holds (text : List Char) (reason : String) (last : Position) (rest : List Char)
    (d : Lookahead Delivery Character) : Prop where
  split : ∃ seen, rest = seen ++ d.source.rest ∧ d.buffer = placed last seen ∧
    d.source.last = last.afterAll seen
  stops : d.ended = true → d.source.rest = []
  reads : d.source.reads + d.source.rest.length = text.length + d.ended.toNat
  problems : d.source.problems = if d.ended then [⟨.error, d.source.last, reason⟩] else []
  reason : d.source.reason = reason
  mark : ∀ m, d.endMark = some m → d.ended = true ∧ m = ⟨endMark, d.source.last⟩

namespace Holds

variable {text : List Char} {reason : String} {last : Position} {rest : List Char}
variable {d : Lookahead Delivery Character}

theorem start (text : List Char) (reason : String) :
    Holds text reason .start text { source := { rest := text, reason := reason } } := by
  constructor
  · exact ⟨[], rfl, rfl, rfl⟩
  · exact nofun
  · exact Nat.zero_add _
  · rfl
  · rfl
  · exact nofun

theorem length (h : Holds text reason last rest d) :
    rest.length = d.buffer.length + d.source.rest.length := by
  obtain ⟨seen, rfl, buffer, _⟩ := h.split
  rw [List.length_append, buffer, length_placed]

theorem unmarked (h : Holds text reason last rest d) (more : d.ended = false) :
    d.endMark = none := by
  cases made : d.endMark with
  | none => rfl
  | some m => simp [(h.mark m made).1] at more

theorem behind (h : Holds text reason last [] d) (ended : d.ended = true) :
    d.source.reads = text.length + 1 ∧ d.source.problems = [⟨.error, last, reason⟩] := by
  obtain ⟨seen, split, _, place⟩ := h.split
  obtain ⟨rfl, _⟩ := List.append_eq_nil_iff.mp split.symm
  have reads := h.reads
  have problems := h.problems
  rw [h.stops ended, ended] at reads
  rw [ended, place] at problems
  exact ⟨reads, problems⟩

theorem fetch_end (h : Holds text reason last rest d) (more : d.ended = false)
    (nothing : d.source.rest = []) :
    ∃ e : Delivery, Feed.fetch d.source = (.ok none, e) ∧
      Holds text reason last rest { d with source := e, ended := true } := by
  refine ⟨_, by simp only [Feed.fetch, nothing]; rfl, ?_⟩
  have reads := h.reads
  simp only [nothing, more, List.length_nil, Bool.toNat_false] at reads
  constructor
  · exact nothing ▸ h.split
  · exact fun _ => rfl
  · simpa using reads
  · simp [h.problems, more, h.reason]
  · exact h.reason
  · intro m made
    simp [h.unmarked more] at made

theorem fetch_character {c : Char} {cs : List Char} (h : Holds text reason last rest d)
    (more : d.ended = false) (next : d.source.rest = c :: cs) :
    ∃ e : Delivery, Feed.fetch d.source = (.ok (some ⟨c, d.source.last.next⟩), e) ∧ e.rest = cs ∧
      Holds text reason last rest
        { d with source := e, buffer := d.buffer ++ [⟨c, d.source.last.next⟩] } := by
  refine ⟨_, by simp only [Feed.fetch, next]; rfl, rfl, ?_⟩
  obtain ⟨seen, split, buffer, place⟩ := h.split
  have reads := h.reads
  simp only [next, more, List.length_cons, Bool.toNat_false] at reads
  constructor
  · refine ⟨seen ++ [c], ?_, ?_, ?_⟩
    · rw [split, next, List.append_assoc]
      rfl
    · rw [placed_append, buffer, place]
      rfl
    · rw [Position.afterAll_append, place]
      rfl
  · simp [more]
  · simp only [more, Bool.toNat_false]
    omega
  · simp [h.problems, more]
  · exact h.reason
  · intro m made
    simp [h.unmarked more] at made

theorem fill (h : Holds text reason last rest d) (n : Nat) :
    ∃ d', Lookahead.fill n d = .ok () d' ∧ Holds text reason last rest d' ∧
      d'.ended = (d.ended || decide (d.source.rest.length < n)) ∧
      (d'.ended = true ∨ d.buffer.length + n ≤ d'.buffer.length) := by
  induction n generalizing d with
  | zero => exact ⟨d, rfl, h, by simp, .inr (Nat.le_refl _)⟩
  | succ n ih =>
    cases more : d.ended with
    | true => exact ⟨d, by simp [Lookahead.fill, more], h, by simp [more], .inl more⟩
    | false =>
      cases next : d.source.rest with
      | nil =>
        obtain ⟨e, fetched, holds⟩ := h.fetch_end more next
        exact ⟨_, by simp only [Lookahead.fill, more, fetched]; rfl, holds, by simp, .inl rfl⟩
      | cons c cs =>
        obtain ⟨e, fetched, left, holds⟩ := h.fetch_character more next
        obtain ⟨d', run, holds', ended, enough⟩ := ih holds
        refine ⟨d', by simpa [Lookahead.fill, more, fetched] using run, holds', ?_, ?_⟩
        · simp [ended, more, left]
        · simpa [Nat.add_assoc, Nat.add_comm 1 n] using enough

theorem markAtEnd (h : Holds text reason last rest d) (ended : d.ended = true) :
    ∃ d', Lookahead.mark d = .ok ⟨endMark, last.afterAll rest⟩ d' ∧ Holds text reason last rest d' ∧
      d'.ended = true := by
  obtain ⟨seen, split, buffer, place⟩ := h.split
  have whole : rest = seen := by rw [split, h.stops ended, List.append_nil]
  have here : last.afterAll rest = d.source.last := by rw [place, whole]
  rw [here]
  cases made : d.endMark with
  | some m =>
    obtain ⟨_, rfl⟩ := h.mark m made
    exact ⟨d, by simp [Lookahead.mark, made], h, ended⟩
  | none =>
    let m : Character := ⟨endMark, d.source.last⟩
    refine ⟨{ d with endMark := some m },
      by simp [Lookahead.mark, made, Feed.endMark, m], ?_, ended⟩
    refine ⟨h.split, h.stops, h.reads, h.problems, h.reason, fun m' same => ⟨ended, ?_⟩⟩
    exact (Option.some.inj same).symm

theorem at? (h : Holds text reason last rest d) (n : Nat) :
    ∃ d', Lookahead.at? n d = .ok ((placed last rest).getD n ⟨endMark, last.afterAll rest⟩) d' ∧
      Holds text reason last rest d' ∧ d'.ended = (d.ended || decide (rest.length ≤ n)) := by
  obtain ⟨d₁, filled, holds, ended, enough⟩ := h.fill (n + 1 - d.buffer.length)
  have length := h.length
  have length₁ := holds.length
  obtain ⟨seen, split, buffer, _⟩ := holds.split
  have comes : d₁.ended = (d.ended || decide (rest.length ≤ n)) := by
    rw [ended]
    congr 1
    exact decide_eq_decide.mpr (by omega)
  have item : (placed last rest)[n]? = d₁.buffer[n]? := by
    rw [split, placed_append, ← buffer]
    by_cases inside : n < d₁.buffer.length
    · exact List.getElem?_append_left inside
    · have stopped : d₁.ended = true := enough.resolve_right (by omega)
      simp [holds.stops stopped, placed]
  rw [List.getD_eq_getElem?_getD, item]
  cases there : d₁.buffer[n]? with
  | some c =>
    refine ⟨d₁, ?_, holds, comes⟩
    simp [Lookahead.at?, filled, there]
  | none =>
    have short : d₁.buffer.length ≤ n := List.getElem?_eq_none_iff.mp there
    have stopped : d₁.ended = true := enough.resolve_right (by omega)
    obtain ⟨d₂, marked, holds', still⟩ := holds.markAtEnd stopped
    refine ⟨d₂, ?_, holds', ?_⟩
    · simp [Lookahead.at?, filled, there, marked]
    · rw [still, ← comes, stopped]

theorem tail {c : Char} {cs : List Char} {a : Character} {as : List Character}
    (h : Holds text reason last (c :: cs) d) (waits : d.buffer = a :: as) :
    Holds text reason (last.after c) cs { d with buffer := as } := by
  obtain ⟨seen, split, buffer, place⟩ := h.split
  cases seen with
  | nil => simp [waits, placed] at buffer
  | cons e seen =>
    obtain ⟨rfl, rest⟩ := List.cons.inj split
    rw [waits] at buffer
    exact ⟨⟨seen, rest, (List.cons.inj buffer).2, place⟩, h.stops, h.reads, h.problems,
      h.reason, h.mark⟩

theorem drop {c : Char} {cs : List Char} (h : Holds text reason last (c :: cs) d) :
    ∃ d', Lookahead.drop 1 d = .ok () d' ∧ Holds text reason (last.after c) cs d' ∧
      d'.ended = d.ended := by
  cases waits : d.buffer with
  | cons a as => exact ⟨_, by simp only [Lookahead.drop, waits], h.tail waits, rfl⟩
  | nil =>
    have length := h.length
    simp only [waits, List.length_cons, List.length_nil] at length
    have more : d.ended = false := by
      cases ended : d.ended with
      | false => rfl
      | true =>
        rw [h.stops ended, List.length_nil] at length
        omega
    obtain ⟨e, es, next⟩ := List.exists_cons_of_length_pos (l := d.source.rest) (by omega)
    obtain ⟨source, fetched, _, holds⟩ := h.fetch_character more next
    have fetched' : Lookahead.drop 1 d = .ok () { d with source := source } := by
      simp [Lookahead.drop, waits, more, fetched]
    refine ⟨_, fetched', ?_, rfl⟩
    have left := holds.tail (congrArg (· ++ [_]) waits)
    rwa [← waits] at left

end Holds

end Formula
