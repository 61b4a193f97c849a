import Formula.Proofs.Lexer.Positions
import Formula.Proofs.Lookahead

/-! Where tokens lie. The tokens of a complete text come in their order, and behind all of them lies
the mark of the end. A stream that looks ahead reports problems behind all that it has read
before. -/
namespace Formula.TokenStream

open Lookahead (Looks Breaks Found)
open Reader (Reports)

variable {s s' s'' : TokenStream} {t : Token} {q : Position} {n : Nat} {f : Fault}

structure Placed (s : TokenStream) : Prop where
  within : s.source.Within
  sorted : s.buffer.Pairwise fun t u => t.position ≤ u.position
  fetched : ∀ t ∈ s.buffer, t.position ≤ s.source.reader.position
  ended : ∀ m, s.endMark = some m → s.ended = true
  mark : ∀ m, s.endMark = some m → m.position = s.source.reader.position

/-- Nothing that is still to come lies before the position. -/
structure Passed (s : TokenStream) (q : Position) : Prop where
  buffer : ∀ t ∈ s.buffer, q ≤ t.position
  reader : q ≤ s.source.reader.position

/-- A stream goes on, and reports what is wrong with the characters that it reads. -/
structure Onward (s s' : TokenStream) : Prop where
  placed : Placed s'
  reports : ∃ ps, s.source.reader.Reports ps s'.source.reader
  passed : ∀ q, Passed s q → Passed s' q

/-- A token that a stream gives, with what is known of its position. -/
structure Gives (s : TokenStream) (t : Token) (s' : TokenStream) : Prop extends Onward s s' where
  beyond : ∀ q, Passed s q → q ≤ t.position
  taken : Passed s' t.position

theorem Onward.trans (h : Onward s s') (h' : Onward s' s'') : Onward s s'' where
  placed := h'.placed
  reports := by
    obtain ⟨ps, first⟩ := h.reports
    obtain ⟨qs, second⟩ := h'.reports
    exact ⟨ps ++ qs, first.trans second⟩
  passed q before := h'.passed q (h.passed q before)

theorem Passed.report (h : Passed s q) (p : Problem) : Passed (s.mapLexer (·.report p)) q :=
  ⟨h.buffer, h.reader⟩

theorem placed_ofSource (text : String) : Placed (ofSource (.ofString text)) where
  within := ⟨rfl, ⟨rfl, rfl⟩, [], rfl⟩
  sorted := .nil
  fetched := List.forall_mem_nil _
  ended := nofun
  mark := nofun

namespace Placed

theorem refl (h : Placed s) : Onward s s := ⟨h, ⟨[], .none _⟩, fun _ => id⟩

theorem unmarked (h : Placed s) (more : s.ended = false) : s.endMark = none := by
  apply Option.eq_none_iff_forall_ne_some.mpr
  intro m made
  cases more.symm.trans (h.ended m made)

theorem item {l : Lexer} {ps : List Problem} (h : Placed s) (more : s.ended = false)
    (within : l.Within)
    (reports : s.source.reader.Reports ps l.reader) (first : s.source.reader.position ≤ t.position)
    (last : t.position ≤ l.reader.position) :
    Onward s { s with source := l, buffer := s.buffer ++ [t] } where
  placed :=
    { within
      sorted := pairwise_snoc h.sorted fun u member => Position.le_trans (h.fetched u member) first
      fetched := by
        have before : ∀ u ∈ s.buffer, u.position ≤ l.reader.position :=
          fun u member => Position.le_trans (h.fetched u member) reports.onward
        exact List.forall_mem_append.mpr ⟨before, List.forall_mem_singleton.mpr last⟩
      ended := h.ended
      mark := by
        rw [h.unmarked more]
        nofun }
  reports := ⟨ps, reports⟩
  passed q before :=
    { buffer := by
        have here : q ≤ t.position := Position.le_trans before.reader first
        exact List.forall_mem_append.mpr ⟨before.buffer, List.forall_mem_singleton.mpr here⟩
      reader := Position.le_trans before.reader reports.onward }

theorem stop {l : Lexer} {ps : List Problem} (h : Placed s) (more : s.ended = false)
    (within : l.Within)
    (reports : s.source.reader.Reports ps l.reader) :
    Onward s { s with source := l, ended := true } where
  placed :=
    { within
      sorted := h.sorted
      fetched u member := Position.le_trans (h.fetched u member) reports.onward
      ended _ _ := rfl
      mark := by
        rw [h.unmarked more]
        nofun }
  reports := ⟨ps, reports⟩
  passed q before := ⟨before.buffer, Position.le_trans before.reader reports.onward⟩

theorem endToken_position (r : Reader) : r.positionAt 0 = r.position := by
  unfold Reader.positionAt Reader.position
  cases r.rest <;> rfl

theorem marked (h : Placed s) (ended : s.ended = true) :
    Onward s { s with endMark := some (Feed.endMark s.source) } where
  placed :=
    { within := h.within
      sorted := h.sorted
      fetched := h.fetched
      ended _ _ := ended
      mark := by
        rintro m ⟨⟩
        have place : (Feed.endMark s.source).position = s.source.reader.positionAt 0 := rfl
        rw [place, endToken_position] }
  reports := ⟨[], .none _⟩
  passed q before := ⟨before.buffer, before.reader⟩

theorem looks (h : Placed s) (looks : Looks s s') : Onward s s' := by
  induction looks with
  | none => exact h.refl
  | item more fetched _ ih =>
    obtain ⟨t, l, ps, next, within, reports, between⟩ := h.within.next
    cases next.symm.trans fetched
    obtain ⟨first, last⟩ := between _ rfl
    have onward := h.item more within reports first last
    exact onward.trans (ih onward.placed)
  | stop more fetched _ ih =>
    obtain ⟨t, l, ps, next, within, reports, _⟩ := h.within.next
    cases next.symm.trans fetched
    have onward := h.stop more within reports
    exact onward.trans (ih onward.placed)
  | mark ended unmarked _ ih =>
    have onward := h.marked ended
    exact onward.trans (ih onward.placed)

theorem not_breaks (h : Placed s) (f : Fault) : ¬ Breaks s f := by
  rintro ⟨s', l, looks, _, failed⟩
  obtain ⟨t, l', ps, next, _⟩ := (h.looks looks).placed.within.next
  cases next.symm.trans failed

theorem le_of_found (h : Placed s) (found : Found 0 t s) (before : Passed s q) :
    q ≤ t.position := by
  cases found with
  | waits here => exact before.buffer t (List.mem_of_getElem? here)
  | mark ended made short =>
    rw [h.mark t made]
    exact before.reader

theorem passed_of_found (h : Placed s) (found : Found 0 t s) : Passed s t.position := by
  cases found with
  | waits here =>
    refine ⟨?_, h.fetched t (List.mem_of_getElem? here)⟩
    have sorted := h.sorted
    cases buffer : s.buffer with
    | nil => simp [buffer] at here
    | cons u rest =>
      obtain rfl : u = t := by simpa [buffer] using here
      rw [buffer] at sorted
      exact List.forall_mem_cons.mpr ⟨Position.le_refl _, (List.pairwise_cons.mp sorted).1⟩
  | mark ended made short =>
    have empty : s.buffer = [] := List.length_eq_zero_iff.mp (Nat.le_zero.mp short)
    rw [h.mark t made]
    exact ⟨empty ▸ List.forall_mem_nil _, Position.le_refl _⟩

theorem drop (h : Placed s) : Onward s { s with buffer := s.buffer.tail } where
  placed :=
    { within := h.within
      sorted := h.sorted.sublist (List.tail_sublist _)
      fetched u member := h.fetched u (List.mem_of_mem_tail member)
      ended := h.ended
      mark := h.mark }
  reports := ⟨[], .none _⟩
  passed _ before := ⟨fun u member => before.buffer u (List.mem_of_mem_tail member), before.reader⟩

theorem current (h : Placed s) (run : TokenStream.current s = .ok t s') : Gives s t s' := by
  obtain ⟨looks, found⟩ := Lookahead.found_at? run
  have onward := h.looks looks
  constructor
  · exact onward
  · intro q before
    exact onward.placed.le_of_found found (onward.passed q before)
  · exact onward.placed.passed_of_found found

theorem consume (h : Placed s) (run : TokenStream.consume s = .ok t s') : Gives s t s' := by
  obtain ⟨s₁, looked, rfl⟩ := consume_ok run
  have gives := h.current looked
  have after := gives.placed.drop
  exact ⟨gives.toOnward.trans after, gives.beyond, after.passed _ gives.taken⟩

theorem report (h : Placed s) (p : Problem) : Placed (s.mapLexer (·.report p)) where
  within := ⟨h.within.standard, ⟨h.within.complete.quiet, h.within.complete.whole⟩, h.within.place⟩
  sorted := h.sorted
  fetched := h.fetched
  ended := h.ended
  mark := h.mark

end Placed

end Formula.TokenStream
