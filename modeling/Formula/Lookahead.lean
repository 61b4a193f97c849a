import Formula.Fault

/-! Streams of items with a lookahead. Items are fetched one after another, in order and only on
demand; fetched items wait in a buffer until they are consumed. Past the last item stands an end
mark, which is made at most once. -/
namespace Formula

/-- Where the items of a stream come from. -/
class Feed (σ : Type) (α : outParam Type) where
  fetch : σ → Except Fault (Option α) × σ
  /-- The mark that stands past the last item, once the end was reached. -/
  endMark : σ → α

/-- A stream over a feed. -/
structure Lookahead (σ α : Type) where
  source : σ
  buffer : List α := []
  ended : Bool := false
  endMark : Option α := none

namespace Lookahead

variable {σ α : Type} [Feed σ α]

def fill : Nat → EStateM Fault (Lookahead σ α) Unit
  | 0, l => .ok () l
  | n + 1, l =>
    if l.ended then .ok () l
    else match Feed.fetch l.source with
      | (.ok (some a), s) => fill n { l with source := s, buffer := l.buffer ++ [a] }
      | (.ok none, s) => .ok () { l with source := s, ended := true }
      | (.error f, s) => .error f { l with source := s }

def mark : EStateM Fault (Lookahead σ α) α := fun l =>
  -- Made on first use: it keeps the position of the end that was seen then.
  match l.endMark with
  | some m => .ok m l
  | none =>
    let m := Feed.endMark l.source
    .ok m { l with endMark := some m }

def at? (n : Nat) : EStateM Fault (Lookahead σ α) α := fun l =>
  match fill (n + 1 - l.buffer.length) l with
  | .error f l => .error f l
  | .ok () l =>
    match l.buffer[n]? with
    | some a => .ok a l
    | none => mark l

def peek (offset : Int) : EStateM Fault (Lookahead σ α) α :=
  if offset < 0 then throw .negativeOffset else at? offset.toNat

def current : EStateM Fault (Lookahead σ α) α := at? 0

/-- Drops `n` items from the front. Nothing happens at the end. -/
def drop : Nat → EStateM Fault (Lookahead σ α) Unit
  | 0, l => .ok () l
  | n + 1, l =>
    match l.buffer with
    | _ :: rest => drop n { l with buffer := rest }
    | [] =>
      if l.ended then .ok () l
      else match Feed.fetch l.source with
        | (.ok (some _), s) => drop n { l with source := s }
        | (.ok none, s) => drop n { l with source := s, ended := true }
        | (.error f, s) => .error f { l with source := s }

def consume (count : Int) : EStateM Fault (Lookahead σ α) α :=
  if count < 0 then throw .negativeCount
  else do
    let first ← current
    drop count.toNat
    return first

/-- Up to two items that are at hand without fetching. -/
def atHand (l : Lookahead σ α) : List α := l.buffer.take 2

end Lookahead

structure ListFeed (α : Type) where
  rest : List α
  mark : α
  fetched : Nat := 0

instance {α : Type} : Feed (ListFeed α) α where
  fetch s :=
    match s.rest with
    | a :: rest => (.ok (some a), { s with rest := rest, fetched := s.fetched + 1 })
    | [] => (.ok none, s)
  endMark s := s.mark

end Formula
