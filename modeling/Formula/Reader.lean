import Formula.Character
import Formula.Fault

/-! Reading a text character by character. A reader is a cursor in a text. It knows how far it has
looked ahead, because a source may fail at its end: the failure becomes a problem, once, as soon as
the end is looked at. -/
namespace Formula

/-- What happens when a text is read beyond its last character. -/
inductive Ending where
  | quiet
  | failing (reason : String)
  /-- The source breaks, and so does what reads it. -/
  | breaking
deriving DecidableEq, Repr, Inhabited

structure Source where
  text : List Char
  ending : Ending := .quiet
deriving Inhabited

namespace Source

def ofString (s : String) : Source := { text := s.toList }

end Source

/-- A place in a text: what follows it, the position of the character before it, and the problems
found so far. -/
structure Cursor where
  rest : List Char
  last : Position := Position.start
  problems : List Problem := []
deriving Inhabited

structure Reader extends Cursor where
  ending : Ending := .quiet
  ahead : Nat := 0
  ended : Bool := false
  /-- The place where the end of a breaking source was first looked at. -/
  broken : Option Cursor := none
deriving Inhabited

namespace Reader

def ofSource (s : Source) : Reader := { rest := s.text, ending := s.ending }

def char (r : Reader) (n : Nat) : Char := r.rest.getD n endMark

/-- The position of the current character, or of the last one at the end. -/
def position (r : Reader) : Position :=
  match r.rest with
  | [] => r.last
  | _ :: _ => r.last.next

def positionAt (r : Reader) (n : Nat) : Position :=
  let here := r.last.afterAll (r.rest.take n)
  if n < r.rest.length then here.next else here

def characterAt (r : Reader) (n : Nat) : Character := ⟨r.char n, r.positionAt n⟩

def report (r : Reader) (p : Problem) : Reader := { r with problems := r.problems ++ [p] }

def reach (r : Reader) (n : Nat) : Reader :=
  if n < r.rest.length then { r with ahead := max r.ahead (n + 1) }
  else
    let r := { r with ahead := r.rest.length }
    match r.ending with
    | .quiet => { r with ended := true }
    | .failing reason =>
      -- The reason is reported once, behind everything that was read.
      if r.ended then r
      else { r.report ⟨.error, r.last.afterAll r.rest, reason⟩ with ended := true }
    -- The first look past the end is the place that `settle` goes back to.
    | .breaking => if r.broken.isSome then r else { r with broken := some r.toCursor }

def advance (r : Reader) : Reader :=
  match r.rest with
  | [] => r
  | c :: rest => { r with rest := rest, last := r.last.after c, ahead := r.ahead - 1 }

def skip (r : Reader) : Nat → Reader
  | 0 => r
  | n + 1 => r.advance.skip n

/-- Goes back to the place where the source broke, if it did, and faults. -/
def settle (r : Reader) : EStateM.Result Fault Reader Unit :=
  match r.broken with
  | some c => .error .brokenSource { r with toCursor := c, ahead := c.rest.length, broken := none }
  | none => .ok () r

def peek (offset : Int) : EStateM Fault Reader Character := fun r =>
  if offset < 0 then .error .negativeOffset r
  else match (r.reach offset.toNat).settle with
    | .error f r => .error f r
    | .ok () r => .ok (r.characterAt offset.toNat) r

def current : EStateM Fault Reader Character := peek 0

/-- Drops `n` characters. Dropping more than there are looks at the end. -/
def drop (n : Nat) : EStateM Fault Reader Unit := fun r =>
  let count := r.rest.length
  if n ≤ count then .ok () (r.skip n) else ((r.skip count).reach 0).settle

def consume (count : Int) : EStateM Fault Reader Character :=
  if count < 0 then throw .negativeCount
  else do
    -- The first character is looked at even if none is removed.
    let first ← current
    drop count.toNat
    return first

def drainWithin : Nat → EStateM Fault Reader (List Character)
  | 0 => return []
  | fuel + 1 => do
    let c ← consume 1
    if c.isEnd then return [c]
    return c :: (← drainWithin fuel)

def drain : EStateM Fault Reader (List Character) := do
  drainWithin ((← get).rest.length + 1)

def describe (r : Reader) : String :=
  let seen := r.rest.take r.ahead
  let shown :=
    match seen.take 2 with
    | [] => "Buffer empty"
    | cs => ", ".intercalate (cs.map fun c => toString (Character.mk c Position.unknown))
  toString (r.last.afterAll seen) ++ ": " ++ shown

end Reader

end Formula
