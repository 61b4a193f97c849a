import Formula.Proofs.Parser.Runs

/-! Parsers up to the limit of their depth. A parser approximates another one if they agree wherever
the first does not come to its limit. All steps of the grammar respect this order, and so a rule
that may go deeper agrees with one that may not. -/
namespace Formula.Parser

variable {α β : Type}

def IsTooDeep (r : EStateM.Result Fault ParserState α) : Prop := ∃ s, r = .error .tooDeep s

/-- A name is searched in scopes that never come to an end. -/
def IsEndless (r : EStateM.Result Fault ParserState α) : Prop := ∃ s, r = .error .endless s

instance (f : Fault) (r : EStateM.Result Fault ParserState α) : Decidable (∃ s, r = .error f s) :=
  match r with
  | .ok _ _ => isFalse fun ⟨_, h⟩ => nomatch h
  | .error e s => decidable_of_iff (e = f)
      ⟨fun h => ⟨s, h ▸ rfl⟩, fun ⟨_, h⟩ => (EStateM.Result.error.inj h).1⟩

instance (r : EStateM.Result Fault ParserState α) : Decidable (IsTooDeep r) :=
  inferInstanceAs (Decidable (∃ s, r = .error .tooDeep s))

instance (r : EStateM.Result Fault ParserState α) : Decidable (IsEndless r) :=
  inferInstanceAs (Decidable (∃ s, r = .error .endless s))

/-- Both parsers agree wherever the first one does not come to its limit. -/
def Approximates (p q : Parser α) : Prop := ∀ g s, IsTooDeep (p g s) ∨ q g s = p g s

namespace Approximates

theorem refl (p : Parser α) : Approximates p p := fun _ _ => .inr rfl

theorem tooDeep (q : Parser α) : Approximates (throw .tooDeep) q := fun _ s => .inl ⟨s, rfl⟩

theorem bind_of {p q : Parser α} {f h : α → Parser β} {P : α → Prop} (ensures : Ensures p P)
    (first : Approximates p q) (then_ : ∀ a, P a → Approximates (f a) (h a)) :
    Approximates (p >>= f) (q >>= h) := by
  intro g s
  rcases first g s with ⟨s', deep⟩ | same
  · exact .inl ⟨s', bind_of_error deep f⟩
  · cases hp : p g s with
    | error e s' =>
      exact .inr ((bind_of_error (same.trans hp) h).trans (bind_of_error hp f).symm)
    | ok a s' =>
      rw [bind_of_ok hp, bind_of_ok (same.trans hp)]
      exact then_ a (ensures g s a s' hp) g s'

theorem bind {p q : Parser α} {f h : α → Parser β} (first : Approximates p q)
    (then_ : ∀ a, Approximates (f a) (h a)) : Approximates (p >>= f) (q >>= h) :=
  bind_of (.trivial p) first fun a _ => then_ a

theorem bind_left {p : Parser α} {f h : α → Parser β} (then_ : ∀ a, Approximates (f a) (h a)) :
    Approximates (p >>= f) (p >>= h) := bind (refl p) then_

theorem bind_right {p q : Parser α} (first : Approximates p q) (f : α → Parser β) :
    Approximates (p >>= f) (q >>= f) := bind first fun a => refl (f a)

end Approximates

section Steps

variable {self self' inner inner' call call' : Parser Expr}

theorem bracketed_approximates (hi : Approximates inner inner') :
    Approximates (bracketed inner) (bracketed inner') :=
  .bind_left fun _ => .bind_right hi _

theorem plainAtom_approximates (hi : Approximates inner inner') (hc : Approximates call call') :
    Approximates (plainAtom inner call) (plainAtom inner' call') := by
  refine .bind_left fun t => ?_
  split
  · exact bracketed_approximates hi
  · split
    · exact .bind_left fun _ => .bind_right hi _
    · split
      · refine .bind_left fun u => ?_
        split
        · exact hc
        · exact .refl _
      · exact .refl _

theorem anyAtom_approximates (hs : Approximates self self') (hi : Approximates inner inner')
    (hc : Approximates call call') :
    Approximates (anyAtom self inner call) (anyAtom self' inner' call') := by
  refine .bind_left fun t => ?_
  split
  · exact .bind_left fun _ => .bind_left fun _ => .bind_right hs _
  · exact .bind_left fun _ => plainAtom_approximates hi hc

theorem argumentsWithin_approximates (hi : Approximates inner inner') (fuel : Nat)
    (isFirst : Bool) :
    Approximates (argumentsWithin inner fuel isFirst) (argumentsWithin inner' fuel isFirst) := by
  induction fuel generalizing isFirst with
  | zero => exact .refl _
  | succ fuel ih =>
    refine .bind_left fun t => ?_
    split
    · exact .refl _
    · exact .bind_left fun _ => .bind hi fun e => .bind_right (ih false) _

theorem anyCall_approximates (hi : Approximates inner inner') :
    Approximates (anyCall inner) (anyCall inner') := by
  have args : Approximates (arguments inner) (arguments inner') :=
    .bind_left fun s => argumentsWithin_approximates hi _ true
  exact .bind_left fun t => .bind_left fun f => .bind_left fun _ => .bind_right args _

end Steps

end Formula.Parser
