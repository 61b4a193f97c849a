import Formula.Proofs.Parser.Depth
import Formula.Proofs.TokenStream.Ahead

/-! What a parser sees of its state: the tokens ahead, the variables, and the problems found so far.
For parsers that go by what they see, it is enough to follow the view. -/
namespace Formula.Parser

open TokenStream (Ahead)

/-- A state of a parser, up to the way in which the tokens ahead are held. -/
structure View where
  tokens : List Token
  store : Store
  problems : List Problem

/-- A state and the view of it, where the mark stands past the last token. -/
structure Sees (mark : Token) (s : ParserState) (v : View) : Prop where
  ahead : Ahead mark s.tokens v.tokens
  store : s.store = v.store
  problems : s.tokens.problems = v.problems

namespace View

def token (mark : Token) (v : View) : Token := v.tokens.getD 0 mark

def following (mark : Token) (v : View) : Token := v.tokens.getD 1 mark

def consumed (v : View) : View := { v with tokens := v.tokens.tail }

def complained (v : View) (t : Token) (text : String) : View :=
  { v with problems := v.problems ++ [⟨.error, t.position, text⟩] }

end View

variable {α β : Type} {mark : Token} {g : Grammar} {v v' v'' : View}

/-- From every state with the first view the parser returns the result and leaves the second
view. -/
def Yields (mark : Token) (g : Grammar) (v : View) (p : Parser α) (a : α) (v' : View) : Prop :=
  ∀ s, Sees mark s v → ∃ s', p g s = .ok a s' ∧ Sees mark s' v'

def IsCutShort (r : EStateM.Result Fault ParserState α) : Prop := IsTooDeep r ∨ IsEndless r

/-- From every state with the view the parser is cut short, or returns a result and leaves a view
that satisfy the condition. -/
def Leads (mark : Token) (g : Grammar) (v : View) (p : Parser α) (Q : α → View → Prop) : Prop :=
  ∀ s, Sees mark s v → IsCutShort (p g s) ∨ ∃ a s' v', p g s = .ok a s' ∧ Sees mark s' v' ∧ Q a v'

namespace Yields

theorem pure (a : α) : Yields mark g v (pure a) a v := fun s h => ⟨s, rfl, h⟩

theorem bind {p : Parser α} {f : α → Parser β} {a : α} {b : β} (first : Yields mark g v p a v')
    (then_ : Yields mark g v' (f a) b v'') : Yields mark g v (p >>= f) b v'' := by
  intro s h
  obtain ⟨s', run, h'⟩ := first s h
  obtain ⟨s'', run', h''⟩ := then_ s' h'
  exact ⟨s'', (bind_of_ok run f).trans run', h''⟩

theorem read : Yields mark g v (read : Parser Grammar) g v := fun s h => ⟨s, rfl, h⟩

end Yields

theorem yields_onTokens {m : EStateM Fault TokenStream α} {a : α} {ts : List Token}
    (run : ∀ s : TokenStream, Ahead mark s v.tokens → ∃ s', m s = .ok a s' ∧ Ahead mark s' ts
      ∧ s'.problems = s.problems) :
    Yields mark g v (onTokens m) a { v with tokens := ts } := by
  intro s h
  obtain ⟨s', ran, ahead, found⟩ := run s.tokens h.ahead
  refine ⟨{ s with tokens := s' }, ?_, ⟨ahead, h.store, found.trans h.problems⟩⟩
  simp only [onTokens, ran]

theorem yields_current : Yields mark g v current (v.token mark) v :=
  yields_onTokens fun _ h => h.at? 0

theorem yields_next : Yields mark g v next (v.following mark) v :=
  yields_onTokens fun _ h => h.at? 1

theorem yields_consume : Yields mark g v consume (v.token mark) v.consumed := by
  refine yields_onTokens fun s h => ?_
  obtain ⟨s₁, looked, ahead, found⟩ := h.at? 0
  obtain ⟨s₂, dropped, ahead', found'⟩ := ahead.drop
  refine ⟨s₂, ?_, ahead', found'.trans found⟩
  simp only [TokenStream.consume, TokenStream.current, Lookahead.current, bind,
    EStateM.bind, looked, dropped, pure, EStateM.pure, View.token]

theorem yields_drop : Yields mark g v (discard consume) () v.consumed :=
  yields_consume.bind (.pure ())

theorem yields_complain (t : Token) (text : String) :
    Yields mark g v (complain t text) () (v.complained t text) := by
  intro s h
  refine ⟨_, rfl, h.ahead.report _, h.store, ?_⟩
  have found := h.problems
  simp only [TokenStream.problems] at found
  simp [TokenStream.problems, TokenStream.mapLexer, Lexer.report, Reader.report, found,
    View.complained]

theorem yields_zero : Yields mark g v zero (.constant (.zero g.mode)) v :=
  Yields.read.bind (.pure _)

theorem yields_resolve {w : VariableId} {st' : Store} {t : Token}
    (found : v.store.lookUp g.scope t.content = .ok (w, st')) :
    Yields mark g v (resolve t) (.reference w (st'.var w).name) { v with store := st' } := by
  intro s h
  refine ⟨{ s with store := st' }, ?_, ⟨h.ahead, rfl, h.problems⟩⟩
  have got : (get : Parser ParserState) g s = .ok s s := rfl
  have asked : (read : Parser Grammar) g s = .ok g s := rfl
  unfold resolve
  rw [bind_of_ok got, bind_of_ok asked, h.store, found]
  rfl

namespace Leads

variable {P Q : α → View → Prop} {R : β → View → Prop} {p : Parser α} {f : α → Parser β}

theorem of_yields {a : α} (h : Yields mark g v p a v') (post : Q a v') : Leads mark g v p Q := by
  intro s hs
  obtain ⟨s', run, h'⟩ := h s hs
  exact .inr ⟨a, s', v', run, h', post⟩

theorem pure {a : α} (post : Q a v) : Leads mark g v (pure a) Q := of_yields (.pure a) post

theorem tooDeep : Leads mark g v (throw .tooDeep) Q := fun s _ => .inl (.inl ⟨s, rfl⟩)

theorem mono (h : Leads mark g v p P) (weaker : ∀ a v', P a v' → Q a v') : Leads mark g v p Q := by
  intro s hs
  rcases h s hs with cut | ⟨a, s', v', run, h', post⟩
  · exact .inl cut
  · exact .inr ⟨a, s', v', run, h', weaker a v' post⟩

theorem bind (first : Leads mark g v p P) (then_ : ∀ a v', P a v' → Leads mark g v' (f a) R) :
    Leads mark g v (p >>= f) R := by
  intro s hs
  rcases first s hs with (⟨s', deep⟩ | ⟨s', endless⟩) | ⟨a, s', v', run, h', post⟩
  · exact .inl (.inl ⟨s', bind_of_error deep f⟩)
  · exact .inl (.inr ⟨s', bind_of_error endless f⟩)
  · rw [bind_of_ok run f]
    exact then_ a v' post s' h'

theorem after {a : α} (first : Yields mark g v p a v') (then_ : Leads mark g v' (f a) R) :
    Leads mark g v (p >>= f) R := by
  intro s hs
  obtain ⟨s', run, h'⟩ := first s hs
  rw [bind_of_ok run f]
  exact then_ s' h'

end Leads

end Formula.Parser
