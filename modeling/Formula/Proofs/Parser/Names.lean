import Formula.Proofs.Expr.Keeping
import Formula.Proofs.Parser.Consumption
import Formula.Proofs.Store.Gaining
import Formula.Proofs.TokenStream.Upcoming

/-! Names. Whatever is wrong with a text, and however reading it ends, it leaves all variables as
they were. The scope gains one for each unknown name that was read as a variable. What a name is
read as can be told from the tokens next to it: behind a number it is a quantifier, in front of a
bracket the name of a function, and else a variable. -/
namespace Formula

open TokenStream (Upcoming IsFirst)

namespace Expr

def IsResolved (st : Store) (s : ScopeId) : Expr → Prop
  | .reference v name => st.find? s name = .ok (some v)
  | _ => True

theorem IsResolved.keeps {st st' : Store} {s : ScopeId} (keeps : st.Keeps s st') :
    ∀ e : Expr, e.IsResolved st s → e.IsResolved st' s
  | .reference v name, h => keeps name v h
  | .constant _, h | .binary .., h | .call .., h => h

theorem staysWith_isResolved (k : Knowledge) (st : Store) (s : ScopeId) :
    StaysWith k (IsResolved st s) where
  known _ _ := trivial
  operands _ _ _ h := h
  arguments _ _ h := h
  evaluated _ _ _ _ := trivial
  decided _ _ _ _ := trivial

end Expr

namespace Parser

variable {α β : Type} {g : Grammar} {st : Store} {full done ts : List Token}
  {s s' : ParserState} {t u : Token}

def IsQuantity (g : Grammar) (t : Token) : Prop :=
  t.isNumber ∧ ∃ v, Value.ofNumeral g.mode g.bits t.content = .ok v

/-- The token between these others is read as a variable. -/
structure StandsForVariable (g : Grammar) (before : List Token) (t : Token) (after : List Token) :
    Prop where
  isName : t.isKind .identifier
  noCall : ∀ u ∈ after.head?, u.isSymbol "(" = false
  noQuantifier : ∀ u ∈ before.getLast?, ¬ IsQuantity g u

/-- One of the tokens that were consumed is read as a variable of the name. -/
def ReadsVariable (g : Grammar) (done rest : List Token) (name : String) : Prop :=
  ∃ before t after, done ++ rest = before ++ t :: after ∧ before.length < done.length
    ∧ StandsForVariable g before t after
    ∧ t.content = name

theorem readsVariable_append (name : String) : ReadsVariable g (done ++ [t]) ts name ↔
    ReadsVariable g done (t :: ts) name ∨ (StandsForVariable g done t ts ∧ name = t.content) := by
  have same : done ++ [t] ++ ts = done ++ t :: ts := by simp
  constructor
  · rintro ⟨before, u, after, split, inside, isVariable, rfl⟩
    rw [same] at split
    rw [List.length_append, List.length_singleton] at inside
    rcases Nat.lt_or_eq_of_le (Nat.le_of_lt_succ inside) with earlier | last
    · exact .inl ⟨before, u, after, split, earlier, isVariable, rfl⟩
    · obtain ⟨rfl, rest⟩ := List.append_inj split last.symm
      obtain ⟨rfl, rfl⟩ := List.cons.inj rest
      exact .inr ⟨isVariable, rfl⟩
  · rintro (⟨before, u, after, split, inside, isVariable, rfl⟩ | ⟨isVariable, rfl⟩)
    · exact ⟨before, u, after, same.trans split,
        by simpa using Nat.lt_succ_of_lt inside, isVariable, rfl⟩
    · exact ⟨done, t, ts, same, by simp, isVariable, rfl⟩

theorem not_readsVariable_nil (rest : List Token) (name : String) :
    ¬ ReadsVariable g [] rest name := by
  rintro ⟨_, _, _, _, inside, _⟩
  exact Nat.not_lt_zero _ inside

/-- These tokens were consumed and these are upcoming, and the scope has gained what was read so
far. -/
structure At (g : Grammar) (st : Store) (full : List Token) (s : ParserState)
    (done ts : List Token) : Prop where
  split : full = done ++ ts
  upcoming : Upcoming s.tokens ts
  gains : ∃ names, Store.Gains g.scope (ReadsVariable g done ts) st names s.store
  named : s.store.IsNamed

def IsFresh (g : Grammar) (done ts : List Token) : Prop :=
  ∀ u ∈ done.getLast?, ∀ t ∈ ts.head?, IsQuantity g u → t.isKind .identifier = false

def Ready (g : Grammar) (st : Store) (full : List Token) (s : ParserState) : Prop :=
  ∃ done ts, At g st full s done ts ∧ IsFresh g done ts

def Stopped (g : Grammar) (st : Store) (full : List Token) (f : Fault) (s : ParserState) : Prop :=
  ∃ done ts, full = done ++ ts
    ∧ (∃ names, Store.Gains g.scope (ReadsVariable g done ts) st names s.store)
    ∧ (f ≠ .brokenSource → Upcoming s.tokens ts)

/-- The parser loses no name, and its result satisfies the condition. -/
def Names (g : Grammar) (st : Store) (full : List Token) (s : ParserState) (p : Parser α)
    (Q : α → ParserState → Prop) : Prop :=
  match p g s with
  | .ok a s' => s.store.Keeps g.scope s'.store ∧ Q a s'
  | .error f s' => Stopped g st full f s'

def Resolved (g : Grammar) (st : Store) (full : List Token) (e : Expr) (s : ParserState) : Prop :=
  Ready g st full s ∧ e.Everywhere (Expr.IsResolved s.store g.scope)

theorem At.stopped {f : Fault} (h : At g st full s done ts) : Stopped g st full f s :=
  ⟨done, ts, h.split, h.gains, fun _ => h.upcoming⟩

theorem Ready.stopped {f : Fault} (h : Ready g st full s) : Stopped g st full f s := by
  obtain ⟨done, ts, here, _⟩ := h
  exact here.stopped

section Tokens

theorem isKind_of_isSymbol {symbol : String} (h : t.isSymbol symbol) : t.isKind .symbol := by
  simp only [Token.isSymbol, Token.isTriggered, Bool.and_eq_true] at h
  exact h.1

theorem not_isQuantity_of_isKind {k : TokenKind} (is : t.isKind k)
    (other : k ≠ .integer ∧ k ≠ .decimal ∧ k ≠ .scientific) : ¬ IsQuantity g t := by
  rintro ⟨number, _⟩
  obtain rfl : t.kind = k := by simpa [Token.isKind] using is
  simp [Token.isNumber, other] at number

theorem cons_of_isFirst (first : IsFirst t ts) (more : t.isEnd = false) :
    ∃ later, ts = t :: later := by
  cases ts with
  | nil => exact nomatch more.symm.trans first
  | cons u later =>
    obtain rfl : t = u := first
    exact ⟨later, rfl⟩

theorem not_isEnd_of_isKind {k : TokenKind} (is : t.isKind k) (other : k ≠ .endOfInput) :
    t.isEnd = false := by
  obtain rfl : t.kind = k := by simpa [Token.isKind] using is
  simpa [Token.isEnd] using other

theorem isKind_eq_false {k k' : TokenKind} (is : t.isKind k) (other : k ≠ k') :
    t.isKind k' = false := by
  obtain rfl : t.kind = k := by simpa [Token.isKind] using is
  simpa [Token.isKind] using other

theorem isKind_of_isNumber (number : t.isNumber) : t.isKind .identifier = false := by
  rw [Token.isKind]
  rcases kind : t.kind with _ | _ | _ | _ | _ | _ | _ | _ | _ <;> simp_all [Token.isNumber]

theorem not_standsForVariable (other : t.isKind .identifier = false) :
    ¬ StandsForVariable g done t ts :=
  fun h => nomatch other.symm.trans h.isName

theorem eq_of_isFirst (first : IsFirst t ts) : ∀ v ∈ ts.head?, v = t := by
  cases ts with
  | nil => exact nofun
  | cons u later =>
    obtain rfl : t = u := first
    simp

theorem isFresh_append (plain : ¬ IsQuantity g t) (ts : List Token) :
    IsFresh g (done ++ [t]) ts := by
  intro u hu v _ quantity
  rw [List.getLast?_concat] at hu
  obtain rfl := Option.mem_some.mp hu
  exact absurd quantity plain

end Tokens

namespace Names

variable {p : Parser α} {f : α → Parser β} {P Q : α → ParserState → Prop}
  {R : β → ParserState → Prop} {a : α}

theorem pure (post : Q a s) : Names g st full s (pure a) Q := ⟨fun _ _ found => found, post⟩

theorem throw {e : Fault} (stopped : Stopped g st full e s) :
    Names g st full s (throw e : Parser α) Q := stopped

theorem mono (h : Names g st full s p P) (weaker : ∀ a s', P a s' → Q a s') :
    Names g st full s p Q := by
  unfold Names at h ⊢
  cases run : p g s with
  | ok a s' =>
    rw [run] at h
    exact ⟨h.1, weaker a s' h.2⟩
  | error e s' =>
    rw [run] at h
    exact h

theorem bind (first : Names g st full s p P)
    (then_ : ∀ a s', s.store.Keeps g.scope s'.store → P a s' → Names g st full s' (f a) R) :
    Names g st full s (p >>= f) R := by
  unfold Names at first
  cases run : p g s with
  | error e s' =>
    rw [run] at first
    unfold Names
    rw [bind_of_error run]
    exact first
  | ok a s' =>
    rw [run] at first
    have second := then_ a s' first.1 first.2
    unfold Names at second ⊢
    rw [bind_of_ok run]
    cases run' : f a g s' with
    | error e s'' =>
      rw [run'] at second
      exact second
    | ok b s'' =>
      rw [run'] at second
      exact ⟨fun name v found => second.1 name v (first.1 name v found), second.2⟩

theorem read {k : Grammar → Parser β} (then_ : Names g st full s (k g) R) :
    Names g st full s (read >>= k) R := then_

theorem onTokens {m : EStateM Fault TokenStream α} (here : At g st full s done ts)
    (ran : ∀ a v, m s.tokens = .ok a v → Q a { s with tokens := v })
    (failed : ∀ e v, m s.tokens = .error e v → e = .brokenSource) :
    Names g st full s (onTokens m) Q := by
  unfold Names Parser.onTokens
  cases run : m s.tokens with
  | ok a v => exact ⟨fun _ _ found => found, ran a v run⟩
  | error e v =>
    exact ⟨done, ts, here.split, here.gains, fun other => absurd (failed e v run) other⟩

section Steps

variable (here : At g st full s done ts)
include here

theorem look (n : Nat) : Names g st full s (Parser.onTokens (Lookahead.at? n)) fun t s' =>
    At g st full s' done ts ∧ IsFirst t (ts.drop n) := by
  refine onTokens here (fun t v run => ?_) fun e v run => ?_
  · obtain ⟨upcoming, first⟩ := here.upcoming.at? run
    exact ⟨⟨here.split, upcoming, here.gains, here.named⟩, first⟩
  · exact here.upcoming.eq_brokenSource (Lookahead.breaks_of_at? run)

theorem current : Names g st full s current fun t s' => At g st full s' done ts ∧ IsFirst t ts :=
  look here 0

theorem next : Names g st full s next fun u s' => At g st full s' done ts ∧ IsFirst u (ts.drop 1) :=
  look here 1

theorem complain (t : Token) (text : String) :
    Names g st full s (complain t text) fun _ s' => At g st full s' done ts := by
  refine onTokens here (fun _ v run => ?_) fun e v run => nomatch run
  cases run
  exact ⟨here.split, here.upcoming.report _, here.gains, here.named⟩

end Steps

theorem take (here : At g st full s done (t :: ts)) :
    Names g st full s consume fun u s' => u = t ∧ Upcoming s'.tokens ts ∧ s'.store = s.store := by
  refine onTokens here (fun u v run => ?_) fun e v run => ?_
  · obtain ⟨upcoming, first⟩ := here.upcoming.consume run
    exact ⟨first, upcoming, rfl⟩
  · exact here.upcoming.eq_brokenSource (TokenStream.breaks_of_consume run)

theorem consume (here : At g st full s done (t :: ts)) (other : ¬ StandsForVariable g done t ts) :
    Names g st full s consume fun u s' => u = t ∧ At g st full s' (done ++ [t]) ts := by
  refine (take here).mono fun u s' ⟨same, upcoming, store⟩ => ?_
  obtain ⟨names, gains⟩ := here.gains
  refine ⟨same, by simp [here.split], upcoming, ⟨names, ?_⟩, store ▸ here.named⟩
  rw [store]
  refine gains.congr fun name => ?_
  rw [readsVariable_append]
  exact or_iff_left fun h => other h.1

theorem consume_end (here : At g st full s done []) :
    Names g st full s Parser.consume fun _ s' => At g st full s' done [] := by
  refine onTokens here (fun u v run => ?_) fun e v run => ?_
  · exact ⟨here.split, (here.upcoming.consume run).1, here.gains, here.named⟩
  · exact here.upcoming.eq_brokenSource (TokenStream.breaks_of_consume run)

theorem dropSymbol (here : At g st full s done ts) (first : IsFirst t ts)
    (symbol : t.isKind .symbol) :
    Names g st full s (discard Parser.consume) fun _ s' => Ready g st full s' := by
  obtain ⟨later, rfl⟩ := cons_of_isFirst first (not_isEnd_of_isKind symbol (by decide))
  have plain : ¬ IsQuantity g t := not_isQuantity_of_isKind symbol (by decide)
  refine (consume here (not_standsForVariable (isKind_eq_false symbol (by decide)))).bind ?_
  rintro u s₁ - ⟨rfl, here₁⟩
  exact .pure ⟨done ++ [u], later, here₁, isFresh_append plain later⟩

theorem expect (ready : Ready g st full s) (symbol : String) :
    Names g st full s (expect symbol) fun _ s' => Ready g st full s' := by
  obtain ⟨done, ts, here, fresh⟩ := ready
  refine (current here).bind fun t s₁ _ ⟨here₁, first⟩ => ?_
  split
  · rename_i is
    exact dropSymbol here₁ first (isKind_of_isSymbol is)
  · exact (complain here₁ t _).mono fun _ _ here₂ => ⟨done, ts, here₂, fresh⟩

theorem separator (ready : Ready g st full s) (isFirst : Bool) :
    Names g st full s (separator isFirst) fun _ s' => Ready g st full s' := by
  cases isFirst with
  | true => exact .pure ready
  | false => exact expect ready ","

theorem skipPlus (here : At g st full s done ts) (fresh : IsFresh g done ts)
    (before : Token → Bool) :
    Names g st full s (skipPlus before) fun _ s' => ∃ done' ts', At g st full s' done' ts'
    ∧ IsFresh g done' ts'
      ∧ (ts' = ts ∨ ∃ u, IsFirst u ts' ∧ before u) := by
  refine (current here).bind fun t s₁ _ ⟨here₁, first⟩ => ?_
  split
  · rename_i plus
    have symbol := isKind_of_isSymbol plus
    obtain ⟨later, rfl⟩ := cons_of_isFirst first (not_isEnd_of_isKind symbol (by decide))
    have plain : ¬ IsQuantity g t := not_isQuantity_of_isKind symbol (by decide)
    refine (next here₁).bind fun u s₂ _ ⟨here₂, second⟩ => ?_
    split
    · rename_i wanted
      refine (consume here₂ (not_standsForVariable (isKind_eq_false symbol (by decide)))).bind ?_
      rintro v s₃ - ⟨rfl, here₃⟩
      exact .pure ⟨done ++ [v], later, here₃, isFresh_append plain later, .inr ⟨u, second, wanted⟩⟩
    · exact .pure ⟨done, t :: later, here₂, fresh, .inl rfl⟩
  · exact .pure ⟨done, ts, here₁, fresh, .inl rfl⟩

theorem complain_constant (here : At g st full s done ts) (fresh : IsFresh g done ts)
    (t : Token) (text : String)
    (x : Value) : Names g st full s (do Parser.complain t text; return .constant x)
    (Resolved g st full) :=
  (complain here t text).bind fun _ _ _ here₁ => .pure ⟨⟨done, ts, here₁, fresh⟩, trivial⟩

theorem reject (here : At g st full s done ts)
    (noName : ∀ t ∈ ts.head?, t.isKind .identifier = false)
    (noNumber : ∀ t ∈ ts.head?, t.isNumber = false) :
    Names g st full s reject (Resolved g st full) := by
  cases ts with
  | nil => exact (consume_end here).bind fun u _ _ here₁ =>
    complain_constant here₁ (fun _ _ => nofun) u _ _
  | cons t later =>
    have plain : ¬ IsQuantity g t := fun quantity => nomatch (noNumber t rfl).symm.trans quantity.1
    refine (consume here (not_standsForVariable (noName t rfl))).bind ?_
    rintro u s₁ - ⟨rfl, here₁⟩
    exact complain_constant here₁ (isFresh_append plain later) u _ _

theorem ofExcept {x : Except Fault α} (here : At g st full s done ts) :
    Names g st full s (ofExcept x) fun _ s' => s' = s := by
  cases x with
  | ok a => exact .pure rfl
  | error e => exact .throw here.stopped

theorem quantified (here : At g st full s (done ++ [t]) ts)
    (quantity : IsQuantity g t) (x : Value) :
    Names g st full s (quantified x) (Resolved g st full) := by
  refine (current here).bind fun u s₁ _ ⟨here₁, first⟩ => ?_
  split
  · rename_i isName
    obtain ⟨later, rfl⟩ := cons_of_isFirst first (not_isEnd_of_isKind isName (by decide))
    have other : ¬ StandsForVariable g (done ++ [t]) u later :=
      fun h => h.noQuantifier t (by simp) quantity
    have fresh : IsFresh g (done ++ [t] ++ [u]) later :=
      isFresh_append (not_isQuantity_of_isKind isName (by decide)) later
    refine (consume here₁ other).bind ?_
    rintro v s₂ - ⟨rfl, here₂⟩
    split
    · refine .read ((ofExcept here₂).bind ?_)
      rintro y _ - rfl
      exact .pure ⟨⟨_, later, here₂, fresh⟩, trivial⟩
    · exact complain_constant here₂ fresh v _ x
  · rename_i other
    refine .pure ⟨⟨done ++ [t], ts, here₁, fun _ _ v hv _ => ?_⟩, trivial⟩
    rw [eq_of_isFirst first v hv]
    simpa using other

theorem number (here : At g st full s done ts)
    (noName : ∀ t ∈ ts.head?, t.isKind .identifier = false) :
    Names g st full s number (Resolved g st full) := by
  refine (current here).bind fun t s₁ _ ⟨here₁, first⟩ => ?_
  split
  · rename_i is
    obtain ⟨later, rfl⟩ := cons_of_isFirst first (not_isEnd_of_isNumber is)
    refine (consume here₁ (not_standsForVariable (noName t rfl))).bind ?_
    rintro u s₂ - ⟨rfl, here₂⟩
    refine .read (.read ?_)
    cases numeral : Value.ofNumeral g.mode g.bits u.content with
    | ok x => exact quantified here₂ ⟨is, x, numeral⟩ x
    | error e =>
      have plain : ¬ IsQuantity g u := fun ⟨_, x, value⟩ => nomatch numeral.symm.trans value
      split
      · rename_i same
        cases same
      · exact complain_constant here₂ (isFresh_append plain later) u _ _
      · exact .throw here₂.stopped
  · rename_i other
    refine reject here₁ noName fun v hv => ?_
    rw [eq_of_isFirst first v hv]
    simpa using other

theorem literal (here : At g st full s done ts) (fresh : IsFresh g done ts)
    (noName : ∀ t ∈ ts.head?, t.isKind .identifier = false) :
    Names g st full s literal (Resolved g st full) := by
  refine (skipPlus here fresh Token.isNumber).bind fun _ s₁ _ ⟨done', ts', here₁, _, read⟩ => ?_
  refine number here₁ fun v hv => ?_
  rcases read with rfl | ⟨u, first, isNumber⟩
  · exact noName v hv
  · rw [eq_of_isFirst first v hv]
    exact isKind_of_isNumber isNumber

theorem resolve (exist : g.scope < st.scopes.length) (here : At g st full s done (t :: ts))
    (is : StandsForVariable g done t ts) :
    Names g st full s (do Parser.resolve (← Parser.consume)) (Resolved g st full) := by
  have fresh : IsFresh g (done ++ [t]) ts :=
    isFresh_append (not_isQuantity_of_isKind is.isName (by decide)) ts
  have split : full = done ++ [t] ++ ts := by simp [here.split]
  obtain ⟨names, gains⟩ := here.gains
  have read (name : String) : ReadsVariable g (done ++ [t]) ts name ↔
      ReadsVariable g done (t :: ts) name ∨ name = t.content := by
    rw [readsVariable_append, and_iff_right is]
  refine (take here).bind ?_
  rintro u s₁ - ⟨rfl, upcoming, store⟩
  have got : (MonadState.get : Parser ParserState) g s₁ = .ok s₁ s₁ := rfl
  have asked : (MonadReader.read : Parser Grammar) g s₁ = .ok g s₁ := rfl
  unfold Names Parser.resolve
  rw [bind_of_ok got, bind_of_ok asked, store]
  have exist' : g.scope < s.store.scopes.length := by
    rw [gains.store, Store.length_gained]
    exact exist
  cases found : s.store.lookUp g.scope u.content with
  | ok out =>
    obtain ⟨v, store'⟩ := out
    obtain ⟨names', gains'⟩ := gains.lookUp exist found
    have named := here.named.lookUp found
    have known := Store.find?_lookUp exist' found
    have here₂ : At g st full { s₁ with store := store' } (done ++ [u]) ts :=
      ⟨split, upcoming, ⟨names', gains'.congr read⟩, named⟩
    refine ⟨Store.keeps_lookUp found, ⟨done ++ [u], ts, here₂, fresh⟩, ?_⟩
    change store'.find? g.scope (store'.var v).name = .ok (some v)
    rwa [named.find known]
  | error f =>
    -- the name was read as a variable, but its scope is strict and gains none
    have here₂ : At g st full s₁ (done ++ [u]) ts := by
      refine ⟨split, upcoming, ⟨names, ?_⟩, store ▸ here.named⟩
      rw [store]
      exact (gains.refuse exist found).congr read
    rcases Store.lookUp_fault found with ⟨rfl, _⟩ | ⟨rfl, _⟩
    · exact here₂.stopped
    · have zeroed : Names g st full s₁
          (do Parser.complain u ("Unknown variable: '" ++ u.content ++ "'"); zero)
          (Resolved g st full) :=
        (complain here₂ u _).bind fun _ _ _ here₃ => .read (.pure ⟨⟨_, ts, here₃, fresh⟩, trivial⟩)
      rw [← store]
      exact zeroed

end Names

section Rules

variable {operand rest self inner call : Parser Expr} {e : Expr}

def Rule.Resolves (g : Grammar) (st : Store) (full : List Token) (p : Parser Expr) : Prop :=
  ∀ s, Ready g st full s → Names g st full s p (Resolved g st full)

def CallResolves (g : Grammar) (st : Store) (full : List Token) (p : Parser Expr) : Prop :=
  ∀ s done t u ts, At g st full s done (t :: u :: ts) → u.isSymbol "("
    → Names g st full s p (Resolved g st full)

theorem kept (keeps : s.store.Keeps g.scope s'.store)
    (h : e.Everywhere (Expr.IsResolved s.store g.scope)) :
    e.Everywhere (Expr.IsResolved s'.store g.scope) := h.mono (Expr.IsResolved.keeps keeps)

theorem names_bracketed (inside : Rule.Resolves g st full inner) (here : At g st full s done ts)
    (first : IsFirst t ts) (symbol : t.isKind .symbol) :
    Names g st full s (bracketed inner) (Resolved g st full) := by
  refine (Names.dropSymbol here first symbol).bind fun _ s₁ _ ready₁ => ?_
  refine (inside s₁ ready₁).bind fun e s₂ _ ⟨ready₂, resolved⟩ => ?_
  refine (Names.expect ready₂ ")").bind fun _ s₃ keeps ready₃ => ?_
  exact .pure ⟨ready₃, Expr.everywhere_inBrackets (fun _ _ _ _ => trivial) (kept keeps resolved)⟩

theorem names_plainAtom (exist : g.scope < st.scopes.length)
    (inside : Rule.Resolves g st full inner)
    (calls : CallResolves g st full call) : Rule.Resolves g st full (plainAtom inner call) := by
  rintro s ⟨done, ts, here, fresh⟩
  refine (Names.current here).bind fun t s₁ _ ⟨here₁, first⟩ => ?_
  split
  · rename_i bracket
    exact names_bracketed inside here₁ first (isKind_of_isSymbol bracket)
  · split
    · rename_i bar
      refine (Names.dropSymbol here₁ first (isKind_of_isSymbol bar)).bind fun _ s₂ _ ready₂ => ?_
      refine (inside s₂ ready₂).bind fun e s₃ _ ⟨ready₃, resolved⟩ => ?_
      refine (Names.expect ready₃ "|").bind fun _ s₄ keeps ready₄ => ?_
      exact .pure ⟨ready₄, trivial, kept keeps resolved, trivial⟩
    · split
      · rename_i isName
        obtain ⟨later, rfl⟩ := cons_of_isFirst first (not_isEnd_of_isKind isName (by decide))
        refine (Names.next here₁).bind fun u s₂ _ ⟨here₂, second⟩ => ?_
        split
        · rename_i bracket
          obtain ⟨others, rfl⟩ :=
            cons_of_isFirst second (not_isEnd_of_isKind (isKind_of_isSymbol bracket) (by decide))
          exact calls s₂ done t u others here₂ bracket
        -- `fresh` says that the name does not follow a number, so it is no quantifier.
        · rename_i noBracket
          refine Names.resolve exist here₂ ⟨isName, fun v hv => ?_, fun v hv quantity => ?_⟩
          · rw [eq_of_isFirst second v hv]
            simpa using noBracket
          · exact nomatch (fresh v hv t rfl quantity).symm.trans isName
      · rename_i noName
        refine Names.literal here₁ fresh fun v hv => ?_
        rw [eq_of_isFirst first v hv]
        simpa using noName

theorem names_anyAtom (exist : g.scope < st.scopes.length) (again : Rule.Resolves g st full self)
    (inside : Rule.Resolves g st full inner) (calls : CallResolves g st full call) :
    Rule.Resolves g st full (anyAtom self inner call) := by
  rintro s ⟨done, ts, here, fresh⟩
  refine (Names.current here).bind fun t s₁ _ ⟨here₁, first⟩ => ?_
  split
  · rename_i minus
    refine (Names.dropSymbol here₁ first (isKind_of_isSymbol minus)).bind fun _ s₂ _ ready₂ => ?_
    refine .read ?_
    refine (again s₂ ready₂).bind fun e s₃ _ ⟨ready₃, resolved⟩ => ?_
    exact .pure ⟨ready₃, trivial, trivial, resolved⟩
  · refine (Names.skipPlus here₁ fresh _).bind fun _ s₂ _ ⟨done', ts', here₂, fresh₂, _⟩ => ?_
    exact names_plainAtom exist inside calls s₂ ⟨done', ts', here₂, fresh₂⟩

theorem names_argumentsWithin (inside : Rule.Resolves g st full inner) (fuel : Nat) (isFirst : Bool)
    (ready : Ready g st full s) :
    Names g st full s (argumentsWithin inner fuel isFirst) fun es s' =>
      Ready g st full s' ∧ Expr.AllEverywhere (Expr.IsResolved s'.store g.scope) es := by
  induction fuel generalizing s isFirst with
  | zero => exact .pure ⟨ready, trivial⟩
  | succ fuel ih =>
    obtain ⟨done, ts, here, fresh⟩ := ready
    refine (Names.current here).bind fun t s₁ _ ⟨here₁, first⟩ => ?_
    split
    · exact .pure ⟨⟨done, ts, here₁, fresh⟩, trivial⟩
    · refine (Names.separator ⟨done, ts, here₁, fresh⟩ isFirst).bind fun _ s₂ _ ready₂ => ?_
      refine (inside s₂ ready₂).bind fun e s₃ _ ⟨ready₃, resolved⟩ => ?_
      refine (ih false ready₃).bind fun es s₄ keeps ⟨ready₄, others⟩ => ?_
      exact .pure ⟨ready₄, kept keeps resolved, others⟩

theorem names_anyCall (inside : Rule.Resolves g st full inner) :
    CallResolves g st full (anyCall inner) := by
  intro s done t u ts here bracket
  -- The name of a call stands in front of a bracket, so it is read as no variable.
  have noCall : ¬ StandsForVariable g done t (u :: ts) :=
    fun h => nomatch (h.noCall u rfl).symm.trans bracket
  refine (Names.consume here noCall).bind ?_
  rintro v s₁ - ⟨rfl, here₁⟩
  have named : Names g st full s₁ (functionNamed v) fun _ s' =>
      At g st full s' (done ++ [v]) (u :: ts) := by
    refine .read ?_
    split
    · exact .pure here₁
    · exact (Names.complain here₁ v _).bind fun _ _ _ here₂ => .pure here₂
  refine named.bind fun f s₂ _ here₂ => ?_
  refine (Names.dropSymbol here₂ (t := u) rfl (isKind_of_isSymbol bracket)).bind
    fun _ s₃ _ ready₃ => ?_
  refine (names_argumentsWithin inside
    (s₃.tokens.buffer.length + s₃.tokens.source.reader.rest.length + 1) true
    ready₃ : Names g st full s₃ (arguments inner) _).bind fun es s₄ _ ⟨ready₄, resolved⟩ => ?_
  refine (Names.expect ready₄ ")").bind fun _ s₅ keeps ready₅ => ?_
  have resolved₅ : Expr.AllEverywhere (Expr.IsResolved s₅.store g.scope) es :=
    Expr.allEverywhere_iff.mpr fun e he => kept keeps (Expr.allEverywhere_iff.mp resolved e he)
  unfold checkedCall
  split
  · exact .pure ⟨ready₅, trivial⟩
  · split
    · exact .pure ⟨ready₅, trivial, resolved₅⟩
    · obtain ⟨done', ts', here₅, fresh₅⟩ := ready₅
      exact Names.complain_constant here₅ fresh₅ v _ _

theorem names_level (r : Rule) (first : Rule.Resolves g st full operand)
    (others : Rule.Resolves g st full rest) :
    Rule.Resolves g st full (level r operand rest) := by
  intro s ready
  refine (first s ready).bind fun x s₁ _ ⟨⟨done, ts, here₁, fresh₁⟩, hx⟩ => ?_
  refine (Names.current here₁).bind fun t s₂ keeps₂ ⟨here₂, isFirst⟩ => ?_
  have joined (op : Operator) {s₃ s₄ : ParserState} {y : Expr}
      (keeps₃ : s₂.store.Keeps g.scope s₃.store)
      (keeps₄ : s₃.store.Keeps g.scope s₄.store) (hy : Resolved g st full y s₄) :
      Resolved g st full (.reorder op x y) s₄ :=
    ⟨hy.1, Expr.everywhere_reorder
     (fun _ _ _ _ => trivial) op (kept keeps₄ (kept keeps₃ (kept keeps₂ hx))) hy.2⟩
  unfold afterOperand
  split
  · rename_i op is
    have symbol : t.isKind .symbol := by
      unfold operator? at is
      split at is
      · assumption
      · cases is
    refine (Names.dropSymbol here₂ isFirst symbol).bind fun _ s₃ keeps₃ ready₃ => ?_
    exact (others s₃ ready₃).bind fun y s₄ keeps₄ hy => .pure (joined op keeps₃ keeps₄ hy)
  · split
    · refine (others s₂ ⟨done, ts, here₂, fresh₁⟩).bind fun y s₃ keeps₃ hy => ?_
      exact .pure (joined .add (fun _ _ found => found) keeps₃ hy)
    · exact .pure ⟨⟨done, ts, here₂, fresh₁⟩, kept keeps₂ hx⟩

/-- Every rule resolves the names that it reads as variables, and the call of a function those in
its arguments. -/
theorem names_run (exist : g.scope < st.scopes.length) (d : Nat) :
    (∀ r, r ≠ .call → Rule.Resolves g st full (run d r))
    ∧ CallResolves g st full (run d .call) := by
  -- a call is only ready where a name and a bracket come next, so it has a condition of its own
  induction d with
  | zero =>
    exact ⟨fun _ _ _ ready => .throw ready.stopped, fun _ _ _ _ _ here _ => .throw here.stopped⟩
  | succ d ih =>
    obtain ⟨rules, calls⟩ := ih
    have below (r : Rule) (other : r ≠ .call) := rules r other
    refine ⟨fun r other => ?_, names_anyCall (below .expression (by decide))⟩
    cases r with
    | call => exact absurd rfl other
    | atom =>
      exact names_anyAtom exist (below .atom (by decide)) (below .expression (by decide)) calls
    | expression | relation | sum | product | power =>
      rw [run_level rfl]
      exact names_level _ (below _ (by decide)) (below _ (by decide))

end Rules

end Parser

end Formula
