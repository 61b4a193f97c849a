import Formula.Proofs.Expr.Parts
import Formula.Proofs.Lexer.Progress
import Formula.Proofs.Lookahead
import Formula.Proofs.Parser.Levels
import Formula.Proofs.Store.Lookup
import Formula.Proofs.Value.Numerals

/-! What a parser does, move by move, whether it comes to a result or to a fault: it looks ahead,
consumes, looks up names, and reports problems at tokens that it has in hand. Only that a call has a
wrong number of arguments is reported at a token which was consumed long before. The values in what
it returns are all written in the text, or those of constant variables that have a name in the
scope. -/
namespace Formula

/-- The constant variables that have a name in the scope have values that satisfy `P`. -/
def Store.FixesOnly (P : Value → Prop) (st : Store) (s : ScopeId) : Prop :=
  ∀ name v a, st.find? s name = .ok (some v) → st.fixed? v = some a → P a

theorem Store.FixesOnly.mono {P Q : Value → Prop} {st : Store} {s : ScopeId}
    (only : st.FixesOnly P s) (weaker : ∀ v, P v → Q v) : st.FixesOnly Q s :=
  fun name v a found fixed => weaker a (only name v a found fixed)

theorem Store.fixesOnly_of_vars {P : Value → Prop} {st : Store}
    (h : ∀ x ∈ st.vars, x.isConstant → P x.value) (s : ScopeId) : st.FixesOnly P s := by
  intro name v a _ fixed
  obtain ⟨constant, rfl⟩ := fixed?_eq_some.mp fixed
  unfold var at constant ⊢
  rw [List.getD_eq_getElem?_getD] at constant ⊢
  cases known : st.vars[v]? with
  | none =>
    rw [known] at constant
    cases constant
  | some x =>
    rw [known] at constant
    exact h x (List.mem_of_getElem? known) constant

theorem Store.fixed?_lookUp {st st' : Store} {s : ScopeId} {name : String} {v : VariableId}
    (h : st.lookUp s name = .ok (v, st')) : st'.fixed? = st.fixed? := by
  rcases lookUp_cases h with ⟨_, rfl⟩ | ⟨new, _, made⟩
  · rfl
  · rw [create_eq (local?_eq_none new)] at made
    obtain ⟨_, rfl⟩ := Prod.mk.inj made
    funext w
    simp only [fixed?, var_extended]
    split
    · rename_i last
      have fresh : st.var w = default := by
        simp [var, last, List.getD_eq_getElem?_getD]
      rw [fresh]
      rfl
    · rfl

theorem Store.fixesOnly_lookUp {P : Value → Prop} {st st' : Store} {s : ScopeId} {name : String}
    {v : VariableId} (only : st.FixesOnly P s) (h : st.lookUp s name = .ok (v, st')) :
    st'.FixesOnly P s ∧ ∀ a, st.fixed? v = some a → P a := by
  have same := fixed?_lookUp h
  rcases lookUp_cases h with ⟨found, rfl⟩ | ⟨new, _, made⟩
  · exact ⟨only, fun a fixed => only name v a found fixed⟩
  · rw [create_eq (local?_eq_none new)] at made
    obtain ⟨rfl, rfl⟩ := Prod.mk.inj made
    have fresh (a : Value) : st.fixed? st.vars.length ≠ some a := by
      intro fixed
      rw [← same] at fixed
      simp [fixed?, var_extended] at fixed
    constructor
    · intro other w a found fixed
      rw [same] at fixed
      by_cases new' : other = name
      · subst new'
        obtain rfl := eq_of_find?_extended new found
        exact absurd fixed (fresh a)
      · rw [find?_extended_other new'] at found
        exact only other w a found fixed
    · exact fun a fixed => absurd fixed (fresh a)

theorem TokenStream.ne_endless_of_breaks {s : TokenStream} {f : Fault} (h : s.Breaks f) :
    f ≠ .endless := by
  obtain ⟨s', l, _, _, failed⟩ := h
  rintro rfl
  cases Lexer.next_fails failed with
  | inl broken => cases broken
  | inr kind => cases kind

namespace Parser

inductive IsSyntactic : Problem → Prop
  | expected (at_ : Position) (found symbol : String) :
      IsSyntactic ⟨.error, at_, "Unexpected token '" ++ found ++ "'. Expected: '" ++ symbol ++ "'"⟩
  | operand (at_ : Position) (found : String) :
      IsSyntactic ⟨.error, at_, "Unexpected token: '" ++ found ++ "'. Expected an expression."⟩
  | quantifier (at_ : Position) (found : String) :
      IsSyntactic ⟨.error, at_, "Unexpected token: '" ++ found ++ "'. Expected a valid quantifier."⟩
  | number (at_ : Position) (found : String) :
      IsSyntactic ⟨.error, at_, "Invalid number: '" ++ found ++ "'"⟩
  | variable (at_ : Position) (name : String) :
      IsSyntactic ⟨.error, at_, "Unknown variable: '" ++ name ++ "'"⟩
  | function (at_ : Position) (name : String) :
      IsSyntactic ⟨.error, at_, "Unknown function: '" ++ name ++ "'"⟩
  | depth (at_ : Position) : IsSyntactic ⟨.error, at_, "Expression is nested too deeply."⟩

inductive IsMiscount : Problem → Prop
  | arguments (at_ : Position) (name expected found : String) :
      IsMiscount ⟨.error, at_,
        "Number of arguments for function '" ++ name ++ "' do not match. Expected: "
        ++ expected ++ ", Found: " ++ found⟩

def reported (s : ParserState) (p : Problem) : ParserState :=
  { s with tokens := s.tokens.mapLexer (·.report p) }

variable {α β : Type} {g : Grammar} {o s s' s'' : ParserState} {t : Token} {p : Problem}

/-- A parser leads from one state to another. -/
inductive Moves (g : Grammar) : ParserState → ParserState → Prop
  | none {s : ParserState} : Moves g s s
  | trans {s s' s'' : ParserState} (first : Moves g s s') (second : Moves g s' s'') : Moves g s s''
  | look {s : ParserState} {n : Nat} {t : Token} {ts : TokenStream}
      (run : Lookahead.at? n s.tokens = .ok t ts) :
      Moves g s { s with tokens := ts }
  | take {s : ParserState} {t : Token} {ts : TokenStream}
      (run : TokenStream.consume s.tokens = .ok t ts) :
      Moves g s { s with tokens := ts }
  | stuck {s : ParserState} {f : Fault} {ts : TokenStream} (breaks : s.tokens.Breaks f) :
      Moves g s { s with tokens := ts }
  | reject {s : ParserState} {t : Token} {ts : TokenStream} {p : Problem}
      (run : TokenStream.consume s.tokens = .ok t ts) (wrong : IsSyntactic p)
      (place : p.position = t.position) :
      Moves g s (reported { s with tokens := ts } p)
  | miss {s : ParserState} {t : Token} {ts : TokenStream} {p : Problem}
      (run : TokenStream.current s.tokens = .ok t ts) (wrong : IsSyntactic p)
      (place : p.position = t.position) :
      Moves g s (reported { s with tokens := ts } p)
  | miscount {s s' : ParserState} {t : Token} {ts : TokenStream} {p : Problem}
      (run : TokenStream.consume s.tokens = .ok t ts) (call : Moves g { s with tokens := ts } s')
      (wrong : IsMiscount p) (place : p.position = t.position) : Moves g s (reported s' p)
  | name {s : ParserState} {v : VariableId} {st : Store} {name : String}
      (found : s.store.lookUp g.scope name = .ok (v, st)) : Moves g s { s with store := st }

def Taken (g : Grammar) (o : ParserState) (t : Token) (s : ParserState) : Prop :=
  ∃ s₀ ts, Moves g o s₀ ∧ TokenStream.consume s₀.tokens = .ok t ts ∧ s = { s₀ with tokens := ts }

def Shown (g : Grammar) (o : ParserState) (t : Token) (s : ParserState) : Prop :=
  ∃ s₀ ts, Moves g o s₀ ∧ TokenStream.current s₀.tokens = .ok t ts ∧ s = { s₀ with tokens := ts }

theorem Taken.moves (h : Taken g o t s) : Moves g o s := by
  obtain ⟨s₀, ts, before, run, rfl⟩ := h
  exact before.trans (.take run)

theorem Taken.reject (h : Taken g o t s) (wrong : IsSyntactic p) (place : p.position = t.position) :
    Moves g o (reported s p) := by
  obtain ⟨s₀, ts, before, run, rfl⟩ := h
  exact before.trans (.reject run wrong place)

theorem Shown.miss (h : Shown g o t s) (wrong : IsSyntactic p) (place : p.position = t.position) :
    Moves g o (reported s p) := by
  obtain ⟨s₀, ts, before, run, rfl⟩ := h
  exact before.trans (.miss run wrong place)

theorem Taken.miscount (h : Taken g o t s) (call : Moves g s s') (wrong : IsMiscount p)
    (place : p.position = t.position) : Moves g o (reported s' p) := by
  obtain ⟨s₀, ts, before, run, rfl⟩ := h
  exact before.trans (.miscount run call wrong place)

theorem Moves.fixed? (h : Moves g s s') : s'.store.fixed? = s.store.fixed? := by
  induction h with
  | none | look | take | stuck | reject | miss => rfl
  | trans _ _ ih ih' => exact ih'.trans ih
  | miscount _ _ _ _ ih => exact ih
  | name found => exact Store.fixed?_lookUp found

theorem Moves.fixesOnly {P : Value → Prop} (h : Moves g s s') (only : s.store.FixesOnly P g.scope) :
    s'.store.FixesOnly P g.scope := by
  induction h with
  | none | look | take | stuck | reject | miss => exact only
  | trans _ _ ih ih' => exact ih' (ih only)
  | miscount _ _ _ _ ih => exact ih only
  | name found => exact (Store.fixesOnly_lookUp only found).1

theorem Moves.ends (h : Moves g s s') (ends : s.store.Ends g.scope) : s'.store.Ends g.scope := by
  induction h with
  | none | look | take | stuck | reject | miss => exact ends
  | trans _ _ ih ih' => exact ih' (ih ends)
  | miscount _ _ _ _ ih => exact ih ends
  | name found => exact (Store.follows_lookUp found).ends ends

/-- A text is rejected for all problems that were found in it, unless a token could not be read, and
a name is only searched without end if the chain of scopes has none. -/
inductive Excused (g : Grammar) (o : ParserState) (f : Fault) (s : ParserState) : Prop
  | other (no : ∀ ps, f ≠ .rejected ps) (searched : f = .endless → ¬ o.store.Ends g.scope)
  | problems (all : f = .rejected s.tokens.problems)
  | stuck {s' : ParserState} (moves : Moves g o s') (breaks : s'.tokens.Breaks f)

theorem Excused.after {f : Fault} (moves : Moves g o s) (h : Excused g s f s') :
    Excused g o f s' := by
  cases h with
  | other no searched => exact .other no fun is ends => searched is (moves.ends ends)
  | problems all => exact .problems all
  | stuck more breaks => exact .stuck (moves.trans more) breaks

/-- From a state that was reached the parser leads on, and a result satisfies the condition. -/
def Goes (g : Grammar) (o s : ParserState) (p : Parser α) (Q : α → ParserState → Prop) : Prop :=
  match p g s with
  | .ok a s' => Moves g o s' ∧ Q a s'
  | .error f s' => Moves g o s' ∧ Excused g o f s'

namespace Goes

variable {P Q : α → ParserState → Prop} {R : β → ParserState → Prop} {p : Parser α}
  {f : α → Parser β} {a : α}

theorem pure (moves : Moves g o s) (post : Q a s) : Goes g o s (pure a) Q := ⟨moves, post⟩

theorem throw {f : Fault} (moves : Moves g o s) (excused : Excused g o f s) :
    Goes g o s (throw f) Q :=
  ⟨moves, excused⟩

theorem of_ok (run : p g s = .ok a s') (moves : Moves g o s') (post : Q a s') : Goes g o s p Q := by
  unfold Goes
  rw [run]
  exact ⟨moves, post⟩

theorem of_error {f : Fault} (run : p g s = .error f s') (moves : Moves g o s')
    (excused : Excused g o f s') :
    Goes g o s p Q := by
  unfold Goes
  rw [run]
  exact ⟨moves, excused⟩

theorem ok (h : Goes g o s p Q) (run : p g s = .ok a s') : Moves g o s' ∧ Q a s' := by
  unfold Goes at h
  rwa [run] at h

theorem error {f : Fault} (h : Goes g o s p Q) (run : p g s = .error f s') :
    Moves g o s' ∧ Excused g o f s' := by
  unfold Goes at h
  rwa [run] at h

theorem bind_from (moves : Moves g o s') (first : Goes g s' s p P)
    (then_ : ∀ a s'', Moves g s' s'' → P a s'' → Goes g o s'' (f a) R) :
    Goes g o s (p >>= f) R := by
  cases run : p g s with
  | ok a s'' =>
    obtain ⟨after, post⟩ := first.ok run
    unfold Goes
    rw [bind_of_ok run]
    exact then_ a s'' after post
  | error e s'' =>
    obtain ⟨after, excused⟩ := first.error run
    exact .of_error (bind_of_error run f) (moves.trans after) (excused.after moves)

theorem bind (first : Goes g o s p P)
    (then_ : ∀ a s', Moves g o s' → P a s' → Goes g o s' (f a) R) :
    Goes g o s (p >>= f) R := bind_from .none first then_

theorem recover {handler : Fault → Parser α} (first : Goes g o s p Q)
    (handle : ∀ e s', Moves g o s' → Excused g o e s' → Goes g o s' (handler e) Q) :
    Goes g o s (tryCatch p handler) Q := by
  cases run : p g s with
  | ok a s' =>
    obtain ⟨moves, post⟩ := first.ok run
    exact .of_ok (tryCatch_of_ok run handler) moves post
  | error e s' =>
    obtain ⟨moves, excused⟩ := first.error run
    unfold Goes
    rw [tryCatch_of_error run]
    exact handle e s' moves excused

theorem read {f : Grammar → Parser β} (then_ : Goes g o s (f g) R) : Goes g o s (read >>= f) R :=
  then_

theorem get {f : ParserState → Parser β} (then_ : Goes g o s (f s) R) : Goes g o s (get >>= f) R :=
  then_

end Goes

section Steps

theorem goes_current (moves : Moves g o s) : Goes g o s current (Shown g o) := by
  unfold Goes current onTokens
  cases run : TokenStream.current s.tokens with
  | ok t ts => exact ⟨moves.trans (.look run), s, ts, moves, run, rfl⟩
  | error f ts =>
    have breaks := Lookahead.breaks_of_at? run
    exact ⟨moves.trans (.stuck breaks), .stuck moves breaks⟩

theorem goes_next (moves : Moves g o s) : Goes g o s next fun _ _ => True := by
  unfold Goes next onTokens
  cases run : TokenStream.next s.tokens with
  | ok t ts => exact ⟨moves.trans (.look run), trivial⟩
  | error f ts =>
    have breaks := Lookahead.breaks_of_at? run
    exact ⟨moves.trans (.stuck breaks), .stuck moves breaks⟩

theorem goes_consume (moves : Moves g o s) : Goes g o s consume (Taken g o) := by
  unfold Goes consume onTokens
  cases run : TokenStream.consume s.tokens with
  | ok t ts => exact ⟨moves.trans (.take run), s, ts, moves, run, rfl⟩
  | error f ts =>
    have breaks := TokenStream.breaks_of_consume run
    exact ⟨moves.trans (.stuck breaks), .stuck moves breaks⟩

theorem goes_drop (moves : Moves g o s) : Goes g o s (discard consume) fun _ _ => True :=
  (goes_consume moves).bind fun _ _ moves _ => .pure moves trivial

theorem goes_complain {text : String} (moves : Moves g o (reported s ⟨.error, t.position, text⟩)) :
    Goes g o s (complain t text) fun _ _ => True := ⟨moves, trivial⟩

theorem goes_expect (moves : Moves g o s) (symbol : String) :
    Goes g o s (expect symbol) fun _ _ => True := by
  refine (goes_current moves).bind fun t s₁ moves₁ shown => ?_
  split
  · exact goes_drop moves₁
  · exact goes_complain (shown.miss (.expected _ _ _) rfl)

theorem goes_skipPlus (moves : Moves g o s) (before : Token → Bool) :
    Goes g o s (skipPlus before) fun _ _ => True := by
  refine (goes_current moves).bind fun t s₁ moves₁ _ => ?_
  split
  · refine (goes_next moves₁).bind fun u s₂ moves₂ _ => ?_
    split
    · exact goes_drop moves₂
    · exact .pure moves₂ trivial
  · exact .pure moves₁ trivial

theorem goes_separator (moves : Moves g o s) (isFirst : Bool) :
    Goes g o s (separator isFirst) fun _ _ => True := by
  cases isFirst with
  | true => exact .pure moves trivial
  | false => exact goes_expect moves ","

end Steps

/-- A condition that holds of all values that a text may name. -/
structure Admits (g : Grammar) (P : Value → Prop) : Prop where
  invalid : P .invalid
  zero : P (.zero g.mode)
  numeral : ∀ text v, Value.ofNumeral g.mode g.bits text = .ok v → P v
  scaled : ∀ text v name n w, Value.ofNumeral g.mode g.bits text = .ok v → (name, n) ∈ quantifiers →
    scaled g.bits v n = .ok w → P w

def IsReadNode (g : Grammar) (P : Value → Prop) (fixed : VariableId → Option Value) : Expr → Prop
  | .constant v => P v
  | .reference v _ => ∀ a, fixed v = some a → P a
  | .binary .. => True
  | .call f name args =>
    (f = .absolute ∧ name = "abs" ∨ g.functions.get? name = some f) ∧ f.accepts args.length

def IsRead (g : Grammar) (P : Value → Prop) (o : ParserState) (e : Expr) : Prop :=
  e.Everywhere (IsReadNode g P o.store.fixed?)

def AreRead (g : Grammar) (P : Value → Prop) (o : ParserState) (es : List Expr) : Prop :=
  Expr.AllEverywhere (IsReadNode g P o.store.fixed?) es

section Rules

variable {P : Value → Prop} {operand more self inner call : Parser Expr} {e : Expr}
  {es : List Expr} {v : Value}

theorem IsRead.reorder {l r : Expr} (hl : IsRead g P o l) (hr : IsRead g P o r) (op : Operator) :
    IsRead g P o (.reorder op l r) :=
  Expr.everywhere_reorder (fun _ _ _ _ => trivial) op hl hr

def Rule.Goes (g : Grammar) (P : Value → Prop) (p : Parser Expr) : Prop :=
  ∀ o s, o.store.FixesOnly P g.scope → Moves g o s → Parser.Goes g o s p fun e _ => IsRead g P o e

section Atoms

variable (admits : Admits g P)
include admits

theorem goes_zero (moves : Moves g o s) : Goes g o s zero fun e _ => IsRead g P o e :=
  .read (.pure moves admits.zero)

theorem goes_reject_empty {text : String} (taken : Taken g o t s)
    (wrong : IsSyntactic ⟨.error, t.position, text⟩) :
    Goes g o s (do complain t text; return .empty) fun e _ => IsRead g P o e :=
  (goes_complain (taken.reject wrong rfl)).bind fun _ _ moves _ => .pure moves admits.invalid

theorem goes_reject (moves : Moves g o s) : Goes g o s reject fun e _ => IsRead g P o e :=
  (goes_consume moves).bind fun _ _ _ taken => goes_reject_empty admits taken (.operand _ _)

theorem goes_quantified {text : String} (moves : Moves g o s)
    (numeral : Value.ofNumeral g.mode g.bits text = .ok v) :
    Goes g o s (quantified v) fun e _ => IsRead g P o e := by
  refine (goes_current moves).bind fun t s₁ moves₁ _ => ?_
  split
  · refine (goes_consume moves₁).bind fun u s₂ moves₂ taken => ?_
    split
    · rename_i n known
      refine .read ?_
      have member := mem_of_lookup known
      obtain ⟨w, product, _⟩ :=
        scaled_number (p := g.bits) member (Value.ofNumeral_isLiteral numeral)
      rw [product]
      exact .pure moves₂ (admits.scaled text v _ n w numeral member product)
    · refine (goes_complain (taken.reject (.quantifier _ _) rfl)).bind fun _ _ moves₃ _ => ?_
      exact .pure moves₃ (admits.numeral text v numeral)
  · exact .pure moves₁ (admits.numeral text v numeral)

theorem goes_number (moves : Moves g o s) : Goes g o s number fun e _ => IsRead g P o e := by
  refine (goes_current moves).bind fun t s₁ moves₁ _ => ?_
  split
  · refine (goes_consume moves₁).bind fun u s₂ moves₂ taken => .read (.read ?_)
    split
    · rename_i v numeral
      exact goes_quantified admits moves₂ numeral
    · exact goes_reject_empty admits taken (.number _ _)
    · rename_i numeral
      have numeric := Value.isNumeric_of_ofNumeral numeral
      refine .throw moves₂ (.other ?_ ?_)
      · rintro ps rfl
        cases numeric
      · rintro rfl
        cases numeric
  · exact goes_reject admits moves₁

theorem goes_literal (moves : Moves g o s) : Goes g o s literal fun e _ => IsRead g P o e :=
  (goes_skipPlus moves _).bind fun _ _ moves₁ _ => goes_number admits moves₁

theorem goes_resolve (only : o.store.FixesOnly P g.scope) (taken : Taken g o t s) :
    Goes g o s (resolve t) fun e _ => IsRead g P o e := by
  refine .get (.read ?_)
  split
  · rename_i v st found
    refine .of_ok rfl (taken.moves.trans (.name found)) ?_
    have named := (Store.fixesOnly_lookUp (taken.moves.fixesOnly only) found).2
    rwa [taken.moves.fixed?] at named
  · refine (goes_complain (taken.reject (.variable _ _) rfl)).bind fun _ _ moves _ => ?_
    exact goes_zero admits moves
  · rename_i failed
    refine .throw taken.moves ?_
    rcases Store.lookUp_fault failed with ⟨rfl, endless⟩ | ⟨rfl, _⟩
    · refine .other nofun fun _ ends => ?_
      obtain ⟨w, found⟩ := (taken.moves.ends ends).find? t.content
      cases endless.symm.trans found
    · exact .other nofun nofun

omit admits in
theorem goes_bracketed (only : o.store.FixesOnly P g.scope) (moves : Moves g o s)
    (inside : Rule.Goes g P inner) :
    Goes g o s (bracketed inner) fun e _ => IsRead g P o e := by
  refine (goes_drop moves).bind fun _ _ moves₁ _ => ?_
  refine (inside _ _ only moves₁).bind fun e _ moves₂ read => ?_
  refine (goes_expect moves₂ ")").bind fun _ _ moves₃ _ => ?_
  exact .pure moves₃ (Expr.everywhere_inBrackets (fun _ _ _ _ => trivial) read)

theorem goes_plainAtom (only : o.store.FixesOnly P g.scope) (moves : Moves g o s)
    (inside : Rule.Goes g P inner)
    (calls : Rule.Goes g P call) : Goes g o s (plainAtom inner call) fun e _ => IsRead g P o e := by
  refine (goes_current moves).bind fun t _ moves₁ _ => ?_
  split
  · exact goes_bracketed only moves₁ inside
  · split
    · refine (goes_drop moves₁).bind fun _ _ moves₂ _ => ?_
      refine (inside _ _ only moves₂).bind fun e _ moves₃ read => ?_
      refine (goes_expect moves₃ "|").bind fun _ _ moves₄ _ => ?_
      exact .pure moves₄ ⟨⟨.inl ⟨rfl, rfl⟩, rfl⟩, read, trivial⟩
    · split
      · refine (goes_next moves₁).bind fun u _ moves₂ _ => ?_
        split
        · exact calls _ _ only moves₂
        · exact (goes_consume moves₂).bind fun _ _ _ taken => goes_resolve admits only taken
      · exact goes_literal admits moves₁

theorem goes_anyAtom (only : o.store.FixesOnly P g.scope) (moves : Moves g o s)
    (again : Rule.Goes g P self) (inside : Rule.Goes g P inner) (calls : Rule.Goes g P call) :
    Goes g o s (anyAtom self inner call) fun e _ => IsRead g P o e := by
  refine (goes_current moves).bind fun t _ moves₁ _ => ?_
  split
  · refine (goes_drop moves₁).bind fun _ _ moves₂ _ => ?_
    refine (goes_zero admits moves₂).bind fun z _ moves₃ hz => ?_
    refine (again _ _ only moves₃).bind fun e _ moves₄ read => ?_
    exact .pure moves₄ ⟨trivial, hz, read⟩
  · exact (goes_skipPlus moves₁ _).bind fun _ _ moves₂ _ =>
      goes_plainAtom admits only moves₂ inside calls

end Atoms

theorem goes_argumentsWithin (inside : Rule.Goes g P inner)
    (only : o.store.FixesOnly P g.scope) (fuel : Nat) (isFirst : Bool) (moves : Moves g o s) :
    Goes g o s (argumentsWithin inner fuel isFirst) fun es _ => AreRead g P o es := by
  induction fuel generalizing s isFirst with
  | zero => exact .pure moves trivial
  | succ fuel ih =>
    refine (goes_current moves).bind fun t _ moves₁ _ => ?_
    split
    · exact .pure moves₁ trivial
    · refine (goes_separator moves₁ isFirst).bind fun _ _ moves₂ _ => ?_
      refine (inside _ _ only moves₂).bind fun e _ moves₃ read => ?_
      refine (ih false moves₃).bind fun es _ moves₄ others => ?_
      exact .pure moves₄ ⟨read, others⟩

theorem goes_arguments (inside : Rule.Goes g P inner) (only : o.store.FixesOnly P g.scope)
    (moves : Moves g o s) :
    Goes g o s (arguments inner) fun es _ => AreRead g P o es :=
  .get (goes_argumentsWithin inside only _ true moves)

theorem goes_functionNamed (taken : Taken g o t s) :
    Goes g o s (functionNamed t) fun f s' =>
      f = none ∨ s' = s ∧ ∃ f', f = some f' ∧ g.functions.get? t.content = some f' := by
  refine .read ?_
  split
  · rename_i f known
    exact .pure taken.moves (.inr ⟨rfl, f, rfl, known⟩)
  · exact (goes_complain (taken.reject (.function _ _) rfl)).bind fun _ _ moves _ =>
      .pure moves (.inl rfl)

theorem goes_checkedCall {f : Function} (admits : Admits g P) (taken : Taken g o t s)
    (moves : Moves g s s') (known : g.functions.get? t.content = some f) (read : AreRead g P s es) :
    Goes g o s' (checkedCall t (some f) es) fun e _ => IsRead g P o e := by
  unfold checkedCall
  dsimp only
  split
  · rename_i fits
    refine .pure (taken.moves.trans moves) ⟨⟨.inr known, fits⟩, ?_⟩
    unfold AreRead at read
    rwa [taken.moves.fixed?] at read
  · refine (goes_complain (taken.miscount moves ?_ rfl)).bind fun _ _ moves _ =>
      .pure moves admits.invalid
    simpa [String.append_assoc] using IsMiscount.arguments t.position t.content _ _

theorem goes_anyCall (admits : Admits g P) (only : o.store.FixesOnly P g.scope)
    (moves : Moves g o s)
    (inside : Rule.Goes g P inner) : Goes g o s (anyCall inner) fun e _ => IsRead g P o e := by
  refine (goes_consume moves).bind fun t s₁ moves₁ taken => ?_
  refine (goes_functionNamed taken).bind fun f s₂ moves₂ named => ?_
  -- the rest is followed from here on: a miscount goes back to the name that was just consumed
  refine .bind_from moves₂ (goes_drop .none) fun _ s₃ moves₃ _ => ?_
  have only₂ := moves₂.fixesOnly only
  refine .bind_from moves₂ (goes_arguments inside only₂ moves₃) fun args s₄ moves₄ read => ?_
  refine .bind_from moves₂ (goes_expect moves₄ ")") fun _ s₅ moves₅ _ => ?_
  rcases named with rfl | ⟨rfl, f, rfl, known⟩
  · exact .pure (moves₂.trans moves₅) admits.invalid
  · exact goes_checkedCall admits taken moves₅ known read

theorem goes_level (r : Rule) (only : o.store.FixesOnly P g.scope) (moves : Moves g o s)
    (first : Rule.Goes g P operand) (others : Rule.Goes g P more) :
    Goes g o s (level r operand more) fun e _ => IsRead g P o e := by
  refine (first _ _ only moves).bind fun x _ moves₁ hx => ?_
  refine (goes_current moves₁).bind fun t _ moves₂ _ => ?_
  unfold afterOperand
  split
  · rename_i op _
    refine (goes_drop moves₂).bind fun _ _ moves₃ _ => ?_
    exact (others _ _ only moves₃).bind fun y _ moves₄ hy => .pure moves₄ (hx.reorder hy op)
  · split
    · exact (others _ _ only moves₂).bind fun y _ moves₃ hy => .pure moves₃ (hx.reorder hy .add)
    · exact .pure moves₂ hx

end Rules

theorem goes_run {P : Value → Prop} (admits : Admits g P) (d : Nat) (r : Rule) :
    Rule.Goes g P (run d r) := by
  induction d generalizing r with
  | zero => exact fun o s _ moves => .throw moves (.other nofun nofun)
  | succ d ih =>
    intro o s only moves
    cases r with
    | atom => exact goes_anyAtom admits only moves (ih .atom) (ih .expression) (ih .call)
    | call => exact goes_anyCall admits only moves (ih .expression)
    | expression | relation | sum | product | power =>
      rw [run_level rfl]
      exact goes_level _ only moves (ih _) (ih _)

theorem goes_expression {P : Value → Prop} (admits : Admits g P)
    (only : o.store.FixesOnly P g.scope) :
    Goes g o o (rule .expression) fun e _ => IsRead g P o e :=
  goes_run admits depthLimit .expression o o only .none

theorem admits_any (g : Grammar) : Admits g fun _ => True :=
  ⟨trivial, trivial, fun _ _ _ => trivial, fun _ _ _ _ _ _ _ _ => trivial⟩

/-- Reading is without end only if a name is searched without end. -/
theorem not_ends_of_run {d : Nat} {r : Rule} (endless : run d r g s = .error .endless s') :
    ¬ s.store.Ends g.scope := by
  have goes := goes_run (admits_any g) d r s s (fun _ _ _ _ _ => trivial) .none
  obtain ⟨_, excused⟩ := goes.error endless
  cases excused with
  | other _ searched => exact searched rfl
  | problems all => cases all
  | stuck _ breaks => exact absurd rfl (TokenStream.ne_endless_of_breaks breaks)

theorem admits_numbers (g : Grammar) : Admits g Value.IsNumber where
  invalid := .float _
  zero := Store.isNumber_zero g.mode
  numeral _ _ read := (Value.ofNumeral_isLiteral read).isNumber
  scaled _ v _ n w read known product := by
    obtain ⟨w', same, number⟩ := scaled_number (p := g.bits) known (Value.ofNumeral_isLiteral read)
    cases product.symm.trans same
    exact number

end Parser

end Formula
