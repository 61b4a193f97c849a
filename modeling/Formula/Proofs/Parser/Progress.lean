import Formula.Proofs.Parser.Counting
import Formula.Proofs.Parser.Moves
import Formula.Proofs.Parser.Soundness
import Formula.Proofs.Store.Chains
import Formula.Proofs.TokenStream.Coming
import Mathlib.Tactic.ByContra

/-! Progress. A rule pays for its calls with the tokens that it consumes: each token pays for seven
calls, as many as lead from an expression down to the call of a function. So whatever tokens are to
come, the number of calls and the depth of their nesting are linear in the number of tokens. -/
namespace Formula

namespace Parser

open TokenStream (Coming IsFirst)
open Counted (free call)

def Rule.height : Rule → Nat
  | expression => 7
  | relation => 6
  | sum => 5
  | product => 4
  | power => 3
  | atom => 2
  | call => 1

theorem Rule.height_le (r : Rule) : r.height ≤ 7 := by
  cases r <;> decide

theorem Rule.height_pos (r : Rule) : 0 < r.height := by
  cases r <;> decide

/-- The calls that are paid for when a rule has come to its end: seven for each token that is still
to come, and seven more unless this is the end of the text. -/
def left : List Token → Nat
  | [] => 0
  | t :: ts => 7 * (t :: ts).length + 7

/-- A number that is written as a fraction, which no text but only a token can be. -/
def IsFraction (t : Token) : Prop := t.isNumber ∧ '/' ∈ t.content.toList

/-- Why a parser that can pay for so many calls may come to a fault, although rules may call each
other `d` times. -/
inductive Excuse (d credit : Nat) (ts : List Token) (f : Fault) : Prop
  | deep (is : f = .tooDeep) (few : d < credit)
  | endless (is : f = .endless)
  | fraction {t : Token} (other : f ≠ .tooDeep) (member : t ∈ ts) (is : IsFraction t)

variable {α β : Type} {d c c' : Nat} {g : Grammar} {s s' : ParserState}
  {ts ts' : List Token} {t : Token}

/-- An outcome that is paid for: some of the tokens are still to come, and a result satisfies the
condition with what is left to spend. -/
inductive Paid (d credit : Nat) (ts : List Token) (Q : α → List Token → Nat → Prop) :
    EStateM.Result Fault ParserState α × Nat → Prop
  | result {a : α} {s : ParserState} {ts' : List Token} {calls credit' : Nat}
      (coming : Coming s.tokens ts')
      (tail : ts' <:+ ts) (paid : calls + credit' ≤ credit) (post : Q a ts' credit') :
      Paid d credit ts Q (.ok a s, calls)
  | fault {f : Fault} {s : ParserState} {ts' : List Token} {calls : Nat}
      (coming : Coming s.tokens ts')
      (tail : ts' <:+ ts) (paid : calls ≤ credit) (excuse : Excuse d credit ts f) :
      Paid d credit ts Q (.error f s, calls)

/-- The parser pays for its calls. -/
def Spends (d : Nat) (g : Grammar) (s : ParserState) (ts : List Token)
    (credit : Nat) (p : Counted α)
    (Q : α → List Token → Nat → Prop) : Prop := Paid d credit ts Q (p g s)

def Leaves (_ : α) (ts : List Token) (credit : Nat) : Prop := left ts ≤ credit

def Steps (g : Grammar) (s : ParserState) (ts : List Token) (q : Parser α)
    (P : α → List Token → Prop) : Prop :=
  ∃ a s' ts', q g s = .ok a s' ∧ Coming s'.tokens ts' ∧ ts' <:+ ts ∧ P a ts'

section Credit

theorem left_le (ts : List Token) : left ts ≤ 7 * ts.length + 7 := by
  cases ts with
  | nil => exact Nat.zero_le _
  | cons t ts => exact Nat.le_refl _

theorem left_tail_le (ts : List Token) : left ts.tail ≤ 7 * ts.length := by
  cases ts with
  | nil => exact Nat.le_refl _
  | cons t ts => exact left_le ts

theorem left_suffix_le (tail : ts' <:+ ts) : left ts' ≤ left ts := by
  cases ts' with
  | nil => exact Nat.zero_le _
  | cons u us =>
    have shorter := tail.length_le
    cases ts with
    | nil => cases List.suffix_nil.mp tail
    | cons t ts =>
      simp only [left]
      omega

theorem length_of_left_le (more : ts ≠ []) (h : left ts ≤ c) : 7 * ts.length + 7 ≤ c := by
  cases ts with
  | nil => exact absurd rfl more
  | cons t ts => exact h

theorem length_lt_of_suffix (tail : ts' <:+ ts) (other : ts' ≠ ts) : ts'.length < ts.length :=
  Nat.lt_of_le_of_ne tail.length_le fun same => other (tail.eq_of_length same)

theorem length_tail_lt (more : ts ≠ []) : ts.tail.length < ts.length := by
  cases ts with
  | nil => exact absurd rfl more
  | cons t ts => exact Nat.lt_succ_self _

theorem ne_nil_of_isFirst (first : IsFirst t ts) (more : t.isEnd = false) : ts ≠ [] := by
  rintro rfl
  have isEnd : t.isEnd = true := first
  simp [more] at isEnd

theorem Excuse.mono {f : Fault} (h : Excuse d c' ts' f) (fewer : c' ≤ c) (tail : ts' <:+ ts) :
    Excuse d c ts f := by
  cases h with
  | deep is few => exact .deep is (Nat.lt_of_lt_of_le few fewer)
  | endless is => exact .endless is
  | fraction other member is => exact .fraction other (tail.subset member) is

end Credit

namespace Steps

variable {q : Parser α} {k : α → Parser β} {a : α} {P Q : α → List Token → Prop}
  {R : β → List Token → Prop}

theorem of_ok (run : q g s = .ok a s') (coming : Coming s'.tokens ts') (tail : ts' <:+ ts)
    (post : P a ts') :
    Steps g s ts q P := ⟨a, s', ts', run, coming, tail, post⟩

theorem pure (coming : Coming s.tokens ts) (post : P a ts) : Steps g s ts (pure a) P :=
  of_ok rfl coming List.suffix_rfl post

theorem bind (first : Steps g s ts q P)
    (then_ : ∀ a s' ts', Coming s'.tokens ts' → ts' <:+ ts → P a ts' → Steps g s' ts' (k a) R) :
    Steps g s ts (q >>= k) R := by
  obtain ⟨a, s₁, ts₁, run, coming, tail, post⟩ := first
  obtain ⟨b, s₂, ts₂, run', coming', tail', post'⟩ := then_ a s₁ ts₁ coming tail post
  exact of_ok ((bind_of_ok run k).trans run') coming' (tail'.trans tail) post'

theorem mono (h : Steps g s ts q P) (weaker : ∀ a ts', P a ts' → Q a ts') : Steps g s ts q Q := by
  obtain ⟨a, s', ts', run, coming, tail, post⟩ := h
  exact of_ok run coming tail (weaker a ts' post)

theorem read {k : Grammar → Parser β} (then_ : Steps g s ts (k g) R) :
    Steps g s ts (read >>= k) R := then_

theorem onTokens {m : EStateM Fault TokenStream α} {u : TokenStream} (run : m s.tokens = .ok a u)
    (coming : Coming u ts') (tail : ts' <:+ ts) (post : P a ts') : Steps g s ts (onTokens m) P := by
  have ran : Parser.onTokens m g s = .ok a { s with tokens := u } := by
    simp only [Parser.onTokens, run]
  exact of_ok ran coming tail post

variable (coming : Coming s.tokens ts)
include coming

theorem current : Steps g s ts current fun t ts' => ts' = ts ∧ IsFirst t ts := by
  obtain ⟨t, u, run, coming', first, _⟩ := coming.at? 0
  exact onTokens run coming' List.suffix_rfl ⟨rfl, first⟩

theorem next : Steps g s ts next fun _ ts' => ts' = ts := by
  obtain ⟨t, u, run, coming', _⟩ := coming.at? 1
  exact onTokens run coming' List.suffix_rfl rfl

theorem consume : Steps g s ts consume fun t ts' => ts' = ts.tail ∧ IsFirst t ts := by
  obtain ⟨t, u, run, coming', first⟩ := coming.consume
  exact onTokens run coming' (List.tail_suffix ts) ⟨rfl, first⟩

theorem drop : Steps g s ts (discard Parser.consume) fun _ ts' => ts' = ts.tail :=
  (consume coming).bind fun _ _ _ coming' _ post => .pure coming' post.1

theorem complain (t : Token) (text : String) :
    Steps g s ts (complain t text) fun _ ts' => ts' = ts :=
  onTokens rfl (coming.report _) List.suffix_rfl rfl

theorem complain_pure (t : Token) (text : String) (a : α) :
    Steps g s ts (do Parser.complain t text; return a) fun _ _ => True :=
  (complain coming t text).bind fun _ _ _ coming' _ _ => .pure coming' trivial

theorem expect (symbol : String) : Steps g s ts (expect symbol) fun _ _ => True := by
  refine (current coming).bind ?_
  rintro t s₁ _ coming₁ - ⟨rfl, -⟩
  split
  · exact (drop coming₁).mono fun _ _ _ => trivial
  · exact (complain coming₁ t _).mono fun _ _ _ => trivial

theorem separator (isFirst : Bool) : Steps g s ts (separator isFirst) fun _ _ => True := by
  cases isFirst with
  | true => exact .pure coming trivial
  | false => exact expect coming ","

theorem skipPlus (before : Token → Bool) : Steps g s ts (skipPlus before) fun _ _ => True := by
  refine (current coming).bind ?_
  rintro t s₁ _ coming₁ - ⟨rfl, -⟩
  split
  · refine (next coming₁).bind ?_
    rintro u s₂ _ coming₂ - rfl
    split
    · exact (drop coming₂).mono fun _ _ _ => trivial
    · exact .pure coming₂ trivial
  · exact .pure coming₁ trivial

theorem reject : Steps g s ts reject fun _ ts' => ts' = ts.tail := by
  refine (consume coming).bind ?_
  rintro t s₁ _ coming₁ - ⟨rfl, -⟩
  exact (complain coming₁ t _).bind fun _ _ _ coming₂ _ same => .pure coming₂ same

theorem ofExcept {x : Except Fault α} (ok : x = .ok a) :
    Steps g s ts (ofExcept x) fun _ ts' => ts' = ts := by
  subst ok
  exact .pure coming rfl

theorem quantified {v : Value} (literal : v.IsLiteral) :
    Steps g s ts (quantified v) fun _ _ => True := by
  refine (current coming).bind ?_
  rintro t s₁ _ coming₁ - ⟨rfl, -⟩
  split
  · refine (consume coming₁).bind ?_
    rintro u s₂ _ coming₂ - ⟨rfl, -⟩
    split
    · rename_i e known
      obtain ⟨w, product, _⟩ := scaled_number (p := g.bits) (mem_of_lookup known) literal
      exact .read ((ofExcept coming₂ product).bind fun _ _ _ coming₃ _ _ => .pure coming₃ trivial)
    · exact complain_pure coming₂ u _ _
  · exact .pure coming₁ trivial

theorem functionNamed (t : Token) : Steps g s ts (functionNamed t) fun _ _ => True := by
  refine .read ?_
  split
  · exact .pure coming trivial
  · exact complain_pure coming t _ _

theorem checkedCall (t : Token) (f : Option Function) (args : List Expr) :
    Steps g s ts (checkedCall t f args) fun _ _ => True := by
  cases f with
  | none => exact .pure coming trivial
  | some f =>
    unfold Parser.checkedCall
    dsimp only
    split
    · exact .pure coming trivial
    · exact complain_pure coming t _ _

end Steps

namespace Spends

variable {p : Counted α} {f : α → Counted β} {q : Parser α} {a : α}
variable {P : α → List Token → Prop} {Q : α → List Token → Nat → Prop}
  {R : β → List Token → Nat → Prop}

theorem pure (coming : Coming s.tokens ts) (post : Q a ts c) : Spends d g s ts c (pure a) Q :=
  .result coming List.suffix_rfl (Nat.le_of_eq (Nat.zero_add c)) post

theorem free (steps : Steps g s ts q P) (post : ∀ a ts', ts' <:+ ts → P a ts' → Q a ts' c) :
    Spends d g s ts c (free q) Q := by
  obtain ⟨a, s', ts', run, coming, tail, h⟩ := steps
  unfold Spends Counted.free
  rw [run]
  exact .result coming tail (Nat.le_of_eq (Nat.zero_add c)) (post a ts' tail h)

theorem bind (first : Spends d g s ts c p Q)
    (then_ : ∀ a s' ts' c', Coming s'.tokens ts' → ts' <:+ ts → Q a ts' c' →
      Spends d g s' ts' c' (f a) R) :
    Spends d g s ts c (p >>= f) R := by
  unfold Spends at first ⊢
  generalize run : p g s = out at first
  cases first with
  | fault coming tail paid excuse =>
    rw [Counted.bind_of_error run]
    exact .fault coming tail paid excuse
  | @result a s₁ ts₁ n c₁ coming tail paid post =>
    have second := then_ a s₁ ts₁ c₁ coming tail post
    rw [Counted.bind_of_ok run]
    unfold Spends at second
    generalize f a g s₁ = out at second ⊢
    cases second with
    | result coming' tail' paid' post' => exact .result coming' (tail'.trans tail) (by omega) post'
    | fault coming' tail' paid' excuse =>
      exact .fault coming' (tail'.trans tail) (by omega) (excuse.mono (by omega) tail)

theorem free_bind (first : Steps g s ts q P)
    (then_ : ∀ a s' ts', Coming s'.tokens ts' → ts' <:+ ts → P a ts' →
      Spends d g s' ts' c (f a) R) :
    Spends d g s ts c (Counted.free q >>= f) R := by
  refine (free (Q := fun a ts' c' => c' = c ∧ P a ts') first fun a ts' _ h => ⟨rfl, h⟩).bind ?_
  rintro a s' ts' _ coming tail ⟨rfl, h⟩
  exact then_ a s' ts' coming tail h

theorem read {k : Grammar → Parser α} (then_ : Spends d g s ts c (Counted.free (k g)) Q) :
    Spends d g s ts c (Counted.free (read >>= k)) Q := then_

theorem fault {k : α → Parser β} {e : Fault} (first : q g s = .ok a s')
    (coming : Coming s'.tokens ts')
    (tail : ts' <:+ ts) (run : k a g s' = .error e s') (excuse : Excuse d c ts e) :
    Spends d g s ts c (Counted.free (q >>= k)) R := by
  unfold Spends Counted.free
  rw [bind_of_ok first, run]
  exact .fault coming tail (Nat.zero_le c) excuse

theorem call (inside : Spends d g s ts c p Q) : Spends (d + 1) g s ts (c + 1) (call p) Q := by
  unfold Spends Counted.call
  unfold Spends at inside
  generalize p g s = out at inside
  cases inside with
  | result coming tail paid post => exact .result coming tail (by omega) post
  | fault coming tail paid excuse =>
    refine .fault coming tail (by omega) ?_
    cases excuse with
    | deep is few => exact .deep is (by omega)
    | endless is => exact .endless is
    | fraction other member is => exact .fraction other member is

end Spends

/-- A rule pays for its calls if there is enough to spend for those that lead down to the first
token. -/
def Rule.Pays (d : Nat) (r : Rule) (p : Counted Expr) : Prop :=
  ∀ g s ts c, Coming s.tokens ts → 7 * ts.length + r.height ≤ c → Spends d g s ts c p Leaves

section Rules

variable {operand rest self inner calls : Counted Expr}

theorem excuse_of_ofNumeral {f : Fault}
    (numeral : Value.ofNumeral g.mode g.bits t.content = .error f)
    (other : f ≠ .malformedValue) (is : t.isNumber) (member : t ∈ ts) : Excuse d c ts f := by
  have numeric := Value.isNumeric_of_ofNumeral numeral
  have slash : '/' ∈ t.content.toList := by
    by_contra plain
    exact other (Value.ofNumeral_fault plain numeral)
  refine .fraction ?_ member ⟨is, slash⟩
  rintro rfl
  cases numeric

theorem spends_number (coming : Coming s.tokens ts) (enough : 7 * ts.length ≤ c) :
    Spends d g s ts c (free number) Leaves := by
  have leaves {ts' : List Token} (tail : ts' <:+ ts.tail) : left ts' ≤ c :=
    Nat.le_trans (left_suffix_le tail) (Nat.le_trans (left_tail_le ts) enough)
  rw [number, Counted.free_bind]
  refine .free_bind (.current coming) ?_
  rintro t s₁ _ coming₁ - ⟨rfl, first⟩
  split
  · rename_i is
    obtain ⟨v, rest, rfl⟩ :=
      List.exists_cons_of_ne_nil (ne_nil_of_isFirst first (not_isEnd_of_isNumber is))
    obtain rfl : t = v := first
    -- A malformed number is reported, so only a fraction can come to a fault.
    by_cases fraction : ∃ f, Value.ofNumeral g.mode g.bits t.content = .error f ∧
      f ≠ .malformedValue
    · obtain ⟨f, numeral, other⟩ := fraction
      obtain ⟨u, s₂, _, taken, coming₂, tail, rfl, first⟩ := Steps.consume (g := g) coming₁
      obtain rfl : u = t := first
      refine .fault taken coming₂ tail ?_ (excuse_of_ofNumeral numeral other is List.mem_cons_self)
      simp only [bind, ReaderT.bind, EStateM.bind, read, readThe, MonadReaderOf.read,
        ReaderT.read, pure, EStateM.pure, numeral]
      rfl
    · rw [Counted.free_bind]
      refine .free_bind (.consume coming₁) ?_
      rintro u s₂ _ coming₂ - ⟨rfl, first⟩
      obtain rfl : u = t := first
      refine .read (.read ?_)
      split
      · rename_i numeral
        have literal := Value.ofNumeral_isLiteral numeral
        exact .free (.quantified coming₂ literal) fun _ _ tail _ => leaves tail
      · exact .free (.complain_pure coming₂ u _ _) fun _ _ tail _ => leaves tail
      · rename_i f other numeral
        exact absurd ⟨f, numeral, other⟩ fraction
  · exact .free (.reject coming₁) fun _ _ _ same => leaves (same ▸ List.suffix_rfl)

theorem spends_literal (coming : Coming s.tokens ts) (enough : 7 * ts.length ≤ c) :
    Spends d g s ts c (free literal) Leaves := by
  rw [literal, Counted.free_bind]
  refine .free_bind (.skipPlus coming _) ?_
  rintro _ s₁ ts₁ coming₁ tail -
  have shorter := tail.length_le
  exact spends_number coming₁ (by omega)

theorem spends_resolve (coming : Coming s.tokens ts) (enough : left ts ≤ c) (t : Token) :
    Spends d g s ts c (free (resolve t)) Leaves := by
  have got : (MonadState.get : Parser ParserState) g s = .ok s s := rfl
  have asked : (MonadReader.read : Parser Grammar) g s = .ok g s := rfl
  unfold Spends Counted.free resolve
  rw [bind_of_ok got, bind_of_ok asked]
  cases found : s.store.lookUp g.scope t.content with
  | ok out => exact .result coming List.suffix_rfl (Nat.le_of_eq (Nat.zero_add c)) enough
  | error f =>
    rcases Store.lookUp_fault found with ⟨rfl, _⟩ | ⟨rfl, _⟩
    · exact .fault coming List.suffix_rfl (Nat.zero_le c) (.endless rfl)
    · have told : Steps g s ts (do complain t ("Unknown variable: '" ++ t.content ++ "'"); zero)
          fun _ ts' => ts' = ts :=
        (Steps.complain coming t _).bind fun _ _ _ coming₁ _ same => .read (.pure coming₁ same)
      exact Spends.free told fun _ _ _ same => same ▸ enough

theorem spends_inner {close : String} {k : Expr → Expr} (inside : Rule.expression.Pays d inner)
    (coming : Coming s.tokens ts) (more : ts ≠ []) (enough : 7 * ts.length ≤ c) :
    Spends d g s ts c (do
      free (discard consume)
      let e ← inner
      free (expect close)
      return k e) Leaves := by
  have shorter := length_tail_lt more
  have height : Rule.expression.height = 7 := rfl
  refine .free_bind (.drop coming) ?_
  rintro _ s₁ _ coming₁ - rfl
  refine (inside g s₁ ts.tail c coming₁ (by omega)).bind ?_
  intro e s₂ ts₂ c₂ coming₂ _ leaves
  refine .free_bind (.expect coming₂ close) ?_
  rintro _ s₃ ts₃ coming₃ tail -
  exact .pure coming₃ (Nat.le_trans (left_suffix_le tail) leaves)

theorem spends_plainAtom (inside : Rule.expression.Pays d inner) (call : Rule.call.Pays d calls)
    (coming : Coming s.tokens ts) (enough : 7 * ts.length + 1 ≤ c) :
    Spends d g s ts c (Counted.plainAtom inner calls) Leaves := by
  refine .free_bind (.current coming) ?_
  rintro t s₁ _ coming₁ - ⟨rfl, first⟩
  split
  · rename_i is
    have more := ne_nil_of_isFirst first (not_isEnd_of_isSymbol is)
    exact spends_inner inside coming₁ more (by omega)
  · split
    · rename_i is
      have more := ne_nil_of_isFirst first (not_isEnd_of_isSymbol is)
      exact spends_inner inside coming₁ more (by omega)
    · split
      · refine .free_bind (.next coming₁) ?_
        rintro u s₂ _ coming₂ - rfl
        split
        · exact call g s₂ _ c coming₂ enough
        · rw [Counted.free_bind]
          refine .free_bind (.consume coming₂) ?_
          rintro v s₃ _ coming₃ - ⟨rfl, -⟩
          exact spends_resolve coming₃ (Nat.le_trans (left_tail_le _) (by omega)) v
      · exact spends_literal coming₁ (by omega)

theorem spends_anyAtom (again : Rule.atom.Pays d self) (inside : Rule.expression.Pays d inner)
    (call : Rule.call.Pays d calls) (coming : Coming s.tokens ts) (enough : 7 * ts.length + 1 ≤ c) :
    Spends d g s ts c (Counted.anyAtom self inner calls) Leaves := by
  refine .free_bind (.current coming) ?_
  rintro t s₁ _ coming₁ - ⟨rfl, first⟩
  split
  · rename_i is
    have shorter := length_tail_lt (ne_nil_of_isFirst first (not_isEnd_of_isSymbol is))
    have height : Rule.atom.height = 2 := rfl
    refine .free_bind (.drop coming₁) ?_
    rintro _ s₂ _ coming₂ - rfl
    refine .free_bind (P := fun _ ts' => ts' = _) (.read (.pure coming₂ rfl)) ?_
    rintro z s₃ _ coming₃ - rfl
    refine (again g s₃ _ c coming₃ (by omega)).bind ?_
    intro e s₄ ts₄ c₄ coming₄ _ leaves
    exact .pure coming₄ leaves
  · refine .free_bind (.skipPlus coming₁ _) ?_
    rintro _ s₂ ts₂ coming₂ tail -
    have shorter := tail.length_le
    exact spends_plainAtom inside call coming₂ (by omega)

theorem spends_argumentsWithin (inside : Rule.expression.Pays d inner) (fuel : Nat) (isFirst : Bool)
    (coming : Coming s.tokens ts) (enough : left ts ≤ c) :
    Spends d g s ts c (Counted.argumentsWithin inner fuel isFirst) Leaves := by
  induction fuel generalizing s ts c isFirst with
  | zero => exact .pure coming enough
  | succ fuel ih =>
    refine .free_bind (.current coming) ?_
    rintro t s₁ _ coming₁ - ⟨rfl, first⟩
    split
    · exact .pure coming₁ enough
    · rename_i goesOn
      have notEnd : t.isEnd = false := by
        simp only [Bool.or_eq_true, not_or, Bool.not_eq_true] at goesOn
        exact goesOn.2
      -- Before the end what is left pays for one more argument.
      have more := length_of_left_le (ne_nil_of_isFirst first notEnd) enough
      have height : Rule.expression.height = 7 := rfl
      refine .free_bind (.separator coming₁ isFirst) ?_
      rintro _ s₂ ts₂ coming₂ tail -
      have shorter := tail.length_le
      refine (inside g s₂ ts₂ c coming₂ (by omega)).bind ?_
      intro e s₃ ts₃ c₃ coming₃ _ leaves
      refine (ih false coming₃ leaves).bind ?_
      intro es s₄ ts₄ c₄ coming₄ _ leaves'
      exact .pure coming₄ leaves'

theorem spends_arguments (inside : Rule.expression.Pays d inner) (coming : Coming s.tokens ts)
    (enough : left ts ≤ c) : Spends d g s ts c (Counted.arguments inner) Leaves := by
  have got : Steps g s ts get fun _ _ => True := ⟨s, s, ts, rfl, coming, List.suffix_rfl, trivial⟩
  refine .free_bind got ?_
  rintro o s₁ ts₁ coming₁ tail -
  exact spends_argumentsWithin inside _ true coming₁ (Nat.le_trans (left_suffix_le tail) enough)

theorem spends_anyCall (inside : Rule.expression.Pays d inner) (coming : Coming s.tokens ts)
    (enough : 7 * ts.length ≤ c) : Spends d g s ts c (Counted.anyCall inner) Leaves := by
  refine .free_bind (.consume coming) ?_
  rintro t s₁ _ coming₁ - ⟨rfl, -⟩
  refine .free_bind (.functionNamed coming₁ t) ?_
  rintro f s₂ ts₂ coming₂ tail₂ -
  refine .free_bind (.drop coming₂) ?_
  rintro _ s₃ _ coming₃ tail₃ rfl
  have rest : left ts₂.tail ≤ c :=
    Nat.le_trans (left_suffix_le (tail₃.trans tail₂)) (Nat.le_trans (left_tail_le ts) enough)
  refine (spends_arguments inside coming₃ rest).bind ?_
  intro args s₄ ts₄ c₄ coming₄ _ leaves
  refine .free_bind (.expect coming₄ _) ?_
  rintro _ s₅ ts₅ coming₅ tail₅ -
  refine .free (.checkedCall coming₅ t f args) fun _ ts₆ tail₆ _ => ?_
  exact Nat.le_trans (left_suffix_le (tail₆.trans tail₅)) leaves

theorem spends_level {r b : Rule} (first : b.Pays d operand) (others : r.Pays d rest)
    (coming : Coming s.tokens ts) (enough : 7 * ts.length + b.height ≤ c) :
    Spends d g s ts c (Counted.level r operand rest) Leaves := by
  have height := r.height_le
  refine (first g s ts c coming enough).bind ?_
  intro x s₁ ts₁ c₁ coming₁ _ leaves
  refine .free_bind (.current coming₁) ?_
  rintro t s₂ _ coming₂ - ⟨rfl, first⟩
  split
  · rename_i op is
    obtain ⟨a, symbol, _⟩ := exists_isSymbol_of_operator? is
    have before := ne_nil_of_isFirst first (not_isEnd_of_isSymbol symbol)
    have more := length_of_left_le before leaves
    have shorter := length_tail_lt before
    refine .free_bind (.drop coming₂) ?_
    rintro _ s₃ _ coming₃ - rfl
    refine (others g s₃ _ c₁ coming₃ (by omega)).bind ?_
    intro y s₄ ts₄ c₄ coming₄ _ leaves'
    exact .pure coming₄ leaves'
  · split
    · rename_i is
      have number : t.isNumber := by
        simp only [Bool.and_eq_true] at is
        exact isNumber_of_isNegativeNumber is.2
      have more := length_of_left_le (ne_nil_of_isFirst first (not_isEnd_of_isNumber number)) leaves
      refine (others g s₂ _ c₁ coming₂ (by omega)).bind ?_
      intro y s₃ ts₃ c₃ coming₃ _ leaves'
      exact .pure coming₃ leaves'
    · exact .pure coming₂ leaves

theorem pays_run (d : Nat) (r : Rule) : r.Pays d (Counted.run d r) := by
  induction d generalizing r with
  | zero =>
    intro g s ts c coming enough
    have height := r.height_pos
    have one : 0 + 1 ≤ c := by omega
    exact Paid.fault coming List.suffix_rfl one (.deep rfl (by omega))
  | succ d ih =>
    intro g s ts c coming enough
    have height := r.height_pos
    obtain ⟨c, rfl⟩ : ∃ k, c = k + 1 := ⟨c - 1, by omega⟩
    apply Spends.call
    cases r with
    | atom => exact spends_anyAtom (ih _) (ih _) (ih _) coming (Nat.le_of_succ_le_succ enough)
    | call => exact spends_anyCall (ih _) coming (Nat.le_of_succ_le_succ enough)
    | expression | relation | sum | product | power =>
      exact spends_level (ih _) (ih _) coming (Nat.le_of_succ_le_succ enough)

end Rules

theorem run_eq_erase (d : Nat) (r : Rule) (g : Grammar) (s : ParserState) :
    (Counted.run d r g s).1 = run d r g s := congrFun (congrFun (Counted.erase_run d r) g) s

theorem one_le_calls (d : Nat) (r : Rule) (g : Grammar) (s : ParserState) :
    1 ≤ (Counted.run d r g s).2 := by
  cases d <;> exact Nat.le_add_left 1 _

theorem paid_run (coming : Coming s.tokens ts) (d : Nat) (r : Rule) :
    Paid d (7 * ts.length + 7) ts Leaves (run d r g s, (Counted.run d r g s).2) := by
  have height := r.height_le
  have paid := pays_run d r g s ts (7 * ts.length + 7) coming (by omega)
  rw [← run_eq_erase]
  exact paid

theorem calls_le (coming : Coming s.tokens ts) (d : Nat) (r : Rule) :
    (Counted.run d r g s).2 ≤ 7 * ts.length + 7 := by
  have paid := paid_run (g := g) coming d r
  generalize run d r g s = out at paid
  cases paid with
  | result _ _ paid _ => exact Nat.le_of_add_right_le paid
  | fault _ _ paid _ => exact paid

theorem run_advances {e : Expr} (coming : Coming s.tokens ts) {r : Rule}
    (run : run d r g s = .ok e s') :
    ∃ ts', Coming s'.tokens ts' ∧ ts' <:+ ts ∧ (ts' = ts ↔ ts = []) := by
  have paid := paid_run (g := g) coming d r
  have one := one_le_calls d r g s
  rw [run] at paid
  cases paid with
  | @result _ _ ts' _ c' coming' tail paid leaves =>
    refine ⟨ts', coming', tail, fun same => ?_, fun none => ?_⟩
    · subst same
      by_contra more
      have enough := length_of_left_le more leaves
      omega
    · subst none
      exact List.suffix_nil.mp tail

theorem run_fault {f : Fault} (coming : Coming s.tokens ts) {r : Rule}
    (run : run d r g s = .error f s') :
    (∃ ts', Coming s'.tokens ts' ∧ ts' <:+ ts) ∧ Excuse d (7 * ts.length + 7) ts f := by
  have paid := paid_run (g := g) coming d r
  rw [run] at paid
  cases paid with
  | fault coming' tail _ excuse => exact ⟨⟨_, coming', tail⟩, excuse⟩

/-- A rule that may go deep enough has a result, or searches a name in a chain of scopes without
end. -/
theorem run_outcome (coming : Coming s.tokens ts) {r : Rule} (enough : 7 * ts.length + 7 ≤ d)
    (plain : ∀ t ∈ ts, ¬ IsFraction t) : (∃ e s', run d r g s = .ok e s') ∨
      (¬ s.store.Ends g.scope ∧ IsEndless (run d r g s)) := by
  cases ran : run d r g s with
  | ok e s' => exact .inl ⟨e, s', rfl⟩
  | error f s' =>
    cases (run_fault coming ran).2 with
    | deep _ few => omega
    | endless is =>
      subst is
      exact .inr ⟨not_ends_of_run ran, s', rfl⟩
    | fraction _ member is => exact absurd is (plain _ member)

theorem run_ofSource {src : Source} {st : Store} (steady : src.ending ≠ .breaking)
    (ends : st.Ends g.scope) (d : Nat) (r : Rule) :
    (Counted.run d r g ⟨.ofSource src, st⟩).2 ≤ 7 * src.text.length + 7 ∧
      (7 * src.text.length + 7 ≤ d → ∃ e s', run d r g ⟨.ofSource src, st⟩ = .ok e s') := by
  obtain ⟨ts, coming, lexemes⟩ := TokenStream.coming_ofSource steady
  have length : ts.length ≤ 0 + src.text.length := coming.length_le
  constructor
  · have calls := calls_le (g := g) (s := ⟨.ofSource src, st⟩) coming d r
    omega
  · intro enough
    have plain : ∀ t ∈ ts, ¬ IsFraction t :=
      fun t member is => plain_of_isLexeme (lexemes t member) is.1 is.2
    have deep : 7 * ts.length + 7 ≤ d := by omega
    have outcome := run_outcome (g := g) (s := ⟨.ofSource src, st⟩) (r := r) coming deep plain
    exact outcome.resolve_right fun endless => endless.1 ends

theorem argumentsWithin_enough (d : Nat) {n m : Nat} (isFirst : Bool) (coming : Coming s.tokens ts)
    (hn : ts.length < n) (hm : ts.length < m) :
    argumentsWithin (run d .expression) n isFirst g s =
      argumentsWithin (run d .expression) m isFirst g s := by
  induction n generalizing m s ts isFirst with
  | zero => exact absurd hn (Nat.not_lt_zero _)
  | succ n ih =>
    obtain ⟨m, rfl⟩ : ∃ k, m = k + 1 := ⟨m - 1, by omega⟩
    obtain ⟨t, s₁, us, shown, coming₁, -, rfl, first⟩ := Steps.current (g := g) coming
    rw [argumentsWithin, argumentsWithin, bind_of_ok shown, bind_of_ok shown]
    split
    · rfl
    · rename_i goesOn
      have notEnd : t.isEnd = false := by
        simp only [Bool.or_eq_true, not_or, Bool.not_eq_true] at goesOn
        exact goesOn.2
      have more := List.length_pos_iff.mpr (ne_nil_of_isFirst first notEnd)
      obtain ⟨_, s₂, ts₂, separated, coming₂, tail₂, -⟩ := Steps.separator (g := g) coming₁ isFirst
      rw [bind_of_ok separated, bind_of_ok separated]
      cases ran : run d .expression g s₂ with
      | error f s₃ => rw [bind_of_error ran, bind_of_error ran]
      | ok e s₃ =>
        obtain ⟨ts₃, coming₃, tail₃, advances⟩ := run_advances coming₂ ran
        rw [bind_of_ok ran, bind_of_ok ran, bind_run, bind_run]
        -- Each round consumes a token: an argument does, unless its separator was the last one.
        have shorter : ts₃.length < us.length := by
          have fewer := tail₂.length_le
          by_cases none : ts₂ = []
          · rw [advances.mpr none, none]
            exact more
          · have consumed := length_lt_of_suffix tail₃ (mt advances.mp none)
            omega
        rw [ih false coming₃ (m := m) (by omega) (by omega)]

theorem arguments_eq (coming : Coming s.tokens ts) (d : Nat) {n : Nat} (enough : ts.length < n) :
    arguments (run d .expression) g s = argumentsWithin (run d .expression) n true g s := by
  have length := coming.length_le
  have got : (MonadState.get : Parser ParserState) g s = .ok s s := rfl
  rw [arguments, bind_of_ok got]
  exact argumentsWithin_enough d true coming (by omega) enough

/-- Whatever tokens are to come, each rule comes to its end, unless the chain of scopes has none and
a name is searched in it. It consumes a token unless there is none, and never puts one back. The
calls that it leads to, and those of them that are nested, are linear in the number of tokens; so
are the rounds of the loop over arguments, and the calls for a whole text. -/
theorem run_progresses (coming : Coming s.tokens ts) :
    (∀ d r, (Counted.run d r g s).1 = run d r g s ∧ (Counted.run d r g s).2 ≤ 7 * ts.length + 7 ∧
      (∀ e s', run d r g s = .ok e s' →
        ∃ ts', (∀ us, Coming s'.tokens us ↔ us = ts') ∧ ts' <:+ ts ∧ (ts' = ts ↔ ts = [])) ∧
      (∀ f s', run d r g s = .error f s' → ∃ ts',
        (∀ us, Coming s'.tokens us ↔ us = ts') ∧ ts' <:+ ts) ∧
      (7 * ts.length + 7 ≤ d → ¬ IsTooDeep (run d r g s) ∧
        ((∀ t ∈ ts, ¬ IsFraction t) → (∃ e s', run d r g s = .ok e s') ∨
          (¬ s.store.Ends g.scope ∧ IsEndless (run d r g s))))) ∧
    (∀ d n isFirst, ts.length < n → argumentsWithin (run d .expression) n isFirst g s
      = argumentsWithin (run d .expression) (ts.length + 1) isFirst g s) ∧
    (Counted.whole g s).1 = whole g s ∧ (Counted.whole g s).2 ≤ 7 * ts.length + 7 := by
  refine ⟨fun d r => ⟨run_eq_erase d r g s, calls_le coming d r, ?_, ?_, fun enough => ?_⟩, ?_, ?_,
    ?_⟩
  · intro e s' ran
    obtain ⟨ts', coming', tail, advances⟩ := run_advances coming ran
    exact ⟨ts', coming'.iff, tail, advances⟩
  · intro f s' ran
    obtain ⟨⟨ts', coming', tail⟩, _⟩ := run_fault coming ran
    exact ⟨ts', coming'.iff, tail⟩
  · constructor
    · rintro ⟨s', ran⟩
      cases (run_fault coming ran).2 with
      | deep _ few => omega
      | endless is => cases is
      | fraction other => exact other rfl
    · exact run_outcome coming enough
  · intro d n isFirst enough
    exact argumentsWithin_enough d isFirst coming enough (Nat.lt_succ_self _)
  · exact congrFun (congrFun Counted.erase_whole g) s
  · rw [Counted.calls_whole]
    exact calls_le coming _ _

def malformed : List Token :=
  [⟨.identifier, "", "f", "f", ⟨1, 1⟩⟩, ⟨.symbol, "(", "(", "(", ⟨1, 2⟩⟩,
   ⟨.symbol, ",", ",", ",", ⟨1, 3⟩⟩, ⟨.symbol, "-", "-", "-", ⟨1, 4⟩⟩,
   ⟨.symbol, "|", "|", "|", ⟨1, 5⟩⟩, ⟨.string, "\"", "x", "\"x\"", ⟨1, 6⟩⟩,
   ⟨.symbol, "(", "(", "(", ⟨1, 9⟩⟩]

theorem run_progresses_malformed :
    let g : Grammar := { bits := 53, scope := 0, mode := .float, functions := .builtin }
    let st : Store := { vars := [], scopes := [⟨none, .float, false, []⟩] }
    let s : ParserState :=
      ⟨{ source := { reader := .ofSource (.ofString "") }, buffer := malformed, ended := true }, st⟩
    Coming s.tokens malformed ∧ (Counted.whole g s).2 ≤ 56 ∧
    ∃ e s', run 56 .expression g s = .ok e s' := by
  intro g st s
  have coming : Coming s.tokens malformed := TokenStream.coming_of_ended rfl rfl (by decide)
  obtain ⟨rules, _, _, few⟩ := run_progresses (g := g) coming
  have plain : ∀ t ∈ malformed, ¬ IsFraction t := by
    unfold IsFraction
    decide
  obtain ⟨_, _, _, _, ends⟩ := rules 56 .expression
  have chain : st.Ends g.scope := ⟨[0], .top rfl⟩
  exact ⟨coming, few, ((ends (by decide)).2 plain).resolve_right fun endless => endless.1 chain⟩

/-- Between scopes that lie below each other, reading a single name has no end, whatever the
depth. -/
theorem run_endless_name :
    let g : Grammar := { bits := 53, scope := 1, mode := .float, functions := .builtin }
    let x : Token := ⟨.identifier, "", "x", "x", ⟨1, 1⟩⟩
    let s : ParserState :=
      ⟨{ source := { reader := .ofSource (.ofString "") }, buffer := [x], ended := true }, .looped⟩
    Coming s.tokens [x] ∧ ¬ IsFraction x ∧ (∀ d, IsEndless (run (d + 1) .atom g s)) ∧
    IsEndless (whole g s) := by
  intro g x s
  have plain : ¬ IsFraction x := fun is => absurd is.1 (by decide)
  refine ⟨TokenStream.coming_of_ended rfl rfl (by decide), plain, fun d => ?_, by decide +kernel⟩
  have endless : IsEndless (run 1 .atom g s) := by decide +kernel
  have within : ¬ IsTooDeep (run 1 .atom g s) := by decide +kernel
  have same := (run_approximates (Nat.le_add_left 1 d) .atom g s).resolve_left within
  exact same ▸ endless

end Parser

end Formula
