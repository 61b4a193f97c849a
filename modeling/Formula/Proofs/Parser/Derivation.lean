import Formula.Proofs.Parser.Phrases
import Formula.Proofs.Store.Lookup
import Formula.Proofs.Value.Numerals

/-! The grammar. Which lists of tokens are derived by a rule is said without any parser, and without
the expressions that the tokens stand for. A list of tokens is derived if and only if it is read as
some expression. -/
namespace Formula.Parser

def symbols : Rule → List String
  | .expression => ["&&", "||"]
  | .relation => ["<", "<=", "=", ">=", ">", "!="]
  | .sum => ["+", "-"]
  | .product => ["*", "/", "%"]
  | .power => ["^", "**"]
  | .atom | .call => []

def IsNumeral (g : Grammar) (t : Token) : Prop :=
  t.isNumber ∧ ∃ v, Value.ofNumeral g.mode g.bits t.content = .ok v

def IsQuantifier (t : Token) : Prop :=
  t.isKind .identifier ∧ t.content ∈ ["n", "u", "m", "k", "K", "M", "G"]

/-- A name that may be used in the scope: in a strict scope it has to be known. -/
def IsVariable (g : Grammar) (st : Store) (t : Token) : Prop :=
  t.isKind .identifier ∧
    ((st.scope g.scope).isStrict → ∃ v, st.find? g.scope t.content = .ok (some v))

def IsFunction (g : Grammar) (t : Token) (count : Nat) : Prop :=
  t.isKind .identifier ∧
    ∃ f, g.functions.get? t.content = some f ∧ (f.arity = none ∨ f.arity = some count)

mutual

/-- The tokens are derived by the rule, with the names that the store knows. -/
inductive Derives (g : Grammar) (st : Store) : Rule → List Token → Prop
  | operand {r b : Rule} {ts : List Token} (level : r.operand? = some b)
      (only : Derives g st b ts) : Derives g st r ts
  | operator {r b : Rule} {ts us : List Token} {t : Token} {a : String}
      (level : r.operand? = some b) (listed : a ∈ symbols r) (is : t.isSymbol a)
      (left : Derives g st b ts) (right : Derives g st r us) : Derives g st r (ts ++ t :: us)
  | signed {ts us : List Token} {t : Token} (number : t.isNumber) (sign : t.content.startsWith "-")
      (left : Derives g st .product ts) (right : Derives g st .sum (t :: us)) :
      Derives g st .sum (ts ++ t :: us)
  | negated {ts : List Token} {t : Token} (minus : t.isSymbol "-") (inner : Derives g st .atom ts) :
      Derives g st .atom (t :: ts)
  | brackets {ps ts : List Token} {t u : Token} (plus : OptionalPlus ps) (opening : t.isSymbol "(")
      (inner : Derives g st .expression ts) (closing : u.isSymbol ")") :
      Derives g st .atom (ps ++ t :: (ts ++ [u]))
  | bars {ts : List Token} {t u : Token} (opening : t.isSymbol "|")
      (inner : Derives g st .expression ts) (closing : u.isSymbol "|") :
      Derives g st .atom (t :: (ts ++ [u]))
  | called {ts : List Token} (inner : Derives g st .call ts) : Derives g st .atom ts
  | call {ts : List Token} {t u w : Token} {count : Nat} (name : IsFunction g t count)
      (opening : u.isSymbol "(") (inner : DerivesArguments g st true ts count)
      (closing : w.isSymbol ")") : Derives g st .call (t :: u :: (ts ++ [w]))
  | variable {t : Token} (name : IsVariable g st t) : Derives g st .atom [t]
  | number {ps : List Token} {t : Token} (plus : OptionalPlus ps) (is : IsNumeral g t) :
      Derives g st .atom (ps ++ [t])
  | quantity {ps : List Token} {t q : Token} (plus : OptionalPlus ps) (is : IsNumeral g t)
      (quantifier : IsQuantifier q) : Derives g st .atom (ps ++ [t, q])

/-- The tokens are derived as so many arguments, the first ones of a call or those after others. -/
inductive DerivesArguments (g : Grammar) (st : Store) : (isFirst : Bool) → List Token → Nat → Prop
  | none {isFirst : Bool} : DerivesArguments g st isFirst [] 0
  | first {ts us : List Token} {count : Nat} (head : Derives g st .expression ts)
      (tail : DerivesArguments g st false us count) :
      DerivesArguments g st true (ts ++ us) (count + 1)
  | next {ts us : List Token} {t : Token} {count : Nat} (comma : t.isSymbol ",")
      (head : Derives g st .expression ts) (tail : DerivesArguments g st false us count) :
      DerivesArguments g st false (t :: (ts ++ us)) (count + 1)

end

section Tokens

variable {g : Grammar} {t : Token} {r : Rule} {a : String}

theorem symbols_eq (r : Rule) : symbols r = (operators r).map (·.1) := by
  cases r <;> rfl

theorem exists_operator? (is : t.isSymbol a) (listed : a ∈ symbols r) :
    ∃ op, operator? r t = some op := by
  rw [operator?_of_isSymbol is]
  exact exists_lookup (symbols_eq r ▸ listed)

theorem accepts_iff {f : Function} {count : Nat} :
    f.accepts count ↔ f.arity = none ∨ f.arity = some count := by
  unfold Function.accepts
  cases f.arity <;> simp

theorem exists_symbol {op : Operator} (h : operator? r t = some op) :
    ∃ a ∈ symbols r, t.isSymbol a := by
  obtain ⟨a, is, listed⟩ := exists_isSymbol_of_operator? h
  exact ⟨a, symbols_eq r ▸ List.mem_map_of_mem listed, is⟩

theorem isQuantifier_iff :
    IsQuantifier t ↔ t.isKind .identifier ∧ ∃ n, quantifiers.lookup t.content = some n := by
  refine and_congr_right fun _ => ⟨fun listed => exists_lookup listed, fun ⟨n, found⟩ => ?_⟩
  have member := List.mem_map_of_mem (f := (·.1)) (mem_of_lookup found)
  exact member

end Tokens

section Phrases

variable {g : Grammar} {st : Store}

open Store (Follows)

mutual

theorem Reads.follows {d : Nat} {r : Rule} {st st' : Store} {ts : List Token} {e : Expr} :
    Reads g d r st ts e st' → Follows g.scope st st'
  | .operand _ only => only.follows
  | .operator _ _ left right => left.follows.trans right.follows
  | .signed _ left right => left.follows.trans right.follows
  | .negated _ inner | .brackets _ _ inner _ | .bars _ inner _ | .called inner => inner.follows
  | .call _ _ inner _ _ _ => inner.follows
  | .variable _ found => Store.follows_lookUp found
  | .number .. | .quantity .. => .refl _ _

theorem ReadsArguments.follows {d : Nat} {isFirst : Bool} {st st' : Store} {ts : List Token}
    {es : List Expr} : ReadsArguments g d isFirst st ts es st' → Follows g.scope st st'
  | .none => .refl _ _
  | .first head tail | .next _ head tail => head.follows.trans tail.follows

end

theorem isVariable_of_lookUp {st₁ st' : Store} {t : Token} {v : VariableId}
    (after : Follows g.scope st st₁) (name : t.isKind .identifier)
    (found : st₁.lookUp g.scope t.content = .ok (v, st')) : IsVariable g st t := by
  refine ⟨name, fun strict => ?_⟩
  obtain rfl := after.strict strict
  obtain ⟨w, known, defined⟩ := (Store.lookUp_isOk ..).mp ⟨v, st', found⟩
  obtain ⟨w, rfl⟩ := Option.isSome_iff_exists.mp (defined strict)
  exact ⟨w, known⟩

/-- Only a name that need not be known is searched to the end of the chain. -/
theorem exists_lookUp {st₁ : Store} {t : Token}
    (ends : (st.scope g.scope).isStrict = false → st.Ends g.scope)
    (after : Follows g.scope st st₁) (is : IsVariable g st t) :
    ∃ v st', st₁.lookUp g.scope t.content = .ok (v, st') := by
  cases strict : (st.scope g.scope).isStrict with
  | true =>
    obtain rfl := after.strict strict
    obtain ⟨v, known⟩ := is.2 strict
    exact (Store.lookUp_isOk ..).mpr ⟨some v, known, fun _ => rfl⟩
  | false =>
    obtain ⟨w, found⟩ := (after.ends (ends strict)).find? t.content
    refine (Store.lookUp_isOk ..).mpr ⟨w, found, fun strict' => ?_⟩
    simp [after.isStrict, strict] at strict'

mutual

theorem derives_of_reads {d : Nat} {r : Rule} {st₁ st' : Store} {ts : List Token} {e : Expr} :
    Reads g d r st₁ ts e st' → Follows g.scope st st₁ → Derives g st r ts
  | .operand level only, after => .operand level (derives_of_reads only after)
  | .operator level is left right, after => by
    obtain ⟨a, listed, symbol⟩ := exists_symbol is
    exact .operator level listed symbol (derives_of_reads left after)
      (derives_of_reads right (after.trans left.follows))
  | .signed is left right, after => by
    obtain ⟨number, sign⟩ := Bool.and_eq_true_iff.mp is
    exact .signed number sign (derives_of_reads left after)
      (derives_of_reads right (after.trans left.follows))
  | .negated minus inner, after => .negated minus (derives_of_reads inner after)
  | .brackets plus opening inner closing, after =>
    .brackets plus opening (derives_of_reads inner after) closing
  | .bars opening inner closing, after => .bars opening (derives_of_reads inner after) closing
  | .called inner, after => .called (derives_of_reads inner after)
  | .call name opening inner closing known fits, after =>
    .call ⟨name, _, known, accepts_iff.mp fits⟩ opening
      (derives_of_readsArguments inner after) closing
  | .variable name found, after => .variable (isVariable_of_lookUp after name found)
  | .number plus is value, _ => .number plus ⟨is, _, value⟩
  | .quantity plus is value name known _, _ =>
    .quantity plus ⟨is, _, value⟩ (isQuantifier_iff.mpr ⟨name, _, known⟩)

theorem derives_of_readsArguments {d : Nat} {isFirst : Bool} {st₁ st' : Store} {ts : List Token}
    {es : List Expr} : ReadsArguments g d isFirst st₁ ts es st' → Follows g.scope st st₁ →
      DerivesArguments g st isFirst ts es.length
  | .none, _ => .none
  | .first head tail, after => .first (derives_of_reads head after)
      (derives_of_readsArguments tail (after.trans head.follows))
  | .next comma head tail, after => .next comma (derives_of_reads head after)
      (derives_of_readsArguments tail (after.trans head.follows))

end

mutual

theorem reads_of_derives (ends : (st.scope g.scope).isStrict = false → st.Ends g.scope)
    {r : Rule} {ts : List Token} : Derives g st r ts → ∀ st₁, Follows g.scope st st₁ →
    ∃ d e st', Reads g d r st₁ ts e st'
  -- A derivation does not bound its depth: parts of different depths meet at the greater one.
  | .operand level only, st₁, after => by
    obtain ⟨d, e, st', reads⟩ := reads_of_derives ends only st₁ after
    exact ⟨d + 1, e, st', .operand level reads⟩
  | .operator level listed is left right, st₁, after => by
    obtain ⟨d, x, st₂, first⟩ := reads_of_derives ends left st₁ after
    obtain ⟨d', y, st', second⟩ := reads_of_derives ends right st₂ (after.trans first.follows)
    obtain ⟨op, is⟩ := exists_operator? is listed
    exact ⟨_, _, st', .operator level is (first.mono (Nat.le_max_left d d'))
      (second.mono (Nat.le_max_right d d'))⟩
  | .signed number sign left right, st₁, after => by
    obtain ⟨d, x, st₂, first⟩ := reads_of_derives ends left st₁ after
    obtain ⟨d', y, st', second⟩ := reads_of_derives ends right st₂ (after.trans first.follows)
    exact ⟨_, _, st', .signed (Bool.and_eq_true_iff.mpr ⟨number, sign⟩)
      (first.mono (Nat.le_max_left d d')) (second.mono (Nat.le_max_right d d'))⟩
  | .negated minus inner, st₁, after => by
    obtain ⟨d, e, st', reads⟩ := reads_of_derives ends inner st₁ after
    exact ⟨d + 1, _, st', .negated minus reads⟩
  | .brackets plus opening inner closing, st₁, after => by
    obtain ⟨d, e, st', reads⟩ := reads_of_derives ends inner st₁ after
    exact ⟨d + 1, _, st', .brackets plus opening reads closing⟩
  | .bars opening inner closing, st₁, after => by
    obtain ⟨d, e, st', reads⟩ := reads_of_derives ends inner st₁ after
    exact ⟨d + 1, _, st', .bars opening reads closing⟩
  | .called inner, st₁, after => by
    obtain ⟨d, e, st', reads⟩ := reads_of_derives ends inner st₁ after
    exact ⟨d + 1, e, st', .called reads⟩
  | .call name opening inner closing, st₁, after => by
    obtain ⟨isName, f, known, arity⟩ := name
    obtain ⟨d, es, st', reads, length⟩ := readsArguments_of_derives ends inner st₁ after
    exact ⟨d + 1, _, st',
      .call isName opening reads closing known (accepts_iff.mpr (length ▸ arity))⟩
  | .variable name, st₁, after => by
    obtain ⟨v, st', found⟩ := exists_lookUp ends after name
    exact ⟨1, _, st', .variable name.1 found⟩
  | .number plus is, st₁, _ => by
    obtain ⟨isNumber, v, value⟩ := is
    exact ⟨1, _, st₁, .number plus isNumber value⟩
  | .quantity plus is quantifier, st₁, _ => by
    obtain ⟨isNumber, v, value⟩ := is
    obtain ⟨name, n, known⟩ := isQuantifier_iff.mp quantifier
    obtain ⟨w, product, _⟩ := scaled_number (p := g.bits) (mem_of_lookup known)
      (Value.ofNumeral_isLiteral value)
    exact ⟨1, _, st₁, .quantity plus isNumber value name known product⟩

theorem readsArguments_of_derives (ends : (st.scope g.scope).isStrict = false → st.Ends g.scope)
    {isFirst : Bool} {ts : List Token} {count : Nat} :
    DerivesArguments g st isFirst ts count → ∀ st₁, Follows g.scope st st₁ →
      ∃ d es st', ReadsArguments g d isFirst st₁ ts es st' ∧ es.length = count
  | .none, st₁, _ => ⟨0, [], st₁, .none, rfl⟩
  | .first head tail, st₁, after => by
    obtain ⟨d, e, st₂, first⟩ := reads_of_derives ends head st₁ after
    obtain ⟨d', es, st', others, length⟩ :=
      readsArguments_of_derives ends tail st₂ (after.trans first.follows)
    exact ⟨max d d', e :: es, st', .first (first.mono (Nat.le_max_left d d'))
      (others.mono (Nat.le_max_right d d')), congrArg (· + 1) length⟩
  | .next comma head tail, st₁, after => by
    obtain ⟨d, e, st₂, first⟩ := reads_of_derives ends head st₁ after
    obtain ⟨d', es, st', others, length⟩ :=
      readsArguments_of_derives ends tail st₂ (after.trans first.follows)
    exact ⟨max d d', e :: es, st', .next comma (first.mono (Nat.le_max_left d d'))
      (others.mono (Nat.le_max_right d d')), congrArg (· + 1) length⟩

end

/-- The tokens that are derived are those that are read as some expression. -/
theorem derives_iff_reads {r : Rule} {ts : List Token}
    (ends : (st.scope g.scope).isStrict = false → st.Ends g.scope) :
    Derives g st r ts ↔ ∃ d e st', Reads g d r st ts e st' :=
  ⟨fun h => reads_of_derives ends h st (.refl _ _),
    fun ⟨_, _, _, h⟩ => derives_of_reads h (.refl _ _)⟩

end Phrases

end Formula.Parser
