import Formula.Proofs.Parser.Levels

/-! What the rules read. A rule reads a list of tokens as an expression, and makes variables for
names that are new. This is the grammar as a relation, without any order of reading and without
problems. -/
namespace Formula.Parser

inductive OptionalPlus : List Token → Prop
  | absent : OptionalPlus []
  | present {t : Token} (plus : t.isSymbol "+") : OptionalPlus [t]

mutual

/-- By the rule the tokens are read as the expression, with rules calling each other so many times,
and that takes the first store to the second. -/
inductive Reads (g : Grammar) : (depth : Nat) → Rule → Store → List Token → Expr → Store → Prop
  | operand {d : Nat} {r b : Rule} {st st' : Store} {ts : List Token} {e : Expr}
      (level : r.operand? = some b) (only : Reads g d b st ts e st') : Reads g (d + 1) r st ts e st'
  | operator {d : Nat} {r b : Rule} {st st₁ st' : Store} {ts us : List Token} {t : Token}
      {op : Operator} {x y : Expr} (level : r.operand? = some b) (is : operator? r t = some op)
      (left : Reads g d b st ts x st₁) (right : Reads g d r st₁ us y st') :
      Reads g (d + 1) r st (ts ++ t :: us) (.reorder op x y) st'
  | signed {d : Nat} {st st₁ st' : Store} {ts us : List Token} {t : Token} {x y : Expr}
      (is : isNegativeNumber t) (left : Reads g d .product st ts x st₁)
      (right : Reads g d .sum st₁ (t :: us) y st') :
      Reads g (d + 1) .sum st (ts ++ t :: us) (.reorder .add x y) st'
  | negated {d : Nat} {st st' : Store} {ts : List Token} {t : Token} {e : Expr}
      (minus : t.isSymbol "-") (inner : Reads g d .atom st ts e st') :
      Reads g (d + 1) .atom st (t :: ts) (.binary .subtract (.constant (.zero g.mode)) e true) st'
  | brackets {d : Nat} {st st' : Store} {ps ts : List Token} {t u : Token} {e : Expr}
      (plus : OptionalPlus ps) (opening : t.isSymbol "(")
      (inner : Reads g d .expression st ts e st')
      (closing : u.isSymbol ")") :
      Reads g (d + 1) .atom st (ps ++ t :: (ts ++ [u])) e.inBrackets st'
  | bars {d : Nat} {st st' : Store} {ts : List Token} {t u : Token} {e : Expr}
      (opening : t.isSymbol "|") (inner : Reads g d .expression st ts e st')
      (closing : u.isSymbol "|") :
      Reads g (d + 1) .atom st (t :: (ts ++ [u])) (.call .absolute "abs" [e]) st'
  | called {d : Nat} {st st' : Store} {ts : List Token} {e : Expr}
      (inner : Reads g d .call st ts e st') : Reads g (d + 1) .atom st ts e st'
  | call {d : Nat} {st st' : Store} {ts : List Token} {t u w : Token}
      {args : List Expr} {f : Function}
      (name : t.isKind .identifier) (opening : u.isSymbol "(")
      (inner : ReadsArguments g d true st ts args st') (closing : w.isSymbol ")")
      (known : g.functions.get? t.content = some f) (fits : f.accepts args.length) :
      Reads g (d + 1) .call st (t :: u :: (ts ++ [w])) (.call f t.content args) st'
  | variable {d : Nat} {st st' : Store} {t : Token} {v : VariableId} (name : t.isKind .identifier)
      (found : st.lookUp g.scope t.content = .ok (v, st')) :
      Reads g (d + 1) .atom st [t] (.reference v (st'.var v).name) st'
  | number {d : Nat} {st : Store} {ps : List Token} {t : Token} {v : Value} (plus : OptionalPlus ps)
      (is : t.isNumber) (value : Value.ofNumeral g.mode g.bits t.content = .ok v) :
      Reads g (d + 1) .atom st (ps ++ [t]) (.constant v) st
  | quantity {d : Nat} {st : Store} {ps : List Token} {t q : Token} {v w : Value} {n : Int}
      (plus : OptionalPlus ps) (is : t.isNumber)
      (value : Value.ofNumeral g.mode g.bits t.content = .ok v) (name : q.isKind .identifier)
      (known : quantifiers.lookup q.content = some n) (product : scaled g.bits v n = .ok w) :
      Reads g (d + 1) .atom st (ps ++ [t, q]) (.constant w) st

/-- The tokens are read as arguments, which are the first ones of a call or come after others. -/
inductive ReadsArguments (g : Grammar) :
    (depth : Nat) → (isFirst : Bool) → Store → List Token → List Expr → Store → Prop
  | none {d : Nat} {isFirst : Bool} {st : Store} : ReadsArguments g d isFirst st [] [] st
  | first {d : Nat} {st st₁ st' : Store} {ts us : List Token} {e : Expr} {es : List Expr}
      (head : Reads g d .expression st ts e st₁) (tail : ReadsArguments g d false st₁ us es st') :
      ReadsArguments g d true st (ts ++ us) (e :: es) st'
  | next {d : Nat} {st st₁ st' : Store} {ts us : List Token} {t : Token} {e : Expr} {es : List Expr}
      (comma : t.isSymbol ",") (head : Reads g d .expression st ts e st₁)
      (tail : ReadsArguments g d false st₁ us es st') :
      ReadsArguments g d false st (t :: (ts ++ us)) (e :: es) st'

end

theorem Reads.call_starts {g : Grammar} {d : Nat} {st st' : Store} {ts : List Token} {e : Expr}
    (h : Reads g d .call st ts e st') :
    ∃ t u us, ts = t :: u :: us ∧ t.isKind .identifier ∧ u.isSymbol "(" := by
  cases h with
  | operand level => cases level
  | operator level => cases level
  | call name opening => exact ⟨_, _, _, rfl, name, opening⟩

/-- A token at which a phrase of the rule ends: the phrase cannot go on with an operator, a signed
number, a quantifier or an opening bracket. -/
structure Stops (r : Rule) (t : Token) : Prop where
  noName : t.isKind .identifier = false
  noBracket : t.isSymbol "(" = false
  noOperator : ∀ r' : Rule, r.rank ≤ r'.rank → operator? r' t = none
  noSign : r.rank ≤ Rule.sum.rank → isNegativeNumber t = false

section Tokens

variable {t : Token} {a b : String}

theorem isSymbol_iff : t.isSymbol a ↔ t.kind = .symbol ∧ t.trigger = a := by
  simp [Token.isSymbol, Token.isTriggered]

theorem not_isSymbol (h : t.isSymbol a) (other : a ≠ b) : t.isSymbol b = false := by
  have same := (isSymbol_iff.mp h).2
  simp [Token.isSymbol, Token.isTriggered, same, other]

theorem not_isKind_of_isSymbol (h : t.isSymbol a) {k : TokenKind} (other : k ≠ .symbol) :
    t.isKind k = false := by
  simp [Token.isKind, (isSymbol_iff.mp h).1, other.symm]

theorem not_isNumber_of_isSymbol (h : t.isSymbol a) : t.isNumber = false := by
  simp [Token.isNumber, (isSymbol_iff.mp h).1]

theorem not_isSymbol_of_isNumber (h : t.isNumber) : t.isSymbol a = false := by
  cases hs : t.isSymbol a with
  | false => rfl
  | true => simp [not_isNumber_of_isSymbol hs] at h

theorem not_isSymbol_of_isKind {k : TokenKind} (h : t.isKind k) (other : k ≠ .symbol) :
    t.isSymbol a = false := by
  cases hs : t.isSymbol a with
  | false => rfl
  | true => simp [not_isKind_of_isSymbol hs other] at h

theorem not_isName_of_isNumber (h : t.isNumber) : t.isKind .identifier = false := by
  cases hk : t.isKind .identifier with
  | false => rfl
  | true =>
    have kind : t.kind = .identifier := by simpa [Token.isKind] using hk
    simp [Token.isNumber, kind] at h

theorem isNumber_of_isNegativeNumber (h : isNegativeNumber t) : t.isNumber := by
  simp only [isNegativeNumber, Bool.and_eq_true] at h
  exact h.1

theorem operator?_of_isSymbol (h : t.isSymbol a) (r : Rule) :
    operator? r t = (operators r).lookup a := by
  obtain ⟨kind, rfl⟩ := isSymbol_iff.mp h
  simp [operator?, Token.isKind, kind]

theorem operator?_of_not_symbol (h : t.isKind .symbol = false) (r : Rule) :
    operator? r t = none := by
  simp [operator?, h]

theorem operator?_of_isNumber (h : t.isNumber) (r : Rule) : operator? r t = none := by
  refine operator?_of_not_symbol ?_ r
  cases hk : t.isKind .symbol with
  | false => rfl
  | true =>
    have kind : t.kind = .symbol := by simpa [Token.isKind] using hk
    simp [Token.isNumber, kind] at h

theorem exists_isSymbol_of_operator? {r : Rule} {op : Operator} (h : operator? r t = some op) :
    ∃ a, t.isSymbol a ∧ (a, op) ∈ operators r := by
  unfold operator? at h
  split at h
  · rename_i kind
    exact ⟨t.trigger, isSymbol_iff.mpr ⟨by simpa [Token.isKind] using kind, rfl⟩, mem_of_lookup h⟩
  · contradiction

theorem not_isEnd_of_isSymbol (h : t.isSymbol a) : t.isEnd = false := by
  simp [Token.isEnd, (isSymbol_iff.mp h).1]

theorem not_isEnd_of_isName (h : t.isKind .identifier) : t.isEnd = false := by
  have kind : t.kind = .identifier := by simpa [Token.isKind] using h
  simp [Token.isEnd, kind]

theorem not_isEnd_of_isNumber (h : t.isNumber) : t.isEnd = false := by
  cases he : t.isEnd with
  | false => rfl
  | true =>
    have kind : t.kind = .endOfInput := by simpa [Token.isEnd] using he
    simp [Token.isNumber, kind] at h

end Tokens

def Opens (ts : List Token) : Prop :=
  ∃ t us, ts = t :: us ∧ t.isSymbol ")" = false ∧ t.isEnd = false

theorem Opens.length_pos {ts : List Token} (h : Opens ts) : 0 < ts.length := by
  obtain ⟨t, us, rfl, _⟩ := h
  exact Nat.succ_pos _

theorem Opens.append {ts : List Token} (h : Opens ts) (us : List Token) : Opens (ts ++ us) := by
  obtain ⟨t, rest, rfl, opens⟩ := h
  exact ⟨t, rest ++ us, rfl, opens⟩

theorem Opens.plus {ps ts : List Token} (plus : OptionalPlus ps) (h : Opens ts) :
    Opens (ps ++ ts) := by
  cases plus with
  | absent => exact h
  | present plus =>
    exact ⟨_, _, rfl, not_isSymbol plus (by decide), not_isEnd_of_isSymbol plus⟩

theorem Reads.opens {g : Grammar} {d : Nat} {r : Rule} {st st' : Store}
    {ts : List Token} {e : Expr} :
    Reads g d r st ts e st' → Opens ts
  | .operand _ only => only.opens
  | .operator _ _ left _ => left.opens.append _
  | .signed _ left _ => left.opens.append _
  | .negated minus _ => ⟨_, _, rfl, not_isSymbol minus (by decide), not_isEnd_of_isSymbol minus⟩
  | .brackets plus opening _ _ =>
    .plus plus ⟨_, _, rfl, not_isSymbol opening (by decide), not_isEnd_of_isSymbol opening⟩
  | .bars opening _ _ =>
    ⟨_, _, rfl, not_isSymbol opening (by decide), not_isEnd_of_isSymbol opening⟩
  | .called inner => inner.opens
  | .call name _ _ _ _ _ =>
    ⟨_, _, rfl, not_isSymbol_of_isKind name (by decide), not_isEnd_of_isName name⟩
  | .variable name _ =>
    ⟨_, _, rfl, not_isSymbol_of_isKind name (by decide), not_isEnd_of_isName name⟩
  | .number plus is _ =>
    .plus plus ⟨_, _, rfl, not_isSymbol_of_isNumber is, not_isEnd_of_isNumber is⟩
  | .quantity plus is _ _ _ _ =>
    .plus plus ⟨_, _, rfl, not_isSymbol_of_isNumber is, not_isEnd_of_isNumber is⟩

section Deeper

variable {g : Grammar}

mutual

theorem Reads.mono {d : Nat} {r : Rule} {st st' : Store} {ts : List Token} {e : Expr} :
    Reads g d r st ts e st' → ∀ {n : Nat}, d ≤ n → Reads g n r st ts e st'
  | .operand level only, n + 1, deeper => .operand level (only.mono (Nat.le_of_succ_le_succ deeper))
  | .operator level is left right, n + 1, deeper =>
    .operator level is (left.mono (Nat.le_of_succ_le_succ deeper))
      (right.mono (Nat.le_of_succ_le_succ deeper))
  | .signed is left right, n + 1, deeper =>
    .signed is (left.mono (Nat.le_of_succ_le_succ deeper))
      (right.mono (Nat.le_of_succ_le_succ deeper))
  | .negated minus inner, n + 1, deeper =>
    .negated minus (inner.mono (Nat.le_of_succ_le_succ deeper))
  | .brackets plus opening inner closing, n + 1, deeper =>
    .brackets plus opening (inner.mono (Nat.le_of_succ_le_succ deeper)) closing
  | .bars opening inner closing, n + 1, deeper =>
    .bars opening (inner.mono (Nat.le_of_succ_le_succ deeper)) closing
  | .called inner, n + 1, deeper => .called (inner.mono (Nat.le_of_succ_le_succ deeper))
  | .call name opening inner closing known fits, n + 1, deeper =>
    .call name opening (inner.mono (Nat.le_of_succ_le_succ deeper)) closing known fits
  | .variable name found, n + 1, _ => .variable name found
  | .number plus is value, n + 1, _ => .number plus is value
  | .quantity plus is value name known product, n + 1, _ =>
    .quantity plus is value name known product

theorem ReadsArguments.mono {d : Nat} {isFirst : Bool} {st st' : Store} {ts : List Token}
    {es : List Expr} :
    ReadsArguments g d isFirst st ts es st' → ∀ {n : Nat}, d ≤ n →
      ReadsArguments g n isFirst st ts es st'
  | .none, _, _ => .none
  | .first head tail, _, deeper => .first (head.mono deeper) (tail.mono deeper)
  | .next comma head tail, _, deeper => .next comma (head.mono deeper) (tail.mono deeper)

end

end Deeper

section Stops

variable {r b : Rule} {t : Token}

theorem stops_of_isEnd (h : t.isEnd) (r : Rule) : Stops r t := by
  have kind : t.kind = .endOfInput := by simpa [Token.isEnd] using h
  constructor
  · simp [Token.isKind, kind]
  · simp [Token.isSymbol, Token.isTriggered, kind]
  · exact fun r' _ => operator?_of_not_symbol (by simp [Token.isKind, kind]) r'
  · simp [isNegativeNumber, Token.isNumber, kind]

theorem stops_of_closing {a : String} (h : t.isSymbol a) (closing : a ∈ [")", "|", ","])
    (r : Rule) : Stops r t := by
  have none (r' : Rule) : (operators r').lookup a = none ∧ a ≠ "(" := by
    have all : ∀ c ∈ [")", "|", ","], (operators r').lookup c = Option.none ∧ c ≠ "(" := by
      cases r' <;> decide
    exact all a closing
  constructor
  · exact not_isKind_of_isSymbol h (by decide)
  · exact not_isSymbol h (none r).2
  · exact fun r' _ => (operator?_of_isSymbol h r').trans (none r').1
  · intro
    simp [isNegativeNumber, not_isNumber_of_isSymbol h]

theorem Stops.deeper (h : Stops r t) (level : r.operand? = some b) : Stops b t := by
  have rank := Rule.rank_operand level
  exact ⟨h.noName, h.noBracket, fun r' hr => h.noOperator r' (by omega),
    fun hr => h.noSign (by omega)⟩

theorem Stops.sameRank (h : Stops r t) (same : b.rank = r.rank) : Stops b t :=
  ⟨h.noName, h.noBracket, fun r' hr => h.noOperator r' (same ▸ hr), fun hr => h.noSign (same ▸ hr)⟩

theorem operators_disjoint (r r' : Rule) (deeper : r.rank < r'.rank) :
    ∀ e ∈ operators r, (operators r').lookup e.1 = none ∧ e.1 ≠ "(" := by
  cases r <;> cases r' <;> first | decide | exact absurd deeper (by decide)

theorem stops_of_operator {op : Operator} (level : r.operand? = some b)
    (h : operator? r t = some op) : Stops b t := by
  have rank := Rule.rank_operand level
  obtain ⟨a, is, listed⟩ := exists_isSymbol_of_operator? h
  have other (r' : Rule) (hr : b.rank ≤ r'.rank) := operators_disjoint r r' (by omega) _ listed
  constructor
  · exact not_isKind_of_isSymbol is (by decide)
  · exact not_isSymbol is (other b (Nat.le_refl _)).2
  · exact fun r' hr => (operator?_of_isSymbol is r').trans (other r' hr).1
  · intro
    simp [isNegativeNumber, not_isNumber_of_isSymbol is]

theorem stops_of_isNegativeNumber (h : isNegativeNumber t) : Stops .product t := by
  have number := isNumber_of_isNegativeNumber h
  constructor
  · exact not_isName_of_isNumber number
  · exact not_isSymbol_of_isNumber number
  · exact fun r' _ => operator?_of_isNumber number r'
  · simp [Rule.rank]

end Stops

end Formula.Parser
