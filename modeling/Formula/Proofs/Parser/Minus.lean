import Formula.Proofs.Expr.Subtraction
import Formula.Proofs.Parser.Chains
import Formula.Proofs.Parser.Words
import Formula.Proofs.Value.SignedNumerals

/-! The minus sign of a number. Where no blank separates a minus sign from a number behind it, the
sign belongs to the number, and the number is added to the operand in front of the sign. That is the
same as to subtract the number without the sign, unless the number is the base of a power. -/
namespace Formula.Parser

open Number (IsUnsigned)
open Evaluation (SameWhere)

def EndsOperand (t : Token) : Prop := t.isNumber ∨ t.isKind .identifier ∨ t.isSymbol ")"

/-- The second token is the number that the first one is, with a minus sign. -/
structure IsNegated (n n' : Token) : Prop where
  number : n.isNumber
  unsigned : IsUnsigned n.content.toList
  number' : n'.isNumber
  content : n'.content = "-" ++ n.content

def isPower (t : Token) : Bool := (operator? .power t).isSome

def raises : List Token → Bool
  | [] => false
  | [t] => isPower t
  | q :: t :: _ => isPower q || q.isKind .identifier && isPower t

/-- The second tokens are the first ones, but for a number with a sign that stands in place of a
minus sign between an operand and the number, which is not the base of a power. -/
inductive Glues : List Token → List Token → Prop
  | intro {ts us : List Token} {t m n n' : Token} (operand : EndsOperand t) (minus : m.isSymbol "-")
      (negated : IsNegated n n') (free : raises us = false) :
      Glues (ts ++ t :: m :: n :: us) (ts ++ t :: n' :: us)

section Tokens

variable {as bs cs us : List Token} {t m n n' : Token} {a : String}

theorem not_endsOperand (is : t.isSymbol a) (other : a ≠ ")") : ¬ EndsOperand t := by
  rintro (number | name | closing)
  · rw [not_isNumber_of_isSymbol is] at number
    cases number
  · rw [not_isKind_of_isSymbol is (by decide)] at name
    cases name
  · rw [not_isSymbol is other] at closing
    cases closing

theorem IsNegated.isNegativeNumber (h : IsNegated n n') : isNegativeNumber n' := by
  apply Bool.and_eq_true_iff.mpr ⟨h.number', String.startsWith_string_iff.mpr _⟩
  rw [h.content, String.toList_append]
  exact List.prefix_append _ _

theorem IsNegated.not_isNegativeNumber (h : IsNegated n n') :
    Parser.isNegativeNumber n = false := by
  apply Bool.eq_false_iff.mpr
  intro negative
  obtain ⟨rest, starts⟩ := String.startsWith_string_iff.mp (Bool.and_eq_true_iff.mp negative).2
  have first : n.content.toList.head? = some '-' := starts ▸ rfl
  exact (h.unsigned.noSign '-' first).1 rfl

theorem raises_power (power : isPower t) : raises (t :: us) := by
  cases us <;> simp [raises, power]

theorem not_raises_left (free : raises (as ++ bs) = false) : raises as = false := by
  match as, free with
  | [], _ => rfl
  | [t], free =>
    cases bs with
    | nil => exact free
    | cons u us => exact (Bool.or_eq_false_iff.mp free).1
  | _ :: _ :: _, free => exact free

theorem Glues.length (h : Glues as bs) : 3 ≤ as.length := by
  cases h
  simp only [List.length_append, List.length_cons]
  omega

inductive Splits (as bs : List Token) : List Token → Prop
  | left {cs : List Token} (glued : Glues as cs) : Splits as bs (cs ++ bs)
  | right {cs : List Token} (glued : Glues bs cs) : Splits as bs (as ++ cs)
  | between {m n n' : Token} {us : List Token} (minus : m.isSymbol "-") (negated : IsNegated n n')
      (free : raises us = false)
      (rest : bs = m :: n :: us) : Splits as bs (as ++ n' :: us)
  | behind {n n' : Token} {us cs : List Token} (negated : IsNegated n n') (rest : bs = n :: us) :
      Splits as bs cs

theorem Glues.splits (h : Glues (as ++ bs) cs) : Splits as bs cs := by
  generalize same : as ++ bs = ds at h
  cases h with
  | @intro ts us t m n n' operand minus negated free =>
    rcases List.append_eq_append_iff.mp same with ⟨ds, rfl, rest⟩ | ⟨ds, rfl, rest⟩
    · rw [List.append_assoc]
      exact .right (rest ▸ .intro operand minus negated free)
    -- The first part ends in front of the three tokens, between two of them or behind them.
    · rcases ds with _ | ⟨d, _ | ⟨e, _ | ⟨f, es⟩⟩⟩
      · obtain rfl : t :: m :: n :: us = bs := rest
        rw [List.append_nil]
        have glued : Glues ([] ++ t :: m :: n :: us) ([] ++ t :: n' :: us) :=
          .intro operand minus negated free
        exact .right glued
      · obtain ⟨rfl, others⟩ := List.cons.inj rest
        have split : Splits (ts ++ [t]) bs ((ts ++ [t]) ++ n' :: us) :=
          .between minus negated free others.symm
        simpa using split
      · obtain ⟨_, others⟩ := List.cons.inj rest
        exact .behind negated (List.cons.inj others).2.symm
      · simp only [List.cons_append, List.cons.injEq] at rest
        obtain ⟨rfl, rfl, rfl, rfl⟩ := rest
        have short : raises es = false := not_raises_left free
        have split : Splits (ts ++ t :: m :: n :: es) bs ((ts ++ t :: n' :: es) ++ bs) :=
          .left (.intro operand minus negated short)
        simpa using split

theorem Glues.parts (h : Glues (as ++ t :: bs) cs) (noMinus : t.isSymbol "-" = false)
    (noNumber : t.isNumber = false) :
    (∃ ds, Glues as ds ∧ cs = ds ++ t :: bs) ∨ ∃ ds, Glues (t :: bs) ds ∧ cs = as ++ ds := by
  cases h.splits with
  | left glued => exact .inl ⟨_, glued, rfl⟩
  | right glued => exact .inr ⟨_, glued, rfl⟩
  | between minus _ _ rest =>
    obtain ⟨rfl, _⟩ := List.cons.inj rest
    rw [noMinus] at minus
    cases minus
  | behind negated rest =>
    obtain ⟨rfl, _⟩ := List.cons.inj rest
    have number := negated.number
    rw [noNumber] at number
    cases number

theorem Glues.tail (h : Glues (t :: as) cs)
    (kept : EndsOperand t → ∀ m ∈ as.head?, m.isSymbol "-" = false) :
    ∃ bs, Glues as bs ∧ cs = t :: bs := by
  generalize same : t :: as = ds at h
  cases h with
  | @intro ts us t' m n n' operand minus negated free =>
    cases ts with
    | nil =>
      obtain ⟨rfl, rfl⟩ := List.cons.inj same
      rw [kept operand m rfl] at minus
      cases minus
    | cons d ts =>
      obtain ⟨rfl, rfl⟩ := List.cons.inj same
      exact ⟨_, .intro operand minus negated free, rfl⟩

theorem Glues.head (h : Glues (t :: as) cs) : ∃ bs, cs = t :: bs := by
  generalize same : t :: as = ds at h
  cases h with
  | @intro ts us t' m n n' =>
    cases ts with
    | nil =>
      obtain ⟨rfl, _⟩ := List.cons.inj same
      exact ⟨_, rfl⟩
    | cons d ts =>
      obtain ⟨rfl, _⟩ := List.cons.inj same
      exact ⟨_, rfl⟩

theorem Glues.enclosed {b : String} {u : Token} (h : Glues (t :: (as ++ [u])) cs)
    (opening : t.isSymbol a)
    (other : a ≠ ")") (closing : u.isSymbol b) (other' : b ≠ "-") :
    ∃ bs, Glues as bs ∧ cs = t :: (bs ++ [u]) := by
  obtain ⟨ds, glued, rfl⟩ := h.tail fun ends => absurd ends (not_endsOperand opening other)
  rcases glued.parts (not_isSymbol closing other') (not_isNumber_of_isSymbol closing) with
    ⟨bs, inner, rfl⟩ | ⟨bs, last, _⟩
  · exact ⟨bs, inner, rfl⟩
  · exact absurd last.length (by simp)

end Tokens

section Numbers

variable {g : Grammar} {d : Nat} {st st' : Store} {us : List Token} {n n' : Token}
  {e : Expr} {v : Value}

/-- The value of a number, with the quantifier that may follow it. -/
inductive Counts (g : Grammar) (n : Token) : List Token → Value → Prop
  | number {v : Value} (value : Value.ofNumeral g.mode g.bits n.content = .ok v) : Counts g n [] v
  | quantity {q : Token} {v w : Value} {k : Int}
      (value : Value.ofNumeral g.mode g.bits n.content = .ok v)
      (name : q.isKind .identifier) (known : quantifiers.lookup q.content = some k)
      (product : scaled g.bits v k = .ok w) : Counts g n [q] w

theorem Counts.reads (number : n.isNumber) (h : Counts g n us v) (d : Nat) (st : Store) :
    Reads g (d + 1) .atom st (n :: us) (.constant v) st := by
  cases h with
  | number value => exact .number .absent number value
  | quantity value name known product => exact .quantity .absent number value name known product

theorem Reads.counts (number : n.isNumber) (h : Reads g d .atom st (n :: us) e st') :
    ∃ k v, d = k + 1 ∧ Counts g n us v ∧ e = .constant v ∧ st' = st := by
  have noSymbol (a : String) : ¬ n.isSymbol a := by simp [not_isSymbol_of_isNumber number]
  have noName : ¬ n.isKind .identifier := by simp [not_isName_of_isNumber number]
  -- Only the last two rules for atoms start with a number.
  generalize same : n :: us = ts at h
  cases h with
  | operand level => cases level
  | operator level => cases level
  | negated minus =>
    obtain ⟨rfl, _⟩ := List.cons.inj same
    exact absurd minus (noSymbol _)
  | brackets plus opening =>
    cases plus with
    | absent =>
      obtain ⟨rfl, _⟩ := List.cons.inj same
      exact absurd opening (noSymbol _)
    | present plus =>
      obtain ⟨rfl, _⟩ := List.cons.inj same
      exact absurd plus (noSymbol _)
  | bars opening =>
    obtain ⟨rfl, _⟩ := List.cons.inj same
    exact absurd opening (noSymbol _)
  | called inner =>
    obtain ⟨t, u, _, rfl, name, _⟩ := inner.call_starts
    obtain ⟨rfl, _⟩ := List.cons.inj same
    exact absurd name noName
  | «variable» name =>
    obtain ⟨rfl, _⟩ := List.cons.inj same
    exact absurd name noName
  | number plus is value =>
    cases plus with
    | absent =>
      obtain ⟨rfl, rfl⟩ := List.cons.inj same
      exact ⟨_, _, rfl, .number value, rfl, rfl⟩
    | present plus =>
      obtain ⟨rfl, _⟩ := List.cons.inj same
      exact absurd plus (noSymbol _)
  | quantity plus is value name known product =>
    cases plus with
    | absent =>
      obtain ⟨rfl, rfl⟩ := List.cons.inj same
      exact ⟨_, _, rfl, .quantity value name known product, rfl, rfl⟩
    | present plus =>
      obtain ⟨rfl, _⟩ := List.cons.inj same
      exact absurd plus (noSymbol _)

theorem isFactor_numeral {s : String} (value : Value.ofNumeral g.mode g.bits s = .ok v) :
    v.IsFactor g.mode :=
  ⟨Value.ofNumeral_isSigned value, fun precise => .inl (Value.ofNumeral_precise value precise)⟩

theorem IsNegated.counts (negated : IsNegated n n') (h : Counts g n us v) :
    v.IsFactor g.mode ∧ Counts g n' us v.opposite := by
  have turned {x : Value} (value : Value.ofNumeral g.mode g.bits n.content = .ok x) :
      Value.ofNumeral g.mode g.bits n'.content = .ok x.opposite := by
    rw [negated.content, Value.ofNumeral_minus negated.unsigned, value]
    rfl
  cases h with
  | number value => exact ⟨isFactor_numeral value, .number (turned value)⟩
  | @quantity q x _ k value name known product =>
    rcases scaled_opposite (p := g.bits) (Value.ofNumeral_isSigned value) k with ⟨f, failed, _⟩ |
      ⟨y, signed, ok, ok'⟩
    · rw [product] at failed
      cases failed
    · obtain rfl : y = v := Except.ok.inj (ok.symm.trans product)
      have precise (mode : g.mode = .precise) : y.IsPreciseOrInvalid :=
        scaled_precise (Value.ofNumeral_precise value mode) k y ok
      exact ⟨⟨signed, precise⟩, .quantity (turned value) name known ok'⟩

theorem IsNegated.power (negated : IsNegated n n') (free : raises us = false)
    (h : Reads g d .power st (n :: us) e st') :
    ∃ e', Reads g d .power st (n' :: us) e' st' ∧ Expr.AreOpposed g.mode e e' := by
  generalize same : n :: us = ts at h
  cases h with
  | operand level only =>
    cases level
    subst same
    obtain ⟨k, v, rfl, counts, rfl, rfl⟩ := only.counts negated.number
    obtain ⟨factor, counts'⟩ := negated.counts counts
    exact ⟨_, .operand rfl (counts'.reads negated.number' k _), Expr.areOpposed_constant factor⟩
  | operator level is left =>
    cases level
    rcases List.append_eq_cons_iff.mp same.symm with ⟨rfl, _⟩ | ⟨ts, rfl, rfl⟩
    · exact absurd left.opens.length_pos (by simp)
    · have power : isPower _ = true := Option.isSome_iff_exists.mpr ⟨_, is⟩
      obtain ⟨k, v, rfl, counts, rfl, rfl⟩ := left.counts negated.number
      cases counts with
      | number => exact absurd (raises_power power) (ne_true_of_eq_false free)
      | quantity _ name => simp [raises, name, power] at free

end Numbers

section Plain

variable {g : Grammar}

open Formula.Expr (IsPlainNode)

theorem isPlainNode_binary {m : Mode} (op : Operator) (l r : Expr) (sealed : Bool) :
    IsPlainNode m (.binary op l r sealed) := fun _ _ => trivial

theorem isPlainNode_zero (m : Mode) : IsPlainNode m (.constant (.zero m)) := by
  rintro rfl c
  exact (rfl : (Value.zero .float).isPrecise = false)

mutual

theorem Reads.plain (builtin : g.functions = .builtin) {d : Nat} {r : Rule} {st st' : Store}
    {ts : List Token} {e : Expr} : Reads g d r st ts e st' → e.Everywhere (IsPlainNode g.mode)
  | .operand _ only => only.plain builtin
  | .operator _ _ left right =>
    Expr.everywhere_reorder isPlainNode_binary _ (left.plain builtin) (right.plain builtin)
  | .signed _ left right =>
    Expr.everywhere_reorder isPlainNode_binary _ (left.plain builtin) (right.plain builtin)
  | .negated _ inner => ⟨fun _ _ => trivial, isPlainNode_zero g.mode, inner.plain builtin⟩
  | .brackets _ _ inner _ => Expr.everywhere_inBrackets isPlainNode_binary (inner.plain builtin)
  | .bars _ inner _ => ⟨fun _ _ => Function.keeps_unary "abs" .abs, inner.plain builtin, trivial⟩
  | .called inner => inner.plain builtin
  | .call _ _ inner _ known _ =>
    ⟨fun _ c => Registry.keeps_builtin c _ _ (builtin ▸ known), inner.plain builtin⟩
  | .variable _ _ => fun _ _ => trivial
  | .number _ _ value => fun mode _ => Value.ofNumeral_plain value mode
  | .quantity _ _ value _ _ product => fun mode _ =>
    scaled_plain (Value.ofNumeral_plain value mode) _ _ product

theorem ReadsArguments.plain (builtin : g.functions = .builtin) {d : Nat} {isFirst : Bool}
    {st st' : Store} {ts : List Token} {es : List Expr} :
    ReadsArguments g d isFirst st ts es st' → Expr.AllEverywhere (IsPlainNode g.mode) es
  | .none => trivial
  | .first head tail | .next _ head tail => ⟨head.plain builtin, tail.plain builtin⟩

end

end Plain

section Sums

variable {g : Grammar} {d : Nat} {st st' : Store} {us : List Token} {n n' : Token} {e : Expr}

theorem IsNegated.product (builtin : g.functions = .builtin) (negated : IsNegated n n')
    (free : raises us = false) (h : Reads g d .product st (n :: us) e st') :
    ∃ e', Reads g d .product st (n' :: us) e' st' ∧ Expr.AreOpposed g.mode e e' := by
  generalize same : n :: us = ts at h
  cases h with
  | operand level only =>
    cases level
    subst same
    obtain ⟨e', reads, opposed⟩ := negated.power free only
    exact ⟨e', .operand rfl reads, opposed⟩
  | operator level is left right =>
    cases level
    rcases List.append_eq_cons_iff.mp same.symm with ⟨rfl, _⟩ | ⟨ts, rfl, rfl⟩
    · exact absurd left.opens.length_pos (by simp)
    · have short : raises ts = false := not_raises_left free
      obtain ⟨e', reads, opposed⟩ := negated.power short left
      have product : _ = 4 := priority_of_operator? is
      exact ⟨_, .operator rfl is reads right,
        Expr.areOpposed_reorder product opposed (right.plain builtin)⟩

theorem IsNegated.sum (builtin : g.functions = .builtin) (negated : IsNegated n n')
    (free : raises us = false) (h : Reads g d .sum st (n :: us) e st') :
    ∃ e', Reads g d .sum st (n' :: us) e' st' ∧ Expr.StartOpposed g.mode e e' := by
  -- Both products are the first of their chain: nothing in them is open on the level of sums.
  have starts {k : Nat} {st₁ : Store} {us : List Token} {x x' : Expr}
      (reads : Reads g k .product st (n :: us) x st₁)
      (reads' : Reads g k .product st (n' :: us) x' st₁) (opposed : Expr.AreOpposed g.mode x x') :
      Expr.StartOpposed g.mode x x' :=
    .product (reads.closedAbove 3 (by decide)) (reads'.closedAbove 3 (by decide)) opposed
  generalize same : n :: us = ts at h
  cases h with
  | operand level only =>
    cases level
    subst same
    obtain ⟨e', reads, opposed⟩ := negated.product builtin free only
    exact ⟨e', .operand rfl reads, starts only reads opposed⟩
  | operator level is left right =>
    cases level
    rcases List.append_eq_cons_iff.mp same.symm with ⟨rfl, _⟩ | ⟨ts, rfl, rfl⟩
    · exact absurd left.opens.length_pos (by simp)
    · have short : raises ts = false := not_raises_left free
      obtain ⟨e', reads, opposed⟩ := negated.product builtin short left
      have sum : _ = 3 := priority_of_operator? is
      exact ⟨_, .operator rfl is reads right, (starts left reads opposed).reorder sum _⟩
  | signed is left right =>
    rcases List.append_eq_cons_iff.mp same.symm with ⟨rfl, _⟩ | ⟨ts, rfl, rfl⟩
    · exact absurd left.opens.length_pos (by simp)
    · have short : raises ts = false := not_raises_left free
      obtain ⟨e', reads, opposed⟩ := negated.product builtin short left
      exact ⟨_, .signed is reads right, (starts left reads opposed).reorder rfl _⟩

end Sums

section Glued

variable {g : Grammar} {d : Nat} {st st₁ st' : Store} {ts us vs : List Token}
  {t u : Token} {x y e : Expr}

open Formula.Expr (Alike)

/-- What is read from the tokens evaluates in the same way when tokens are glued. -/
def Glueable (g : Grammar) (d : Nat) (r : Rule) (st : Store) (ts : List Token) (e : Expr)
    (st' : Store) : Prop :=
  ∀ us, Glues ts us → ∃ e', Reads g d r st us e' st' ∧ Alike g.mode e e'

def AllSame (m : Mode) (es es' : List Expr) : Prop :=
  List.Forall₂ (fun e e' => SameWhere (Circumstances.Suits m) e.evaluate e'.evaluate) es es'

def AllGlueable (g : Grammar) (d : Nat) (isFirst : Bool) (st : Store) (ts : List Token)
    (es : List Expr) (st' : Store) : Prop :=
  ∀ us, Glues ts us → ∃ es', ReadsArguments g d isFirst st us es' st' ∧ AllSame g.mode es es'

theorem operator?_minus {r : Rule} {op : Operator} (minus : t.isSymbol "-")
    (is : operator? r t = some op) :
    r = .sum ∧ op = .subtract := by
  rw [operator?_of_isSymbol minus] at is
  cases r with
  | sum => exact ⟨rfl, (Option.some.inj is).symm⟩
  | expression | relation | product | power | atom | call => cases is

theorem ne_closing {r : Rule} {a : String} {op : Operator} (listed : (a, op) ∈ operators r) :
    a ≠ ")" := by
  have all : ∀ o ∈ operators r, o.1 ≠ ")" := by cases r <;> decide
  exact all _ listed

theorem glueable_operator (builtin : g.functions = .builtin) {r b : Rule} {op : Operator}
    (level : r.operand? = some b) (is : operator? r t = some op) (left : Reads g d b st ts x st₁)
    (right : Reads g d r st₁ us y st') (first : Glueable g d b st ts x st₁)
    (others : Glueable g d r st₁ us y st') :
    Glueable g (d + 1) r st (ts ++ t :: us) (.reorder op x y) st' := by
  intro vs glues
  -- The glued sign stands in the left operand, in the right one, or in place of the operator.
  cases glues.splits with
  | left glued =>
    obtain ⟨x', reads, alike⟩ := first _ glued
    exact ⟨_, .operator level is reads right, alike.reorder _ (.refl _)⟩
  | right glued =>
    obtain ⟨a, symbol, listed⟩ := exists_isSymbol_of_operator? is
    obtain ⟨ws, glued', rfl⟩ :=
      glued.tail fun ends => absurd ends (not_endsOperand symbol (ne_closing listed))
    obtain ⟨y', reads, alike⟩ := others _ glued'
    exact ⟨_, .operator level is left reads, (Alike.refl _).reorder _ alike⟩
  | between minus negated free rest =>
    obtain ⟨rfl, rfl⟩ := List.cons.inj rest
    obtain ⟨rfl, rfl⟩ := operator?_minus minus is
    cases level
    obtain ⟨y', reads, opposed⟩ := negated.sum builtin free right
    exact ⟨_, .signed negated.isNegativeNumber left reads, opposed.alike _⟩
  | behind negated rest =>
    obtain ⟨rfl, _⟩ := List.cons.inj rest
    rw [operator?_of_isNumber negated.number] at is
    cases is

theorem glueable_signed (is : isNegativeNumber t) (left : Reads g d .product st ts x st₁)
    (right : Reads g d .sum st₁ (t :: us) y st') (first : Glueable g d .product st ts x st₁)
    (others : Glueable g d .sum st₁ (t :: us) y st') :
    Glueable g (d + 1) .sum st (ts ++ t :: us) (.reorder .add x y) st' := by
  intro vs glues
  cases glues.splits with
  | left glued =>
    obtain ⟨x', reads, alike⟩ := first _ glued
    exact ⟨_, .signed is reads right, alike.reorder _ (.refl _)⟩
  | right glued =>
    obtain ⟨ws, rfl⟩ := glued.head
    obtain ⟨y', reads, alike⟩ := others _ glued
    exact ⟨_, .signed is left reads, (Alike.refl _).reorder _ alike⟩
  | between minus _ _ rest =>
    obtain ⟨rfl, _⟩ := List.cons.inj rest
    have number := isNumber_of_isNegativeNumber is
    rw [not_isNumber_of_isSymbol minus] at number
    cases number
  | behind negated rest =>
    obtain ⟨rfl, _⟩ := List.cons.inj rest
    rw [negated.not_isNegativeNumber] at is
    cases is

theorem glueable_negated (minus : t.isSymbol "-") (inner : Glueable g d .atom st ts e st') :
    Glueable g (d + 1) .atom st (t :: ts)
      (.binary .subtract (.constant (.zero g.mode)) e true) st' := by
  intro vs glues
  obtain ⟨ws, glued, rfl⟩ := glues.tail fun ends => absurd ends (not_endsOperand minus (by decide))
  obtain ⟨e', reads, alike⟩ := inner _ glued
  exact ⟨_, .negated minus reads, (Alike.refl _).binary alike _ true⟩

theorem glueable_brackets {ps : List Token} (plus : OptionalPlus ps) (opening : t.isSymbol "(")
    (closing : u.isSymbol ")") (inner : Glueable g d .expression st ts e st') :
    Glueable g (d + 1) .atom st (ps ++ t :: (ts ++ [u])) e.inBrackets st' := by
  intro vs glues
  obtain ⟨ws, glued, rfl⟩ : ∃ ws, Glues (t :: (ts ++ [u])) ws ∧ vs = ps ++ ws := by
    cases plus with
    | absent => exact ⟨vs, glues, rfl⟩
    | present plus =>
      exact Glues.tail glues fun ends => absurd ends (not_endsOperand plus (by decide))
  obtain ⟨qs, glued', rfl⟩ := glued.enclosed opening (by decide) closing (by decide)
  obtain ⟨e', reads, alike⟩ := inner _ glued'
  exact ⟨_, .brackets plus opening reads closing, alike.inBrackets⟩

theorem alike_call {m : Mode} {f : Function} (respects : f.Respects (Circumstances.Suits m))
    {es es' : List Expr}
    (same : AllSame m es es') (name : String) : Alike m (.call f name es) (.call f name es') :=
  .closed (fun _ => rfl) (fun _ => rfl) (Expr.sameWhere_call respects same name name)

theorem glueable_bars (opening : t.isSymbol "|") (closing : u.isSymbol "|")
    (inner : Glueable g d .expression st ts e st') :
    Glueable g (d + 1) .atom st (t :: (ts ++ [u])) (.call .absolute "abs" [e]) st' := by
  intro vs glues
  obtain ⟨ws, glued, rfl⟩ := glues.enclosed opening (by decide) closing (by decide)
  obtain ⟨e', reads, alike⟩ := inner _ glued
  have same : AllSame g.mode [e] [e'] := .cons alike.sameWhere .nil
  exact ⟨_, .bars opening reads closing, alike_call (Function.respects_of_natural rfl) same "abs"⟩

theorem glueable_call (builtin : g.functions = .builtin) {w : Token}
    {args : List Expr} {f : Function}
    (name : t.isKind .identifier) (opening : u.isSymbol "(") (closing : w.isSymbol ")")
    (known : g.functions.get? t.content = some f) (fits : f.accepts args.length)
    (inner : AllGlueable g d true st ts args st') :
    Glueable g (d + 1) .call st (t :: u :: (ts ++ [w])) (.call f t.content args) st' := by
  intro vs glues
  have noMinus : ∀ m ∈ (u :: (ts ++ [w])).head?, m.isSymbol "-" = false := by
    rintro m ⟨⟩
    exact not_isSymbol opening (by decide)
  obtain ⟨ws, glued, rfl⟩ := glues.tail fun _ => noMinus
  obtain ⟨qs, glued', rfl⟩ := glued.enclosed opening (by decide) closing (by decide)
  obtain ⟨args', reads, same⟩ := inner _ glued'
  have respects : f.Respects (Circumstances.Suits g.mode) :=
    Registry.respects_builtin (builtin ▸ known)
  exact ⟨_, .call name opening reads closing known (same.length_eq ▸ fits),
    alike_call respects same _⟩

theorem not_glues_number {ps ts us : List Token} (plus : OptionalPlus ps) (short : ts.length ≤ 2) :
    ¬ Glues (ps ++ ts) us := by
  intro glues
  cases plus with
  | absent => exact absurd glues.length (Nat.not_le.mpr (Nat.lt_succ_of_le short))
  | present plus =>
    obtain ⟨ws, glued, rfl⟩ :=
      Glues.tail glues fun ends => absurd ends (not_endsOperand plus (by decide))
    exact absurd glued.length (Nat.not_le.mpr (Nat.lt_succ_of_le short))

theorem AllSame.refl (m : Mode) (es : List Expr) : AllSame m es es :=
  List.forall₂_same.mpr fun _ _ => .refl _ _

theorem ReadsArguments.parts {es : List Expr} (h : ReadsArguments g d false st us es st')
    (glues : Glues (ts ++ us) vs) :
    (∃ ws, Glues ts ws ∧ vs = ws ++ us) ∨ ∃ ws, Glues us ws ∧ vs = ts ++ ws := by
  cases h with
  | none =>
    rw [List.append_nil] at glues
    exact .inl ⟨vs, glues, (List.append_nil vs).symm⟩
  | next comma =>
    exact glues.parts (not_isSymbol comma (by decide)) (not_isNumber_of_isSymbol comma)

theorem allGlueable_first {es : List Expr} (head : Reads g d .expression st ts e st₁)
    (tail : ReadsArguments g d false st₁ us es st') (first : Glueable g d .expression st ts e st₁)
    (others : AllGlueable g d false st₁ us es st') :
    AllGlueable g d true st (ts ++ us) (e :: es) st' := by
  intro vs glues
  rcases tail.parts glues with ⟨ws, glued, rfl⟩ | ⟨ws, glued, rfl⟩
  · obtain ⟨e', reads, alike⟩ := first _ glued
    exact ⟨_, .first reads tail, .cons alike.sameWhere (AllSame.refl _ _)⟩
  · obtain ⟨es', reads, same⟩ := others _ glued
    exact ⟨_, .first head reads, .cons (.refl _ _) same⟩

theorem allGlueable_next {es : List Expr} (comma : t.isSymbol ",")
    (head : Reads g d .expression st ts e st₁)
    (tail : ReadsArguments g d false st₁ us es st') (first : Glueable g d .expression st ts e st₁)
    (others : AllGlueable g d false st₁ us es st') :
    AllGlueable g d false st (t :: (ts ++ us)) (e :: es) st' := by
  intro vs glues
  obtain ⟨ws, glued, rfl⟩ := glues.tail fun ends => absurd ends (not_endsOperand comma (by decide))
  obtain ⟨args, reads, same⟩ := allGlueable_first head tail first others ws glued
  cases reads with
  | none => cases same
  | first head' tail' => exact ⟨_, .next comma head' tail', same⟩

mutual

/-- Whatever is read evaluates in the same way when tokens are glued. -/
theorem Reads.glueable (builtin : g.functions = .builtin) {d : Nat} {r : Rule} {st st' : Store}
    {ts : List Token} {e : Expr} : Reads g d r st ts e st' → Glueable g d r st ts e st'
  | .operand level only => fun us glues =>
    let ⟨e', reads, alike⟩ := only.glueable builtin us glues
    ⟨e', .operand level reads, alike⟩
  | .operator level is left right =>
    glueable_operator builtin level is left right (left.glueable builtin) (right.glueable builtin)
  | .signed is left right =>
    glueable_signed is left right (left.glueable builtin) (right.glueable builtin)
  | .negated minus inner => glueable_negated minus (inner.glueable builtin)
  | .brackets plus opening inner closing =>
    glueable_brackets plus opening closing (inner.glueable builtin)
  | .bars opening inner closing => glueable_bars opening closing (inner.glueable builtin)
  | .called inner => fun us glues =>
    let ⟨e', reads, alike⟩ := inner.glueable builtin us glues
    ⟨e', .called reads, alike⟩
  | .call name opening inner closing known fits =>
    glueable_call builtin name opening closing known fits (inner.glueable builtin)
  | .variable _ _ => fun _ glues => absurd glues (not_glues_number .absent (by simp))
  | .number plus _ _ => fun _ glues => absurd glues (not_glues_number plus (by simp))
  | .quantity plus _ _ _ _ _ => fun _ glues => absurd glues (not_glues_number plus (by simp))

theorem ReadsArguments.glueable (builtin : g.functions = .builtin) {d : Nat} {isFirst : Bool}
    {st st' : Store} {ts : List Token} {es : List Expr} :
    ReadsArguments g d isFirst st ts es st' → AllGlueable g d isFirst st ts es st'
  | .none => fun _ glues => absurd glues (not_glues_number .absent (by simp))
  | .first head tail => allGlueable_first head tail (head.glueable builtin) (tail.glueable builtin)
  | .next comma head tail =>
    allGlueable_next comma head tail (head.glueable builtin) (tail.glueable builtin)

end

end Glued

end Formula.Parser
