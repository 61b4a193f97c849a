import Formula.Proofs.Parser.Phrases
import Formula.Proofs.Parser.Views

/-! Completeness. A rule reads every phrase of its own depth, unless the token behind the phrase
goes on with it. No problem is reported, and the tokens behind the phrase are left. -/
namespace Formula.Parser

variable {mark : Token} {g : Grammar} {v v' v₁ : View}

section Steps

variable {operand more self inner call : Parser Expr} {x y e : Expr} {t u : Token} {r : Rule}
  {us rest : List Token} {st st' : Store} {ps ps' : List Problem}

theorem yields_level_operand (left : Yields mark g v operand x v')
    (stop : Stops r (v'.token mark)) :
    Yields mark g v (level r operand more) x v' := by
  refine left.bind (yields_current.bind ?_)
  have none := stop.noOperator r (Nat.le_refl _)
  have noSign : (r = .sum && isNegativeNumber (v'.token mark)) = false := by
    cases hr : decide (r = .sum) with
    | false => rfl
    | true => simpa using stop.noSign (by simp_all)
  simp only [afterOperand, none, noSign, Bool.false_eq_true, if_false]
  exact .pure x

theorem yields_level_operator {op : Operator} (left : Yields mark g v operand x v₁)
    (is : operator? r (v₁.token mark) = some op) (right : Yields mark g v₁.consumed more y v') :
    Yields mark g v (level r operand more) (.reorder op x y) v' := by
  refine left.bind (yields_current.bind ?_)
  simp only [afterOperand, is]
  exact yields_drop.bind (right.bind (.pure _))

theorem yields_level_signed (left : Yields mark g v operand x v₁)
    (is : isNegativeNumber (v₁.token mark)) (right : Yields mark g v₁ more y v') :
    Yields mark g v (level .sum operand more) (.reorder .add x y) v' := by
  refine left.bind (yields_current.bind ?_)
  have none := operator?_of_isNumber (isNumber_of_isNegativeNumber is) .sum
  simp only [afterOperand, none, is, decide_true, Bool.and_self, if_true]
  exact right.bind (.pure _)

theorem yields_expect {a : String} (is : t.isSymbol a) :
    Yields mark g ⟨t :: us, st, ps⟩ (expect a) () ⟨us, st, ps⟩ := by
  refine yields_current.bind ?_
  rw [if_pos (by exact is)]
  exact yields_drop

theorem yields_skipPlus_none {before : Token → Bool}
    (h : t.isSymbol "+" = false ∨ before (us.getD 0 mark) = false) :
    Yields mark g ⟨t :: us, st, ps⟩ (skipPlus before) () ⟨t :: us, st, ps⟩ := by
  refine yields_current.bind ?_
  split
  · rename_i plus
    refine yields_next.bind ?_
    have other := h.resolve_left (by simpa [View.token] using plus)
    rw [if_neg (by exact ne_true_of_eq_false other)]
    exact .pure ()
  · exact .pure ()

theorem yields_skipPlus {before : Token → Bool} (plus : t.isSymbol "+") (h : before u) :
    Yields mark g ⟨t :: u :: us, st, ps⟩ (skipPlus before) () ⟨u :: us, st, ps⟩ := by
  refine yields_current.bind ?_
  rw [if_pos (by exact plus)]
  refine yields_next.bind ?_
  rw [if_pos (by exact h)]
  exact yields_drop

theorem yields_bracketed (e' : Yields mark g ⟨us, st, ps⟩ inner e ⟨u :: rest, st', ps'⟩)
    (closing : u.isSymbol ")") :
    Yields mark g ⟨t :: us, st, ps⟩ (bracketed inner) e.inBrackets ⟨rest, st', ps'⟩ :=
  yields_drop.bind (e'.bind ((yields_expect closing).bind (.pure _)))

theorem yields_anyAtom_negated (minus : t.isSymbol "-")
    (e' : Yields mark g ⟨us, st, ps⟩ self e v') :
    Yields mark g ⟨t :: us, st, ps⟩ (anyAtom self inner call)
      (.binary .subtract (.constant (.zero g.mode)) e true) v' := by
  refine yields_current.bind ?_
  rw [if_pos (by exact minus)]
  exact yields_drop.bind (yields_zero.bind (e'.bind (.pure _)))

theorem yields_anyAtom (noMinus : t.isSymbol "-" = false)
    (plus : Yields mark g ⟨t :: us, st, ps⟩ (skipPlus (·.isSymbol "(")) () v₁)
    (e' : Yields mark g v₁ (plainAtom inner call) e v') :
    Yields mark g ⟨t :: us, st, ps⟩ (anyAtom self inner call) e v' := by
  refine yields_current.bind ?_
  rw [if_neg (by simp [View.token, noMinus])]
  exact plus.bind e'

theorem yields_plainAtom_brackets (opening : t.isSymbol "(")
    (e' : Yields mark g ⟨t :: us, st, ps⟩ (bracketed inner) e v') :
    Yields mark g ⟨t :: us, st, ps⟩ (plainAtom inner call) e v' := by
  refine yields_current.bind ?_
  rwa [if_pos (by exact opening)]

theorem yields_plainAtom_bars (opening : t.isSymbol "|")
    (e' : Yields mark g ⟨us, st, ps⟩ inner e ⟨u :: rest, st', ps'⟩) (closing : u.isSymbol "|") :
    Yields mark g ⟨t :: us, st, ps⟩ (plainAtom inner call) (.call .absolute "abs" [e])
      ⟨rest, st', ps'⟩ := by
  refine yields_current.bind ?_
  rw [if_neg (by simp [View.token, not_isSymbol opening]), if_pos (by exact opening)]
  exact yields_drop.bind (e'.bind ((yields_expect closing).bind (.pure _)))

theorem yields_plainAtom_call (name : t.isKind .identifier) (opening : u.isSymbol "(")
    (e' : Yields mark g ⟨t :: u :: us, st, ps⟩ call e v') :
    Yields mark g ⟨t :: u :: us, st, ps⟩ (plainAtom inner call) e v' := by
  refine yields_current.bind ?_
  rw [if_neg (by simp [View.token, not_isSymbol_of_isKind name]),
    if_neg (by simp [View.token, not_isSymbol_of_isKind name]), if_pos (by exact name)]
  refine yields_next.bind ?_
  rwa [if_pos (by exact opening)]

theorem yields_plainAtom_variable (name : t.isKind .identifier)
    (noBracket : (us.getD 0 mark).isSymbol "(" = false)
    (e' : Yields mark g ⟨us, st, ps⟩ (resolve t) e v') :
    Yields mark g ⟨t :: us, st, ps⟩ (plainAtom inner call) e v' := by
  refine yields_current.bind ?_
  rw [if_neg (by simp [View.token, not_isSymbol_of_isKind name]),
    if_neg (by simp [View.token, not_isSymbol_of_isKind name]), if_pos (by exact name)]
  refine yields_next.bind ?_
  rw [if_neg (by exact ne_true_of_eq_false noBracket)]
  exact yields_consume.bind e'

theorem yields_plainAtom_literal (noBracket : t.isSymbol "(" = false)
    (noBar : t.isSymbol "|" = false) (noName : t.isKind .identifier = false)
    (e' : Yields mark g ⟨t :: us, st, ps⟩ literal e v') :
    Yields mark g ⟨t :: us, st, ps⟩ (plainAtom inner call) e v' := by
  refine yields_current.bind ?_
  rwa [if_neg (by simp [View.token, noBracket]), if_neg (by simp [View.token, noBar]),
    if_neg (by simp [View.token, noName])]

theorem yields_literal {qs : List Token} (plus : OptionalPlus qs) (is : t.isNumber)
    (e' : Yields mark g ⟨t :: us, st, ps⟩ number e v') :
    Yields mark g ⟨qs ++ t :: us, st, ps⟩ literal e v' := by
  cases plus with
  | absent => exact (yields_skipPlus_none (.inl (not_isSymbol_of_isNumber is))).bind e'
  | present plus => exact (yields_skipPlus plus is).bind e'

theorem yields_numeral {qs : List Token} (plus : OptionalPlus qs) (is : t.isNumber)
    (e' : Yields mark g ⟨t :: us, st, ps⟩ number e v') :
    Yields mark g ⟨qs ++ t :: us, st, ps⟩ (anyAtom self inner call) e v' := by
  have literal := yields_literal plus is e'
  cases plus with
  | absent =>
    have plain : Yields mark g ⟨t :: us, st, ps⟩ (plainAtom inner call) e v' :=
      yields_plainAtom_literal (not_isSymbol_of_isNumber is) (not_isSymbol_of_isNumber is)
        (not_isName_of_isNumber is) literal
    refine yields_anyAtom (not_isSymbol_of_isNumber is) ?_ plain
    exact yields_skipPlus_none (.inl (not_isSymbol_of_isNumber is))
  | @present p plus =>
    have plain : Yields mark g ⟨p :: t :: us, st, ps⟩ (plainAtom inner call) e v' :=
      yields_plainAtom_literal (not_isSymbol plus (by decide)) (not_isSymbol plus (by decide))
        (not_isKind_of_isSymbol plus (by decide)) literal
    refine yields_anyAtom (not_isSymbol plus (by decide)) ?_ plain
    exact yields_skipPlus_none (.inr (not_isSymbol_of_isNumber is))

theorem yields_number {x : Value} (is : t.isNumber)
    (value : Value.ofNumeral g.mode g.bits t.content = .ok x)
    (e' : Yields mark g ⟨us, st, ps⟩ (quantified x) e v') :
    Yields mark g ⟨t :: us, st, ps⟩ number e v' := by
  refine yields_current.bind ?_
  rw [if_pos (by exact is)]
  refine yields_consume.bind (Yields.read.bind (Yields.read.bind ?_))
  simp only [View.token, List.getD_cons_zero, value]
  exact e'

theorem yields_quantified_none (x : Value) (noName : (us.getD 0 mark).isKind .identifier = false) :
    Yields mark g ⟨us, st, ps⟩ (quantified x) (.constant x) ⟨us, st, ps⟩ := by
  refine yields_current.bind ?_
  rw [if_neg (by exact ne_true_of_eq_false noName)]
  exact .pure _

theorem yields_quantified {x y : Value} {n : Int} (name : t.isKind .identifier)
    (known : quantifiers.lookup t.content = some n) (product : scaled g.bits x n = .ok y) :
    Yields mark g ⟨t :: us, st, ps⟩ (quantified x) (.constant y) ⟨us, st, ps⟩ := by
  refine yields_current.bind ?_
  rw [if_pos (by exact name)]
  refine yields_consume.bind ?_
  simp only [View.token, List.getD_cons_zero, known]
  refine Yields.read.bind ?_
  rw [product]
  exact (Yields.pure y).bind (.pure _)

theorem yields_argumentsWithin_none (closing : (us.getD 0 mark).isSymbol ")") (n : Nat)
    (isFirst : Bool) :
    Yields mark g ⟨us, st, ps⟩ (argumentsWithin inner n isFirst) [] ⟨us, st, ps⟩ := by
  cases n with
  | zero => exact .pure []
  | succ n =>
    refine yields_current.bind ?_
    rw [if_pos (by simp only [View.token, closing, Bool.true_or])]
    exact .pure []

theorem yields_argumentsWithin_first {n : Nat} {es : List Expr}
    (opens : t.isSymbol ")" = false ∧ t.isEnd = false)
    (head : Yields mark g ⟨t :: us, st, ps⟩ inner e v₁)
    (tail : Yields mark g v₁ (argumentsWithin inner n false) es v') :
    Yields mark g ⟨t :: us, st, ps⟩ (argumentsWithin inner (n + 1) true) (e :: es) v' := by
  refine yields_current.bind ?_
  rw [if_neg (by simp [View.token, opens])]
  exact (Yields.pure ()).bind (head.bind (tail.bind (.pure _)))

theorem yields_argumentsWithin_next {n : Nat} {es : List Expr} (comma : t.isSymbol ",")
    (head : Yields mark g ⟨us, st, ps⟩ inner e v₁)
    (tail : Yields mark g v₁ (argumentsWithin inner n false) es v') :
    Yields mark g ⟨t :: us, st, ps⟩ (argumentsWithin inner (n + 1) false) (e :: es) v' := by
  refine yields_current.bind ?_
  rw [if_neg (by simp [View.token, not_isSymbol comma, not_isEnd_of_isSymbol comma])]
  exact (yields_expect comma).bind (head.bind (tail.bind (.pure _)))

theorem yields_arguments {es : List Expr}
    (within : ∀ n, us.length ≤ n →
      Yields mark g ⟨us, st, ps⟩ (argumentsWithin inner n true) es v') :
    Yields mark g ⟨us, st, ps⟩ (arguments inner) es v' := by
  intro s h
  have got : (get : Parser ParserState) g s = .ok s s := rfl
  unfold arguments
  rw [bind_of_ok got]
  exact within _ (Nat.le_succ_of_le h.ahead.length_le) s h

theorem yields_anyCall {w : Token} {f : Function} {es : List Expr}
    (known : g.functions.get? t.content = some f) (fits : f.accepts es.length)
    (args : Yields mark g ⟨us, st, ps⟩ (arguments inner) es ⟨w :: rest, st', ps'⟩)
    (closing : w.isSymbol ")") :
    Yields mark g ⟨t :: u :: us, st, ps⟩ (anyCall inner)
      (.call f t.content es) ⟨rest, st', ps'⟩ := by
  have named : Yields mark g ⟨u :: us, st, ps⟩ (functionNamed t) (some f) ⟨u :: us, st, ps⟩ := by
    refine Yields.read.bind ?_
    rw [known]
    exact .pure _
  refine yields_consume.bind (named.bind (yields_drop.bind (args.bind ?_)))
  refine (yields_expect closing).bind ?_
  have checked : checkedCall t (some f) es = pure (.call f t.content es) := by
    simp only [checkedCall, fits, if_true]
  exact checked ▸ .pure _

end Steps

theorem stops_of_arguments {d : Nat} {st st' : Store} {ts rest : List Token} {es : List Expr}
    (h : ReadsArguments g d false st ts es st') (closing : (rest.getD 0 mark).isSymbol ")") :
    Stops .expression ((ts ++ rest).getD 0 mark) := by
  cases h with
  | none => exact stops_of_closing closing (by simp) _
  | next comma => exact stops_of_closing comma (by simp) _

mutual

theorem yields_of_reads {d : Nat} {r : Rule} {st st' : Store} {ts : List Token} {e : Expr} :
    Reads g d r st ts e st' → ∀ (rest : List Token)
      (ps : List Problem), Stops r (rest.getD 0 mark) →
      Yields mark g ⟨ts ++ rest, st, ps⟩ (run d r) e ⟨rest, st', ps⟩
  -- By recursion on the phrase. What may stand behind it keeps its last part from reading on.
  | .operand level only, rest, ps, stop => by
    have inner := yields_of_reads only rest ps (stop.deeper level)
    rw [run_level level]
    exact yields_level_operand inner stop
  | @Reads.operator _ _ _ _ _ _ _ ts us t _ _ _ level is left right, rest, ps, stop => by
    have first := yields_of_reads left (t :: (us ++ rest)) ps (stops_of_operator level is)
    have second := yields_of_reads right rest ps stop
    rw [run_level level, List.append_assoc]
    exact yields_level_operator first is second
  | @Reads.signed _ _ _ _ _ ts us t _ _ is left right, rest, ps, stop => by
    have first := yields_of_reads left (t :: (us ++ rest)) ps (stops_of_isNegativeNumber is)
    have second := yields_of_reads right rest ps stop
    rw [run_level rfl, List.append_assoc]
    exact yields_level_signed first is second
  | .negated minus inner, rest, ps, stop => by
    have negated := yields_of_reads inner rest ps stop
    exact yields_anyAtom_negated minus negated
  | @Reads.brackets _ d st st' _ ts t u e plus opening inner closing, rest, ps, stop => by
    have inside := yields_of_reads inner (u :: rest) ps (stops_of_closing closing (by simp) _)
    have plain : Yields mark g ⟨t :: (ts ++ u :: rest), st, ps⟩
        (plainAtom (run d .expression) (run d .call)) e.inBrackets ⟨rest, st', ps⟩ :=
      yields_plainAtom_brackets opening (yields_bracketed inside closing)
    rw [List.append_assoc, List.cons_append, List.append_assoc]
    cases plus with
    | absent =>
      refine yields_anyAtom (not_isSymbol opening (by decide)) ?_ plain
      exact yields_skipPlus_none (.inl (not_isSymbol opening (by decide)))
    | present plus =>
      refine yields_anyAtom (not_isSymbol plus (by decide)) ?_ plain
      exact yields_skipPlus plus opening
  | @Reads.bars _ _ _ _ _ _ u _ opening inner closing, rest, ps, stop => by
    have inside := yields_of_reads inner (u :: rest) ps (stops_of_closing closing (by simp) _)
    rw [List.cons_append, List.append_assoc]
    refine yields_anyAtom (not_isSymbol opening (by decide)) ?_
      (yields_plainAtom_bars opening inside closing)
    exact yields_skipPlus_none (.inl (not_isSymbol opening (by decide)))
  | .called inner, rest, ps, stop => by
    obtain ⟨t, u, us, rfl, name, opening⟩ := inner.call_starts
    have noPlus := not_isSymbol_of_isKind (a := "+") name (by decide)
    have noMinus := not_isSymbol_of_isKind (a := "-") name (by decide)
    have called := yields_of_reads inner rest ps (stop.sameRank rfl)
    refine yields_anyAtom noMinus (yields_skipPlus_none (.inl noPlus)) ?_
    exact yields_plainAtom_call name opening called
  | @Reads.call _ d st st' ts _ _ w es _ name opening inner closing known fits, rest, ps, stop => by
    have args : Yields mark g ⟨ts ++ w :: rest, st, ps⟩ (arguments (run d .expression)) es
        ⟨w :: rest, st', ps⟩ :=
      yields_arguments fun n within => yields_of_readsArguments inner (w :: rest) ps n closing
        (by simp only [List.length_append] at within; omega)
    rw [List.cons_append, List.cons_append, List.append_assoc]
    exact yields_anyCall known fits args closing
  | .variable name found, rest, ps, stop => by
    have noPlus := not_isSymbol_of_isKind (a := "+") name (by decide)
    have noMinus := not_isSymbol_of_isKind (a := "-") name (by decide)
    refine yields_anyAtom noMinus (yields_skipPlus_none (.inl noPlus)) ?_
    exact yields_plainAtom_variable name stop.noBracket (yields_resolve found)
  | .number plus is value, rest, ps, stop => by
    rw [List.append_assoc]
    exact yields_numeral plus is (yields_number is value (yields_quantified_none _ stop.noName))
  | .quantity plus is value name known product, rest, ps, stop => by
    rw [List.append_assoc]
    exact yields_numeral plus is (yields_number is value (yields_quantified name known product))

theorem yields_of_readsArguments {d : Nat} {isFirst : Bool} {st st' : Store} {ts : List Token}
    {es : List Expr} :
    ReadsArguments g d isFirst st ts es st' → ∀ (rest : List Token) (ps : List Problem) (n : Nat),
      (rest.getD 0 mark).isSymbol ")" → ts.length ≤ n →
      Yields mark g ⟨ts ++ rest, st, ps⟩ (argumentsWithin (run d .expression) n isFirst) es
        ⟨rest, st', ps⟩
  | .none, rest, ps, n, closing, _ => yields_argumentsWithin_none closing n _
  | @ReadsArguments.first _ _ _ _ _ _ us _ _ head tail, rest, ps, n, closing, within => by
    obtain ⟨t, ts, rfl, opens⟩ := head.opens
    simp only [List.length_append, List.length_cons] at within
    obtain ⟨n, rfl⟩ : ∃ m, n = m + 1 := ⟨n - 1, by omega⟩
    have first := yields_of_reads head (us ++ rest) ps (stops_of_arguments tail closing)
    have others := yields_of_readsArguments tail rest ps n closing (by omega)
    rw [List.append_assoc]
    exact yields_argumentsWithin_first opens first others
  | @ReadsArguments.next _ _ _ _ _ _ us _ _ _ comma head tail, rest, ps, n, closing, within => by
    simp only [List.length_append, List.length_cons] at within
    obtain ⟨n, rfl⟩ : ∃ m, n = m + 1 := ⟨n - 1, by omega⟩
    have first := yields_of_reads head (us ++ rest) ps (stops_of_arguments tail closing)
    have others := yields_of_readsArguments tail rest ps n closing (by omega)
    rw [← List.append_assoc] at first
    exact yields_argumentsWithin_next comma first others

end

end Formula.Parser
