import Formula.Proofs.Parser.Phrases
import Formula.Proofs.Parser.Views
import Formula.Proofs.Store.Lookup
import Formula.Proofs.Value.Numerals

/-! Soundness. A rule that reports no problem has read a phrase of its own. It only moves forward,
and comes to no fault but the limit of its depth and a search that never ends. -/
namespace Formula.Parser

variable {mark : Token} {g : Grammar} {v v' v₁ : View}

/-- What every step preserves: tokens are left out at the front only, and problems are added at the
end. -/
structure Advances (v v' : View) : Prop where
  tokens : v'.tokens <:+ v.tokens
  problems : v.problems <+: v'.problems

namespace Advances

theorem refl (v : View) : Advances v v := ⟨List.suffix_refl _, List.prefix_refl _⟩

theorem trans (h : Advances v v₁) (h' : Advances v₁ v') : Advances v v' :=
  ⟨h'.tokens.trans h.tokens, h.problems.trans h'.problems⟩

theorem consumed (v : View) : Advances v v.consumed := ⟨List.tail_suffix _, List.prefix_refl _⟩

theorem complained (v : View) (t : Token) (text : String) : Advances v (v.complained t text) :=
  ⟨List.suffix_refl _, List.prefix_append _ _⟩

theorem clean (h : Advances v v₁) (h' : Advances v₁ v') (same : v'.problems = v.problems) :
    v₁.problems = v.problems ∧ v'.problems = v₁.problems := by
  have between : v₁.problems <+: v.problems := same ▸ h'.problems
  have first := between.eq_of_length_le h.problems.length_le
  exact ⟨first, same.trans first.symm⟩

theorem not_clean {t : Token} {text : String} (h : Advances v v₁)
    (h' : Advances (v₁.complained t text) v') : v'.problems ≠ v.problems := by
  intro same
  have short := Nat.le_trans (h'.problems.length_le) (Nat.le_of_eq (congrArg List.length same))
  have grown := h.problems.length_le
  simp only [View.complained, List.length_append, List.length_singleton] at short
  omega

end Advances

def View.IsLexed (v : View) : Prop := ∀ t ∈ v.tokens, Lexer.IsLexeme t

theorem Advances.isLexed (h : Advances v v') (lexed : v.IsLexed) : v'.IsLexed :=
  fun t ht => lexed t (h.tokens.subset ht)

/-- A step that leads on to a result, which is read without a problem only as the relation says. -/
structure Outcome {α : Type} (reads : Store → List Token → α → Store → Prop) (v : View)
    (a : α) (v' : View) :
    Prop where
  advances : Advances v v'
  reads : v'.problems = v.problems → ∃ us, v.tokens = us ++ v'.tokens ∧ reads v.store us a v'.store

section Steps

variable {operand more self inner call : Parser Expr} {r b : Rule} {d : Nat} {t : Token}

theorem View.tokens_of_token (isEnd : mark.isEnd) (h : (v.token mark).isEnd = false) :
    v.tokens = v.token mark :: v.consumed.tokens := by
  obtain ⟨tokens, store, problems⟩ := v
  cases tokens with
  | nil => simp [View.token, isEnd] at h
  | cons t rest => rfl

theorem View.tokens_of_isSymbol (isEnd : mark.isEnd) {a : String}
    (h : (v.token mark).isSymbol a) : v.tokens = v.token mark :: v.consumed.tokens :=
  View.tokens_of_token isEnd (not_isEnd_of_isSymbol h)

theorem View.following_eq (v : View) : v.following mark = v.consumed.token mark := by
  obtain ⟨_ | ⟨t, rest⟩, store, problems⟩ := v <;> simp [View.following, View.token, View.consumed]

theorem leads_level (isEnd : mark.isEnd) (is : r.operand? = some b)
    (left : Leads mark g v operand (Outcome (Reads g d b) v)) (lexed : v.IsLexed)
    (right : ∀ v₁ : View, v₁.IsLexed → Leads mark g v₁ more (Outcome (Reads g d r) v₁)) :
    Leads mark g v (level r operand more) (Outcome (Reads g (d + 1) r) v) := by
  refine left.bind fun x v₁ first => .after yields_current ?_
  have lexed₁ := first.advances.isLexed lexed
  unfold afterOperand
  -- An operator of the level, a number with a sign behind a product, or nothing of the level.
  cases op : operator? r (v₁.token mark) with
  | some op' =>
    obtain ⟨a, symbol, _⟩ := exists_isSymbol_of_operator? op
    have here := View.tokens_of_isSymbol isEnd symbol
    have step := Advances.consumed v₁
    refine .after yields_drop ((right _ (step.isLexed lexed₁)).bind fun y v' second => .pure ?_)
    have later := step.trans second.advances
    refine ⟨first.advances.trans later, fun same => ?_⟩
    obtain ⟨clean, clean'⟩ := first.advances.clean later same
    obtain ⟨us, split, reads⟩ := first.reads clean
    obtain ⟨ws, split', reads'⟩ := second.reads clean'
    refine ⟨us ++ v₁.token mark :: ws, ?_, .operator is op reads reads'⟩
    rw [split, here, split']
    simp
  | none =>
    dsimp only
    split
    · rename_i sign
      obtain ⟨rfl, negative⟩ : r = .sum ∧ isNegativeNumber (v₁.token mark) := by simpa using sign
      have here := View.tokens_of_token isEnd
        (not_isEnd_of_isNumber (isNumber_of_isNegativeNumber negative))
      refine (right v₁ lexed₁).bind fun y v' second => .pure ?_
      refine ⟨first.advances.trans second.advances, fun same => ?_⟩
      obtain ⟨clean, clean'⟩ := first.advances.clean second.advances same
      obtain ⟨us, split, reads⟩ := first.reads clean
      obtain ⟨ws, split', reads'⟩ := second.reads clean'
      obtain ⟨t, ws, rfl, _⟩ := reads'.opens
      obtain rfl : v₁.token mark = t := by
        rw [here] at split'
        exact (List.cons.inj split').1
      obtain rfl : b = .product := by cases is; rfl
      exact ⟨us ++ v₁.token mark :: ws, by rw [split, split']; simp, .signed negative reads reads'⟩
    · refine .pure ⟨first.advances, fun same => ?_⟩
      obtain ⟨us, split, reads⟩ := first.reads same
      exact ⟨us, split, .operand is reads⟩

theorem leads_expect (isEnd : mark.isEnd) (a : String) :
    Leads mark g v (expect a) fun _ v' => Advances v v' ∧ v'.store = v.store ∧
      (v'.problems = v.problems → ∃ u, u.isSymbol a ∧ v.tokens = u :: v'.tokens) := by
  refine .after yields_current ?_
  split
  · rename_i symbol
    refine .of_yields yields_drop ⟨.consumed v, rfl, fun _ => ⟨_, symbol, ?_⟩⟩
    exact View.tokens_of_isSymbol isEnd symbol
  · refine .of_yields (yields_complain _ _) ⟨.complained v _ _, rfl, fun same => ?_⟩
    exact absurd same ((Advances.refl v).not_clean (.refl _))

theorem outcome_complained {α : Type} {reads : Store → List Token → α → Store → Prop}
    {a : α} {t : Token}
    {text : String} (h : Advances v v₁) (h' : Advances (v₁.complained t text) v') :
    Outcome reads v a v' :=
  ⟨(h.trans (.complained v₁ t text)).trans h', fun same => absurd same (h.not_clean h')⟩

theorem leads_reject (reads : Store → List Token → Expr → Store → Prop) :
    Leads mark g v reject (Outcome reads v) :=
  .after yields_consume <| .after (yields_complain _ _) <| .pure <|
    outcome_complained (.consumed v) (.refl _)

theorem leads_closed (isEnd : mark.isEnd) {o a : String} (close : Expr → Expr)
    (opening : (v.token mark).isSymbol o) (lexed : v.IsLexed)
    (inside : ∀ v₁ : View, v₁.IsLexed →
      Leads mark g v₁ inner (Outcome (Reads g d .expression) v₁)) :
    Leads mark g v (do discard consume; let e ← inner; expect a; return close e)
      (Outcome (fun st ts e st' => ∃ us u e', ts = v.token mark :: (us ++ [u]) ∧
        u.isSymbol a ∧ e = close e' ∧ Reads g d .expression st us e' st') v) := by
  have here := View.tokens_of_isSymbol isEnd opening
  have step := Advances.consumed v
  refine .after yields_drop ((inside _ (step.isLexed lexed)).bind fun e v₁ first => ?_)
  refine (leads_expect isEnd a).bind fun _ v' ⟨second, same_store, closing⟩ => .pure ?_
  have later := first.advances.trans second
  refine ⟨step.trans later, fun same => ?_⟩
  obtain ⟨_, clean⟩ := step.clean later same
  obtain ⟨clean₁, clean'⟩ := first.advances.clean second clean
  obtain ⟨us, split, reads⟩ := first.reads clean₁
  obtain ⟨u, symbol, split'⟩ := closing clean'
  refine ⟨v.token mark :: (us ++ [u]), ?_, us, u, e, rfl, symbol, rfl, same_store ▸ reads⟩
  rw [here, split, split']
  simp

def ReadsUnsigned (g : Grammar) (d : Nat) (st : Store) (ts : List Token) (e : Expr) (st' : Store) :
    Prop :=
  ∀ ps, OptionalPlus ps → Reads g d .atom st (ps ++ ts) e st'

theorem Outcome.weaken {α : Type} {reads reads' : Store → List Token → α → Store → Prop} {a : α}
    (h : Outcome reads v a v')
    (weaker : ∀ ts, reads v.store ts a v'.store → reads' v.store ts a v'.store) :
    Outcome reads' v a v' := by
  refine ⟨h.advances, fun same => ?_⟩
  obtain ⟨us, split, read⟩ := h.reads same
  exact ⟨us, split, weaker us read⟩

theorem Outcome.consumed {α : Type} {reads reads' : Store → List Token → α → Store → Prop} {a : α}
    (here : v.tokens = v.token mark :: v.consumed.tokens) (h : Outcome reads v.consumed a v')
    (more : ∀ ts, reads v.store ts a v'.store → reads' v.store (v.token mark :: ts) a v'.store) :
    Outcome reads' v a v' := by
  refine ⟨(Advances.consumed v).trans h.advances, fun same => ?_⟩
  obtain ⟨us, split, read⟩ := h.reads same
  exact ⟨v.token mark :: us, by rw [here, split]; rfl, more us read⟩

theorem leads_skipPlus (before : Token → Bool) :
    Leads mark g v (skipPlus before) fun _ v' => v' = v ∨
      ((v.token mark).isSymbol "+" ∧ before (v.following mark) ∧ v' = v.consumed) := by
  refine .after yields_current ?_
  split
  · rename_i plus
    refine .after yields_next ?_
    split
    · rename_i wanted
      exact .of_yields yields_drop (.inr ⟨plus, wanted, rfl⟩)
    · exact .pure (.inl rfl)
  · exact .pure (.inl rfl)

theorem leads_quantified (isEnd : mark.isEnd) {x : Value} (is : t.isNumber)
    (value : Value.ofNumeral g.mode g.bits t.content = .ok x) :
    Leads mark g v (quantified x)
      (Outcome (fun st ts e st' => ReadsUnsigned g (d + 1) st (t :: ts) e st') v) := by
  refine .after yields_current ?_
  split
  · rename_i name
    have here := View.tokens_of_token isEnd (not_isEnd_of_isName name)
    refine .after yields_consume ?_
    cases known : quantifiers.lookup (v.token mark).content with
    | some n =>
      have literal := Value.ofNumeral_isLiteral value
      obtain ⟨y, product, _⟩ := scaled_number (p := g.bits) (mem_of_lookup known) literal
      dsimp only
      refine .after .read ?_
      rw [product]
      refine .after (.pure y) (.pure ⟨.consumed v, fun _ => ⟨[v.token mark], here, ?_⟩⟩)
      exact fun ps plus => .quantity plus is value name known product
    | none =>
      refine .after (yields_complain _ _) (.pure ?_)
      exact outcome_complained (.consumed v) (.refl _)
  · refine .pure ⟨.refl v, fun _ => ⟨[], rfl, ?_⟩⟩
    exact fun ps plus => .number plus is value

theorem plain_of_isLexeme (h : Lexer.IsLexeme t) (is : t.isNumber) : '/' ∉ t.content.toList := by
  intro slash
  have numeric : Lexer.IsNumeric '/' := h.numeric is _ slash
  have no : ¬ Lexer.IsNumeric '/' := by
    unfold Lexer.IsNumeric
    decide +kernel
  exact no numeric

theorem leads_number (isEnd : mark.isEnd) (lexed : v.IsLexed) :
    Leads mark g v number (Outcome (ReadsUnsigned g (d + 1)) v) := by
  refine .after yields_current ?_
  split
  · rename_i is
    have here := View.tokens_of_token isEnd (not_isEnd_of_isNumber is)
    have lexeme := lexed (v.token mark) (here ▸ List.mem_cons_self)
    refine .after yields_consume (.after .read (.after .read ?_))
    cases value : Value.ofNumeral g.mode g.bits (v.token mark).content with
    | ok x =>
      refine (leads_quantified (d := d) isEnd is value).mono fun e v' outcome => ?_
      exact outcome.consumed here fun ts reads => reads
    | error f =>
      obtain rfl := Value.ofNumeral_fault (plain_of_isLexeme lexeme is) value
      refine .after (yields_complain _ _) (.pure ?_)
      exact outcome_complained (.consumed v) (.refl _)
  · exact leads_reject _

theorem leads_literal (isEnd : mark.isEnd) (lexed : v.IsLexed) :
    Leads mark g v literal (Outcome (Reads g (d + 1) .atom) v) := by
  refine (leads_skipPlus Token.isNumber).bind fun _ v₁ skipped => ?_
  rcases skipped with rfl | ⟨plus, _, rfl⟩
  · refine (leads_number (d := d) isEnd lexed).mono fun e v' outcome =>
      outcome.weaken fun ts reads => ?_
    exact reads [] .absent
  · have here := View.tokens_of_isSymbol isEnd plus
    refine (leads_number (d := d) isEnd ((Advances.consumed v).isLexed lexed)).mono
      fun e v' outcome => ?_
    exact outcome.consumed here fun ts reads => reads _ (.present plus)

theorem leads_resolve (name : t.isKind .identifier) :
    Leads mark g v (resolve t)
      (Outcome (fun st ts e st' => ts = [] ∧ Reads g (d + 1) .atom st [t] e st') v) := by
  cases found : v.store.lookUp g.scope t.content with
  | ok out =>
    obtain ⟨w, st'⟩ := out
    have advances : Advances v { v with store := st' } := ⟨List.suffix_refl _, List.prefix_refl _⟩
    exact .of_yields (yields_resolve found)
      ⟨advances, fun _ => ⟨[], rfl, rfl, .variable name found⟩⟩
  | error f =>
    intro s h
    have got : (get : Parser ParserState) g s = .ok s s := rfl
    have asked : (read : Parser Grammar) g s = .ok g s := rfl
    unfold resolve
    rw [bind_of_ok got, bind_of_ok asked, h.store, found]
    rcases Store.lookUp_fault found with ⟨rfl, _⟩ | ⟨rfl, _⟩
    · exact .inl (.inr ⟨s, rfl⟩)
    · refine Leads.after (yields_complain _ _) (.of_yields yields_zero ?_) s h
      exact outcome_complained (.refl v) (.refl _)

theorem leads_plainAtom_brackets (isEnd : mark.isEnd) (opening : (v.token mark).isSymbol "(")
    (lexed : v.IsLexed)
    (inside : ∀ v₁ : View, v₁.IsLexed →
      Leads mark g v₁ inner (Outcome (Reads g d .expression) v₁)) :
    Leads mark g v (plainAtom inner call) (Outcome (ReadsUnsigned g (d + 1)) v) := by
  refine .after yields_current ?_
  rw [if_pos opening]
  refine (leads_closed isEnd Expr.inBrackets opening lexed inside).mono fun e v' outcome => ?_
  refine outcome.weaken fun ts ⟨us, u, e', split, closing, same, reads⟩ ps plus => ?_
  rw [split, same]
  exact .brackets plus opening reads closing

theorem leads_plainAtom (isEnd : mark.isEnd) (lexed : v.IsLexed)
    (inside : ∀ v₁ : View, v₁.IsLexed → Leads mark g v₁ inner (Outcome (Reads g d .expression) v₁))
    (calls : (v.token mark).isKind .identifier → (v.following mark).isSymbol "(" →
      Leads mark g v call (Outcome (Reads g d .call) v)) :
    Leads mark g v (plainAtom inner call) (Outcome (Reads g (d + 1) .atom) v) := by
  cases opening : (v.token mark).isSymbol "(" with
  | true =>
    refine (leads_plainAtom_brackets isEnd opening lexed inside).mono fun e v' outcome => ?_
    exact outcome.weaken fun ts reads => reads [] .absent
  | false =>
    refine .after yields_current ?_
    rw [if_neg (ne_true_of_eq_false opening)]
    split
    · rename_i bar
      refine (leads_closed isEnd _ bar lexed inside).mono fun e v' outcome => ?_
      refine outcome.weaken fun ts ⟨us, u, e', split, closing, same, reads⟩ => ?_
      rw [split, same]
      exact .bars bar reads closing
    · split
      · rename_i name
        refine .after yields_next ?_
        split
        · rename_i bracket
          exact (calls name bracket).mono fun e v' outcome => outcome.weaken fun ts => .called
        · have here := View.tokens_of_token isEnd (not_isEnd_of_isName name)
          refine .after yields_consume ?_
          refine (leads_resolve (d := d) name).mono fun e v' outcome =>
            outcome.consumed here fun ts read => ?_
          rw [read.1]
          exact read.2
      · exact leads_literal isEnd lexed

theorem leads_anyAtom (isEnd : mark.isEnd) (lexed : v.IsLexed)
    (again : ∀ v₁ : View, v₁.IsLexed → Leads mark g v₁ self (Outcome (Reads g d .atom) v₁))
    (inside : ∀ v₁ : View, v₁.IsLexed → Leads mark g v₁ inner (Outcome (Reads g d .expression) v₁))
    (calls : (v.token mark).isKind .identifier → (v.following mark).isSymbol "(" →
      Leads mark g v call (Outcome (Reads g d .call) v)) :
    Leads mark g v (anyAtom self inner call) (Outcome (Reads g (d + 1) .atom) v) := by
  have lexed' := (Advances.consumed v).isLexed lexed
  refine .after yields_current ?_
  split
  · rename_i minus
    have here := View.tokens_of_isSymbol isEnd minus
    refine .after yields_drop (.after yields_zero ((again _ lexed').bind fun e v' outcome => ?_))
    let negative : Expr := .binary .subtract (.constant (.zero g.mode)) e true
    have negated : Outcome (fun st ts e' st' => e' = negative ∧
        Reads g d .atom st ts e st') v.consumed negative v' :=
      ⟨outcome.advances, fun same => (outcome.reads same).imp fun us read => ⟨read.1, rfl, read.2⟩⟩
    exact .pure (negated.consumed here fun ts reads => .negated minus reads.2)
  · refine (leads_skipPlus (·.isSymbol "(")).bind fun _ v₁ skipped => ?_
    rcases skipped with rfl | ⟨plus, opening, rfl⟩
    · exact leads_plainAtom isEnd lexed inside calls
    · have here := View.tokens_of_isSymbol isEnd plus
      rw [View.following_eq] at opening
      refine (leads_plainAtom_brackets isEnd opening lexed' inside).mono fun e v' outcome => ?_
      exact outcome.consumed here fun ts reads => reads _ (.present plus)

theorem leads_separator (isEnd : mark.isEnd) (isFirst : Bool) :
    Leads mark g v (separator isFirst) fun _ v' => Advances v v' ∧ v'.store = v.store ∧
      (v'.problems = v.problems → ∃ cs, v.tokens = cs ++ v'.tokens ∧
        ((isFirst = true ∧ cs = []) ∨ ∃ u, isFirst = false ∧ cs = [u] ∧ u.isSymbol ",")) := by
  cases isFirst with
  | true => exact .pure ⟨.refl v, rfl, fun _ => ⟨[], rfl, .inl ⟨rfl, rfl⟩⟩⟩
  | false =>
    refine (leads_expect isEnd ",").mono fun _ v' ⟨advances, store, comma⟩ => ?_
    refine ⟨advances, store, fun same => ?_⟩
    obtain ⟨u, symbol, split⟩ := comma same
    exact ⟨[u], split, .inr ⟨u, rfl, rfl, symbol⟩⟩

theorem leads_argumentsWithin (isEnd : mark.isEnd)
    (inside : ∀ v₁ : View, v₁.IsLexed → Leads mark g v₁ inner (Outcome (Reads g d .expression) v₁))
    (fuel : Nat) (isFirst : Bool) (lexed : v.IsLexed) :
    Leads mark g v (argumentsWithin inner fuel isFirst)
      (Outcome (ReadsArguments g d isFirst) v) := by
  induction fuel generalizing v isFirst with
  | zero => exact .pure ⟨.refl v, fun _ => ⟨[], rfl, .none⟩⟩
  | succ fuel ih =>
    refine .after yields_current ?_
    split
    · exact .pure ⟨.refl v, fun _ => ⟨[], rfl, .none⟩⟩
    · refine (leads_separator isEnd isFirst).bind fun _ v₁ ⟨before, store, separated⟩ => ?_
      have lexed₁ := before.isLexed lexed
      refine (inside v₁ lexed₁).bind fun e v₂ head => ?_
      refine (ih false (head.advances.isLexed lexed₁)).bind fun es v' tail => .pure ?_
      have later := head.advances.trans tail.advances
      refine ⟨before.trans later, fun same => ?_⟩
      -- No problem in the end means none in the separator, the argument or those behind it.
      obtain ⟨clean₁, clean⟩ := before.clean later same
      obtain ⟨clean₂, clean'⟩ := head.advances.clean tail.advances clean
      obtain ⟨cs, split₁, first⟩ := separated clean₁
      obtain ⟨us, split₂, reads⟩ := head.reads clean₂
      obtain ⟨ws, split', reads'⟩ := tail.reads clean'
      rw [store] at reads
      refine ⟨cs ++ (us ++ ws), by rw [split₁, split₂, split']; simp, ?_⟩
      rcases first with ⟨rfl, rfl⟩ | ⟨u, rfl, rfl, comma⟩
      · rw [List.nil_append]
        exact .first reads reads'
      · rw [List.singleton_append]
        exact .next comma reads reads'

theorem leads_arguments (isEnd : mark.isEnd) (lexed : v.IsLexed)
    (inside : ∀ v₁ : View, v₁.IsLexed →
      Leads mark g v₁ inner (Outcome (Reads g d .expression) v₁)) :
    Leads mark g v (arguments inner) (Outcome (ReadsArguments g d true) v) := by
  intro s h
  have got : (get : Parser ParserState) g s = .ok s s := rfl
  unfold arguments
  rw [bind_of_ok got]
  exact leads_argumentsWithin isEnd inside _ true lexed s h

theorem leads_functionNamed (t : Token) :
    Leads mark g v (functionNamed t) fun f v' => Advances v v' ∧ v'.tokens = v.tokens ∧
      v'.store = v.store ∧ (f = none → v'.problems ≠ v.problems) ∧
      ∀ f', f = some f' → g.functions.get? t.content = some f' := by
  refine .after .read ?_
  cases known : g.functions.get? t.content with
  | some f =>
    refine .pure ⟨.refl v, rfl, rfl, fun absent => ?_, fun f' same => same ▸ rfl⟩
    cases absent
  | none =>
    refine .after (yields_complain _ _) (.pure ⟨.complained v _ _, rfl, rfl, fun _ => ?_, ?_⟩)
    · exact (Advances.refl v).not_clean (.refl _)
    · exact fun f' same => by cases same

theorem leads_checkedCall (f : Option Function) (args : List Expr) :
    Leads mark g v (checkedCall t f args) fun e v' => Advances v v' ∧ v'.tokens = v.tokens ∧
      v'.store = v.store ∧ (f ≠ none → v'.problems = v.problems →
        ∃ f', f = some f' ∧ f'.accepts args.length ∧ e = .call f' t.content args) := by
  unfold checkedCall
  split
  · exact .pure ⟨.refl v, rfl, rfl, fun some => absurd rfl some⟩
  · rename_i f'
    split
    · rename_i fits
      exact .pure ⟨.refl v, rfl, rfl, fun _ _ => ⟨f', rfl, fits, rfl⟩⟩
    · refine .after (yields_complain _ _) (.pure ⟨.complained v _ _, rfl, rfl, ?_⟩)
      exact fun _ same => absurd same ((Advances.refl v).not_clean (.refl _))

theorem leads_anyCall (isEnd : mark.isEnd) (lexed : v.IsLexed)
    (name : (v.token mark).isKind .identifier) (opening : (v.following mark).isSymbol "(")
    (inside : ∀ v₁ : View, v₁.IsLexed →
      Leads mark g v₁ inner (Outcome (Reads g d .expression) v₁)) :
    Leads mark g v (anyCall inner) (Outcome (Reads g (d + 1) .call) v) := by
  have here := View.tokens_of_token isEnd (not_isEnd_of_isName name)
  rw [View.following_eq] at opening
  have next := View.tokens_of_isSymbol isEnd opening
  refine .after yields_consume ?_
  refine (leads_functionNamed _).bind fun f v₁ ⟨named, tokens₁, store₁, missing, known⟩ => ?_
  have drop := Advances.consumed v₁
  have before := ((Advances.consumed v).trans named).trans drop
  refine .after yields_drop ?_
  refine (leads_arguments isEnd (before.isLexed lexed) inside).bind fun args v₂ read => ?_
  refine (leads_expect isEnd ")").bind fun _ v₃ ⟨closed, store₃, closing⟩ => ?_
  refine (leads_checkedCall f args).mono fun e v' ⟨checked, tokens', store', accepted⟩ => ?_
  have later := read.advances.trans (closed.trans checked)
  refine ⟨before.trans later, fun same => ?_⟩
  -- Without a problem in the end there was none on the way: each part was read as it should be.
  obtain ⟨clean, clean'⟩ := before.clean later same
  obtain ⟨clean₂, clean₃⟩ := read.advances.clean (closed.trans checked) clean'
  obtain ⟨clean₃, clean₄⟩ := closed.clean checked clean₃
  have found : f ≠ none := fun none => missing none clean
  obtain ⟨f', rfl, fits, rfl⟩ := accepted found clean₄
  obtain ⟨us, split, reads⟩ := read.reads clean₂
  obtain ⟨w, symbol, split'⟩ := closing clean₃
  refine ⟨v.token mark :: v.consumed.token mark :: (us ++ [w]), ?_, ?_⟩
  · have same : v.consumed.consumed.tokens = v₁.consumed.tokens := congrArg List.tail tokens₁.symm
    rw [here, next, same, split, split', tokens']
    simp
  · have read : ReadsArguments g d true v.store us args v'.store := by
      rw [store', store₃]
      exact store₁ ▸ reads
    exact .call name opening read symbol (known f' rfl) fits

end Steps

/-- A rule reads a phrase of its own or reports a problem, unless it is cut short. A call is only
asked for where one starts. -/
theorem leads_run (isEnd : mark.isEnd) (d : Nat) (r : Rule) (lexed : v.IsLexed)
    (starts : r = .call → (v.token mark).isKind .identifier ∧ (v.following mark).isSymbol "(") :
    Leads mark g v (run d r) (Outcome (Reads g d r) v) := by
  induction d generalizing r v with
  | zero => exact .tooDeep
  | succ d ih =>
    have inside (r : Rule) (noCall : r ≠ .call) (v₁ : View) (lexed₁ : v₁.IsLexed) :
        Leads mark g v₁ (run d r) (Outcome (Reads g d r) v₁) :=
      ih r lexed₁ fun call => absurd call noCall
    -- Only a call has to know what comes first; the other rules take any token.
    cases level : r.operand? with
    | some b =>
      have noCall : r ≠ .call := by rintro rfl; cases level
      have noCall' : b ≠ .call := by cases r <;> cases level <;> decide
      rw [run_level level]
      exact leads_level isEnd level (inside b noCall' v lexed) lexed (inside r noCall)
    | none =>
      cases r with
      | atom =>
        refine leads_anyAtom isEnd lexed (inside .atom (by decide))
          (inside .expression (by decide)) ?_
        exact fun name opening => ih .call lexed fun _ => ⟨name, opening⟩
      | call =>
        obtain ⟨name, opening⟩ := starts rfl
        exact leads_anyCall isEnd lexed name opening (inside .expression (by decide))
      | _ => cases level

end Formula.Parser
