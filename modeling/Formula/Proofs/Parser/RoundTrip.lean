import Formula.Proofs.Lexer.Rendering
import Formula.Proofs.Parser.Acceptance
import Formula.Proofs.Parser.Chains
import Formula.Proofs.TokenStream.Reading

/-! The round trip. What is written for a term is read as an expression that represents the term. -/
namespace Formula

open Formula.Number Formula.Parser
open Lexer (Word operatorWord enclosedWords)

def Operator.rule : Operator → Rule
  | and | or => .expression
  | less | lessEqual | equal | greaterEqual | greater | notEqual => .relation
  | add | subtract => .sum
  | multiply | divide | modulo => .product
  | power => .power

def Operator.operandRule : Operator → Rule
  | and | or => .relation
  | less | lessEqual | equal | greaterEqual | greater | notEqual => .sum
  | add | subtract => .product
  | multiply | divide | modulo => .power
  | power => .atom

namespace Operator

variable (op : Operator)

theorem operand?_rule : op.rule.operand? = some op.operandRule := by
  cases op <;> rfl

theorem rank_rule : op.rule.rank = op.priority := by
  cases op <;> rfl

theorem rule_ne_call : op.rule ≠ .call := by
  cases op <;> decide

theorem operandRule_ne_call : op.operandRule ≠ .call := by
  cases op <;> decide

theorem operator?_word {t : Token} (h : t.word = operatorWord op) :
    operator? op.rule t = some op := by
  have is : t.isSymbol op.symbol :=
    isSymbol_iff.mpr ⟨congrArg Word.kind h, congrArg Word.trigger h⟩
  rw [operator?_of_isSymbol is]
  cases op <;> decide

end Operator

namespace Term

/-- The rule by which the term is read without brackets. -/
def rule : Term → Rule
  | .binary op _ _ => op.rule
  | .literal _ | .name _ | .call _ _ => .atom

theorem rule_ne_call (t : Term) : t.rule ≠ .call := by
  cases t with
  | binary op => exact op.rule_ne_call
  | literal | name | call => exact nofun

theorem rank_le {t : Term} {n : Nat} (h : t.isBelow n = false) (few : n ≤ 6) : n ≤ t.rule.rank := by
  cases t with
  | binary op =>
    rw [rule, op.rank_rule]
    simpa [isBelow] using h
  | literal | name | call => exact few

end Term

section Reading

variable {g : Grammar} {st : Store} {ts : List Token}

/-- The tokens are read by the rule as an expression that represents the term, in a store in which
names may be looked up. -/
def ReadsTerm (g : Grammar) (r : Rule) (st : Store) (ts : List Token) (isSealed : Bool) (t : Term) :
    Prop :=
  ∃ d e st', Parser.Reads g d r st ts e st' ∧ Represents g st' isSealed t e ∧ st.Keeps g.scope st'
    ∧ st'.IsOpen g.scope

def ReadsTerms (g : Grammar) (isFirst : Bool) (st : Store) (ts : List Token) (args : List Term) :
    Prop :=
  ∃ d es st', ReadsArguments g d isFirst st ts es st' ∧ RepresentsAll g st' args es
    ∧ st.Keeps g.scope st' ∧ st'.IsOpen g.scope

theorem isSymbol_of_word {t : Token} {a c : String} (h : t.word = ⟨.symbol, a, c⟩) : t.isSymbol a :=
  isSymbol_iff.mpr ⟨congrArg Word.kind h, congrArg Word.trigger h⟩

theorem exists_between {a b : Word} {words : List Word}
    (spelled : ts.map Token.word = a :: (words ++ [b])) :
    ∃ t us u, ts = t :: (us ++ [u]) ∧ t.word = a ∧ us.map Token.word = words ∧ u.word = b := by
  obtain ⟨t, rest, rfl, first, more⟩ := List.map_eq_cons_iff.mp spelled
  obtain ⟨us, last, rfl, inner, final⟩ := List.map_eq_append_iff.mp more
  obtain ⟨u, none, rfl, same, empty⟩ := List.map_eq_cons_iff.mp final
  obtain rfl := List.map_eq_nil_iff.mp empty
  exact ⟨t, us, u, rfl, first, inner, same⟩

theorem ReadsTerm.lift {r b : Rule} {isSealed : Bool} {t : Term}
    (h : ReadsTerm g b st ts isSealed t)
    (above : r.rank ≤ b.rank) (noCall : r ≠ .call) (operand : b ≠ .call) :
    ReadsTerm g r st ts isSealed t := by
  obtain ⟨d, e, st', reads, more⟩ := h
  obtain ⟨n, lifted⟩ := reads.lift above noCall operand
  exact ⟨n, e, st', lifted, more⟩

theorem ReadsTerm.argument {t : Term} (h : ReadsTerm g t.rule st ts false t) :
    ReadsTerm g .expression st ts false t :=
  h.lift (by cases t.rule <;> decide) (by decide) t.rule_ne_call

theorem ReadsTerm.brackets {t : Term} {u w : Token} (opening : u.isSymbol "(")
    (closing : w.isSymbol ")")
    (inner : ReadsTerm g t.rule st ts false t) :
    ReadsTerm g .atom st (u :: (ts ++ [w])) true t := by
  obtain ⟨d, e, st', reads, represents, more⟩ := inner.argument
  exact ⟨d + 1, e.inBrackets, st', .brackets .absent opening reads closing,
    represents.inBrackets, more⟩

theorem ReadsTerm.enclosed {r : Rule} {t : Term} (noCall : r ≠ .call)
    (inner : ∀ ts : List Token, ts.map Token.word = t.words → ReadsTerm g t.rule st ts false t)
    (spelled : ts.map Token.word = enclosedWords (t.isBelow r.rank) t.words) :
    ReadsTerm g r st ts (t.isBelow r.rank) t := by
  have few : r.rank ≤ 6 := by cases r <;> decide
  cases below : t.isBelow r.rank with
  | false =>
    rw [below] at spelled
    exact (inner ts spelled).lift (Term.rank_le below few) noCall t.rule_ne_call
  | true =>
    rw [below] at spelled
    obtain ⟨u, us, w, rfl, opening, said, closing⟩ := exists_between spelled
    exact (ReadsTerm.brackets (isSymbol_of_word opening) (isSymbol_of_word closing)
      (inner us said)).lift
      few noCall (by decide)

theorem ReadsTerm.operation {us : List Token} {t : Token} {op : Operator} {l r : Term}
    (is : t.word = operatorWord op) (left : ReadsTerm g op.rule st ts (l.isBelow op.priority) l)
    (right : ∀ st₁ : Store, st₁.IsOpen g.scope →
      ReadsTerm g op.operandRule st₁ us (r.isBelow (op.priority + 1)) r) :
    ReadsTerm g op.rule st (ts ++ t :: us) false (.binary op l r) := by
  obtain ⟨d, x, st₁, first, represented, keeps, isOpen⟩ := left
  obtain ⟨n, y, st', second, represented', keeps', isOpen'⟩ := right st₁ isOpen
  exact ⟨d + n + 1, _, st', .append op.operand?_rule (op.operator?_word is) second first,
    .binary (represented.later keeps') represented',
    fun n v found => keeps' n v (keeps n v found), isOpen'⟩

def Fits (g : Grammar) (d : Digits) : Prop := g.mode = .precise → d.chars.length ≤ maxIntegerDigits

theorem ofNumeral_digits {d : Digits} (fits : Fits g d) :
    Value.ofNumeral g.mode g.bits (String.ofList d.chars) = .ok (d.number g) := by
  unfold Digits.number
  cases mode : g.mode with
  | float => exact d.ofNumeral_float g.bits
  | precise => exact (d.ofNumeral_precise g.bits).trans (if_pos (fits mode))

theorem readsTerm_literal {d : Digits} (fits : Fits g d) (isOpen : st.IsOpen g.scope)
    (spelled : ts.map Token.word = (Term.literal d).words) :
    ReadsTerm g .atom st ts false (.literal d) := by
  obtain ⟨t, none, rfl, same, empty⟩ := List.map_eq_cons_iff.mp spelled
  obtain rfl := List.map_eq_nil_iff.mp empty
  have kind : t.kind = .integer := congrArg Word.kind same
  have content : t.content = String.ofList d.chars := congrArg Word.content same
  have isNumber : t.isNumber := by simp [Token.isNumber, kind]
  have reads : Parser.Reads g 1 .atom st [t] (.constant (d.number g)) st :=
    .number .absent isNumber (content ▸ ofNumeral_digits fits)
  exact ⟨1, _, st, reads, .literal d, fun _ _ found => found, isOpen⟩

theorem readsTerm_name {n : Identifier} (isOpen : st.IsOpen g.scope)
    (spelled : ts.map Token.word = (Term.name n).words) :
    ReadsTerm g .atom st ts false (.name n) := by
  obtain ⟨t, none, rfl, same, empty⟩ := List.map_eq_cons_iff.mp spelled
  obtain rfl := List.map_eq_nil_iff.mp empty
  have content : t.content = n.text := congrArg Word.content same
  have isName : t.isKind .identifier := by
    simp [Token.isKind, show t.kind = .identifier from congrArg Word.kind same]
  obtain ⟨v, st', found, known, carried, keeps, isOpen'⟩ := isOpen.lookUp n.text
  have reads : Parser.Reads g 1 .atom st [t] (.reference v (st'.var v).name) st' :=
    .variable isName (content ▸ found)
  exact ⟨1, _, st', reads, carried ▸ .name known, keeps, isOpen'⟩

theorem readsTerm_call {n : Identifier} {args : List Term}
    (known : ∃ f, g.functions.get? n.text = some f ∧ f.accepts args.length)
    (inner : ∀ us : List Token, us.map Token.word = Term.wordsFirst args
      → ReadsTerms g true st us args)
    (spelled : ts.map Token.word = (Term.call n args).words) :
    ReadsTerm g .atom st ts false (.call n args) := by
  obtain ⟨t, rest, rfl, same, more⟩ := List.map_eq_cons_iff.mp spelled
  obtain ⟨u, us, w, rfl, opening, said, closing⟩ := exists_between more
  have content : t.content = n.text := congrArg Word.content same
  have isName : t.isKind .identifier := by
    simp [Token.isKind, show t.kind = .identifier from congrArg Word.kind same]
  obtain ⟨d, es, st', reads, represents, keeps, isOpen'⟩ := inner us said
  obtain ⟨f, known, fits⟩ := known
  have call : Parser.Reads g (d + 1) .call st (t :: u :: (us ++ [w])) (.call f t.content es) st' :=
    .call isName (isSymbol_of_word opening) reads (isSymbol_of_word closing) (content ▸ known)
      (represents.length ▸ fits)
  exact ⟨d + 2, _, st', .called (content ▸ call), .call known represents, keeps, isOpen'⟩

mutual

/-- The words of a term are read as an expression that represents it. -/
theorem readsTerm : ∀ (t : Term) {st : Store} {ts : List Token}, t.Calls g →
    (∀ d ∈ t.literals, Fits g d) → st.IsOpen g.scope → ts.map Token.word = t.words →
      ReadsTerm g t.rule st ts false t
  | .literal d, _, _, _, fits, isOpen, spelled =>
    readsTerm_literal (fits d List.mem_cons_self) isOpen spelled
  | .name n, _, _, _, _, isOpen, spelled => readsTerm_name isOpen spelled
  | .binary op l r, st, ts, calls, fits, isOpen, spelled => by
    obtain ⟨us, rest, rfl, left, more⟩ := List.map_eq_append_iff.mp spelled
    obtain ⟨t, vs, rfl, is, right⟩ := List.map_eq_cons_iff.mp more
    have fitsLeft : ∀ d ∈ l.literals, Fits g d := fun d hd => fits d (List.mem_append_left _ hd)
    have fitsRight : ∀ d ∈ r.literals, Fits g d := fun d hd => fits d (List.mem_append_right _ hd)
    have first : ReadsTerm g op.rule st us (l.isBelow op.priority) l := by
      rw [← op.rank_rule] at left ⊢
      exact ReadsTerm.enclosed op.rule_ne_call (fun us => readsTerm l calls.1 fitsLeft isOpen) left
    refine first.operation is fun st₁ isOpen₁ => ?_
    rw [← op.rank_rule, ← Rule.rank_operand op.operand?_rule] at right ⊢
    exact ReadsTerm.enclosed op.operandRule_ne_call
      (fun us => readsTerm r calls.2 fitsRight isOpen₁) right
  | .call n args, st, ts, calls, fits, isOpen, spelled =>
    readsTerm_call calls.1 (fun us => readsTermsFirst args calls.2 fits isOpen) spelled

theorem readsTermsFirst : ∀ (args : List Term) {st : Store} {ts : List Token}, Term.AllCall g args →
    (∀ d ∈ Term.literalsOf args, Fits g d) → st.IsOpen g.scope →
      ts.map Token.word = Term.wordsFirst args → ReadsTerms g true st ts args
  | [], st, ts, _, _, isOpen, spelled => by
    obtain rfl := List.map_eq_nil_iff.mp spelled
    exact ⟨0, [], st, .none, .nil, fun _ _ found => found, isOpen⟩
  | a :: args, st, ts, calls, fits, isOpen, spelled => by
    obtain ⟨us, vs, rfl, head, tail⟩ := List.map_eq_append_iff.mp spelled
    have fitsHead : ∀ d ∈ a.literals, Fits g d := fun d hd => fits d (List.mem_append_left _ hd)
    have fitsTail : ∀ d ∈ Term.literalsOf args, Fits g d :=
      fun d hd => fits d (List.mem_append_right _ hd)
    obtain ⟨d, e, st₁, reads, represents, keeps, isOpen₁⟩ :=
      (readsTerm a calls.1 fitsHead isOpen head).argument
    obtain ⟨n, es, st', others, represents', keeps', isOpen'⟩ :=
      readsTermsNext args calls.2 fitsTail isOpen₁ tail
    exact ⟨max d n, e :: es, st',
      .first (reads.mono (Nat.le_max_left d n)) (others.mono (Nat.le_max_right d n)),
      .cons (represents.later keeps') represents',
      fun n v found => keeps' n v (keeps n v found), isOpen'⟩

theorem readsTermsNext : ∀ (args : List Term) {st : Store} {ts : List Token}, Term.AllCall g args →
    (∀ d ∈ Term.literalsOf args, Fits g d) → st.IsOpen g.scope →
      ts.map Token.word = Term.wordsNext args → ReadsTerms g false st ts args
  | [], st, ts, _, _, isOpen, spelled => by
    obtain rfl := List.map_eq_nil_iff.mp spelled
    exact ⟨0, [], st, .none, .nil, fun _ _ found => found, isOpen⟩
  | a :: args, st, ts, calls, fits, isOpen, spelled => by
    obtain ⟨t, rest, rfl, comma, more⟩ := List.map_eq_cons_iff.mp spelled
    obtain ⟨us, vs, rfl, head, tail⟩ := List.map_eq_append_iff.mp more
    have fitsHead : ∀ d ∈ a.literals, Fits g d := fun d hd => fits d (List.mem_append_left _ hd)
    have fitsTail : ∀ d ∈ Term.literalsOf args, Fits g d :=
      fun d hd => fits d (List.mem_append_right _ hd)
    obtain ⟨d, e, st₁, reads, represents, keeps, isOpen₁⟩ :=
      (readsTerm a calls.1 fitsHead isOpen head).argument
    obtain ⟨n, es, st', others, represents', keeps', isOpen'⟩ :=
      readsTermsNext args calls.2 fitsTail isOpen₁ tail
    exact ⟨max d n, e :: es, st', .next (isSymbol_of_word comma)
      (reads.mono (Nat.le_max_left d n)) (others.mono (Nat.le_max_right d n)),
      .cons (represents.later keeps') represents',
      fun n v found => keeps' n v (keeps n v found), isOpen'⟩

end

/-- What is written for a term is read as an expression that represents the term, without a problem
and up to the end. -/
theorem rule_render {t : Term} (calls : t.Calls g) (fits : ∀ d ∈ t.literals, Fits g d)
    (isOpen : st.IsOpen g.scope)
    (within : ¬ IsTooDeep (Parser.rule .expression g
      ⟨.ofSource (.ofString (String.ofList t.render)), st⟩)) :
    ∃ e s',
      Parser.rule .expression g ⟨.ofSource (.ofString (String.ofList t.render)), st⟩ = .ok e s'
      ∧ Represents g s'.store false t e ∧ s'.tokens.problems = []
      ∧ ∃ u ts', TokenStream.current s'.tokens = .ok u ts' ∧ u.isEnd ∧ ts'.problems = [] := by
  have text : Lexer.Reads (String.ofList t.render).toList t.words := by
    rw [String.toList_ofList]
    exact t.reads_words
  obtain ⟨ts, mark, ahead, isEnd, spelled⟩ := TokenStream.ahead_of_reads text
  obtain ⟨d, e, st', reads, represents, _⟩ := (readsTerm t calls fits isOpen spelled).argument
  have sees : Sees mark ⟨.ofSource (.ofString (String.ofList t.render)), st⟩ ⟨ts, st, []⟩ :=
    ⟨ahead, rfl, rfl⟩
  obtain ⟨s', ran, sees'⟩ := run_of_reads_within isEnd reads sees within
  obtain ⟨ts', current, _, found⟩ := sees'.ahead.at? 0
  exact ⟨e, s', ran, sees'.store ▸ represents, sees'.problems, mark, ts', current, isEnd,
    found.trans sees'.problems⟩

theorem rule_render_call :
    let g : Grammar := { bits := 53, scope := 0, mode := .precise, functions := .builtin }
    let st : Store := (Store.newScope 53 none .precise {}).2
    let x : Identifier := ⟨'x', [], by decide, forall_mem_of_all rfl⟩
    let sin : Identifier := ⟨'s', ['i', 'n'], by decide, forall_mem_of_all rfl⟩
    let two : Term := .literal ⟨['2'], by decide, forall_mem_of_all rfl⟩
    let t : Term := .binary .subtract two
      (.binary .subtract (.call sin [.name x]) (.binary .power two two))
    t.Calls g ∧ (∀ d ∈ t.literals, Fits g d) ∧ st.IsOpen g.scope
      ∧ ¬ IsTooDeep (Parser.rule .expression g ⟨.ofSource (.ofString (String.ofList t.render)), st⟩)
      ∧ ∃ e s',
        Parser.rule .expression g ⟨.ofSource (.ofString (String.ofList t.render)), st⟩ = .ok e s'
        ∧ Represents g s'.store false t e := by
  intro g st x sin two t
  have calls : t.Calls g := ⟨trivial, ⟨⟨_, rfl, rfl⟩, trivial, trivial⟩, trivial, trivial⟩
  have fits : ∀ d ∈ t.literals, Fits g d := by
    have short : ∀ d ∈ t.literals, d.chars.length ≤ maxIntegerDigits := by decide
    exact fun d hd _ => short d hd
  have isOpen : st.IsOpen g.scope :=
    ⟨by decide, by decide, rfl, Store.isNamed_empty.newScope 53 none .precise⟩
  have within : ¬ IsTooDeep
      (Parser.rule .expression g ⟨.ofSource (.ofString (String.ofList t.render)), st⟩) := by
    decide +kernel
  obtain ⟨e, s', ran, represents, _⟩ := rule_render calls fits isOpen within
  exact ⟨calls, fits, isOpen, within, e, s', ran, represents⟩

end Reading

section Excess

variable {mark : Token} {g : Grammar} {v v' : View} {st : Store}

theorem yields_number_malformed {t : Token} {us : List Token} {ps : List Problem} (is : t.isNumber)
    (bad : Value.ofNumeral g.mode g.bits t.content = .error .malformedValue) :
    Yields mark g ⟨t :: us, st, ps⟩ number .empty
      (View.complained ⟨us, st, ps⟩ t ("Invalid number: '" ++ t.source ++ "'")) := by
  refine yields_current.bind ?_
  rw [if_pos (by exact is)]
  refine yields_consume.bind (Yields.read.bind (Yields.read.bind ?_))
  simp only [View.token, List.getD_cons_zero, bad]
  exact (yields_complain t _).bind (.pure _)

theorem yields_expression_atom {d : Nat} {e : Expr} (isEnd : mark.isEnd) (ended : v'.tokens = [])
    (atom : Yields mark g v (run (d + 1) .atom) e v') :
    Yields mark g v (run (d + 6) .expression) e v' := by
  have stop (r : Rule) : Stops r (v'.token mark) := by
    rw [View.token, ended]
    exact stops_of_isEnd isEnd r
  have lift {r b : Rule} {n : Nat} (level : r.operand? = some b)
      (h : Yields mark g v (run n b) e v') :
      Yields mark g v (run (n + 1) r) e v' := by
    rw [run_level level]
    exact yields_level_operand h (stop r)
  exact lift rfl (lift rfl (lift rfl (lift rfl (lift rfl atom))))

theorem rule_excess {d : Digits} (mode : g.mode = .precise)
    (long : maxIntegerDigits < d.chars.length) :
    ∃ s', Parser.rule .expression g ⟨.ofSource (.ofString (String.ofList d.chars)),
      st⟩ = .ok .empty s'
      ∧ s'.tokens.problems ≠ [] := by
  have text : Lexer.Reads (String.ofList d.chars).toList (Term.literal d).words := by
    rw [String.toList_ofList]
    exact (Term.literal d).reads_words
  obtain ⟨ts, mark, ahead, isEnd, spelled⟩ := TokenStream.ahead_of_reads text
  obtain ⟨t, none, rfl, same, empty⟩ := List.map_eq_cons_iff.mp spelled
  obtain rfl := List.map_eq_nil_iff.mp empty
  have isNumber : t.isNumber := by
    simp [Token.isNumber, show t.kind = .integer from congrArg Word.kind same]
  have content : t.content = String.ofList d.chars := congrArg Word.content same
  have bad : Value.ofNumeral g.mode g.bits t.content = .error .malformedValue := by
    rw [content, mode, d.ofNumeral_precise g.bits, if_neg (Nat.not_le.mpr long)]
  have atom : Yields mark g ⟨[t], st, []⟩ (run 995 .atom) .empty
      (View.complained ⟨[], st, []⟩ t ("Invalid number: '" ++ t.source ++ "'")) :=
    yields_numeral .absent isNumber (yields_number_malformed isNumber bad)
  obtain ⟨s', ran, sees⟩ := yields_expression_atom isEnd rfl atom
    ⟨.ofSource (.ofString (String.ofList d.chars)), st⟩ ⟨ahead, rfl, rfl⟩
  exact ⟨s', ran, by simp [sees.problems, View.complained]⟩

def Digits.ones (n : Nat) : Digits where
  chars := List.replicate (n + 1) '1'
  nonempty := List.cons_ne_nil _ _
  plain _ hc := List.eq_of_mem_replicate hc ▸ rfl

/-- A precise number of one digit too many is not read as itself, and a name in scopes that lie
below each other is not read at all. -/
theorem rule_render_fails :
    let g : Grammar := { bits := 53, scope := 0, mode := .precise, functions := .builtin }
    let st : Store := (Store.newScope 53 none .precise {}).2
    let t : Term := .literal (.ones maxIntegerDigits)
    let run := Parser.rule .expression g ⟨.ofSource (.ofString (String.ofList t.render)), st⟩
    let g' : Grammar := { bits := 53, scope := 1, mode := .float, functions := .builtin }
    let name : Term := .name ⟨'x', [], by decide, forall_mem_of_all rfl⟩
    (t.Calls g ∧ st.IsOpen g.scope ∧ ¬ IsTooDeep run
      ∧ ¬ ∃ e s', run = .ok e s' ∧ Represents g s'.store false t e ∧ s'.tokens.problems = [])
    ∧ name.Calls g' ∧ (Store.looped.scope g'.scope).isStrict = false
      ∧ IsEndless (Parser.rule .expression g'
        ⟨.ofSource (.ofString (String.ofList name.render)), .looped⟩) := by
  intro g st t run g' name
  have long : maxIntegerDigits < (Digits.ones maxIntegerDigits).chars.length := by
    simp [Digits.ones]
  obtain ⟨s', ran, some⟩ : ∃ s', run = .ok .empty s' ∧ s'.tokens.problems ≠ [] :=
    rule_excess rfl long
  have isOpen : st.IsOpen g.scope :=
    ⟨by decide, by decide, rfl, Store.isNamed_empty.newScope 53 none .precise⟩
  refine ⟨⟨trivial, isOpen, ?_, ?_⟩, trivial, by decide, by decide +kernel⟩
  · rw [ran]
    rintro ⟨_, deep⟩
    cases deep
  · rintro ⟨e, s₁, ran₁, _, none⟩
    obtain ⟨_, rfl⟩ := EStateM.Result.ok.inj (ran.symm.trans ran₁)
    exact some none

end Excess

end Formula
