import Formula.Proofs.Lexer.Front
import Formula.Proofs.Lexer.Rendering
import Formula.Proofs.Parser.Consumption
import Formula.Proofs.Parser.Minus
import Formula.Proofs.TokenStream.Reading
import Formula.Proofs.Value.WrittenNumbers

/-! The blank between a minus sign and a number. A text means the same without it, unless the number
is the base of a power. -/
namespace Formula.Parser

open Number (IsUnsigned)
open Evaluation (SameWhere)
open Lexer (Word Reaches Apart Numeral StartsUnsigned)
open Text (isBlank)

section Neighbours

variable {bs ts : List Token} {t u : Token} {a : String}

/-- A name behind a number is a quantifier. -/
def Quantified (t u : Token) : Prop :=
  t.isNumber → u.isKind .identifier → ∃ k, quantifiers.lookup u.content = some k

theorem quantified_symbol (as : List Token) (is : t.isSymbol a) (left : as.IsChain Quantified)
    (right : bs.IsChain Quantified) : (as ++ t :: bs).IsChain Quantified := by
  have behind : ∀ u ∈ bs.head?, Quantified t u := by
    intro u _ number
    simp [not_isNumber_of_isSymbol is] at number
  have before : ∀ u ∈ as.getLast?, ∀ v ∈ (t :: bs).head?, Quantified u v := by
    intro u _ v hv _ name
    obtain rfl : t = v := by simpa using hv
    simp [not_isKind_of_isSymbol is] at name
  exact List.isChain_append.mpr ⟨left, List.isChain_cons.mpr ⟨behind, right⟩, before⟩

theorem quantified_plus {ps : List Token} (plus : OptionalPlus ps)
    (others : ts.IsChain Quantified) : (ps ++ ts).IsChain Quantified := by
  cases plus with
  | absent => exact others
  | present plus => exact quantified_symbol [] plus .nil others

variable {g : Grammar}

theorem quantified_arguments {as : List Token} {d : Nat} {st st' : Store} {es : List Expr}
    (first : as.IsChain Quantified)
    (h : ReadsArguments g d false st bs es st') (others : bs.IsChain Quantified) :
    (as ++ bs).IsChain Quantified := by
  cases h with
  | none => rwa [List.append_nil]
  | next comma => exact quantified_symbol _ comma first others.tail

mutual

theorem Reads.quantified {d : Nat} {r : Rule} {st st' : Store} {ts : List Token} {e : Expr} :
    Reads g d r st ts e st' → ts.IsChain Quantified
  | .operand _ only => only.quantified
  | .operator _ is left right =>
    let ⟨_, symbol, _⟩ := exists_isSymbol_of_operator? is
    quantified_symbol _ symbol left.quantified right.quantified
  | .signed is left right => by
    apply List.isChain_append.mpr ⟨left.quantified, right.quantified, _⟩
    intro u _ v hv _ name
    obtain rfl : _ = v := by simpa using hv
    simp [not_isName_of_isNumber (isNumber_of_isNegativeNumber is)] at name
  | .negated minus inner => quantified_symbol [] minus .nil inner.quantified
  | .brackets plus opening inner closing =>
    quantified_plus plus (quantified_symbol [] opening .nil
      (quantified_symbol _ closing inner.quantified .nil))
  | .bars opening inner closing =>
    quantified_symbol [] opening .nil (quantified_symbol _ closing inner.quantified .nil)
  | .called inner => inner.quantified
  | .call _ opening inner closing _ _ =>
    quantified_symbol [_] opening (.singleton _) (quantified_symbol _ closing inner.quantified .nil)
  | .variable _ _ => .singleton _
  | .number plus _ _ => quantified_plus plus (.singleton _)
  | .quantity plus _ _ _ known _ =>
    quantified_plus plus (.cons_cons (fun _ _ => ⟨_, known⟩) (.singleton _))

theorem ReadsArguments.quantified {d : Nat} {isFirst : Bool} {st st' : Store} {ts : List Token}
    {es : List Expr} :
    ReadsArguments g d isFirst st ts es st' → ts.IsChain Quantified
  | .none => .nil
  | .first head tail => quantified_arguments head.quantified tail tail.quantified
  | .next comma head tail =>
    quantified_symbol [] comma .nil (quantified_arguments head.quantified tail tail.quantified)

end

theorem Quantified.apart (h : Quantified t u) : Apart t.word u.word := by
  intro number name
  have isNumber : t.isNumber := by
    simpa [Token.isNumber, Word.IsNumber, Token.word, or_assoc] using number
  obtain ⟨k, known⟩ := h isNumber (decide_eq_true name)
  have unknown : quantifiers.lookup "e" = none ∧ quantifiers.lookup "E" = none := by decide
  constructor
  · intro small
    have content : u.content = "e" := small
    simp [content, unknown.1] at known
  · intro capital
    have content : u.content = "E" := capital
    simp [content, unknown.2] at known

theorem apart_words (h : ts.IsChain Quantified) : (ts.map Token.word).IsChain Apart :=
  List.isChain_map_of_isChain Token.word (fun _ _ => Quantified.apart) h

end Neighbours

section Texts

variable {g : Grammar} {st : Store} {ts us : List Token} {t m n : Token} {cs bs ds : List Char}

theorem exists_negated {k : TokenKind} {w content : List Char} (starts : StartsUnsigned w)
    (numeral : Numeral .integer w k content) (said : n.word = ⟨k, "", String.ofList content⟩) :
    ∃ n', IsNegated n n' ∧ n'.word = ⟨k, "", String.ofList ('-' :: content)⟩ := by
  obtain ⟨kind, trigger, content', source, position⟩ := n
  obtain ⟨rfl, rfl, rfl⟩ := Word.mk.inj said
  have number : Token.isNumber ⟨kind, "", String.ofList content, source, position⟩ := by
    simpa [Token.isNumber, or_assoc] using numeral.isNumber (.inl rfl)
  have unsigned : IsUnsigned (String.ofList content).toList := by
    rw [String.toList_ofList]
    exact numeral.isUnsigned starts
  have sign : String.ofList ('-' :: content) = "-" ++ String.ofList content := by
    simp
  exact ⟨⟨kind, "", String.ofList ('-' :: content), source, position⟩,
    ⟨number, unsigned, number, sign⟩, rfl⟩

def start (st : Store) (cs : List Char) : ParserState :=
  ⟨.ofSource (.ofString (String.ofList cs)), st⟩

theorem sees_start (text : Lexer.Reads cs (ts.map Token.word)) (st : Store) :
    ∃ us mark, mark.isEnd ∧ (∀ t ∈ us, Lexer.IsLexeme t) ∧ us.map Token.word = ts.map Token.word ∧
      Sees mark (start st cs) ⟨us, st, []⟩ := by
  have same : (String.ofList cs).toList = cs := String.toList_ofList
  obtain ⟨us, mark, ahead, isEnd, words⟩ := TokenStream.ahead_of_reads (same.symm ▸ text)
  exact ⟨us, mark, isEnd, TokenStream.isLexeme_of_ahead ahead, words, ahead, rfl, rfl⟩

theorem reads_start (builtin : g.functions = .builtin) (numbers : st.HoldsNumbers g.scope)
    (text : Lexer.Reads cs (ts.map Token.word))
    (accepted : ∃ x s, whole g (start st cs) = .ok x s ∧ s.tokens.problems = []) :
    ∃ e s, rule .expression g (start st cs) = .ok e s ∧
      Reads g depthLimit .expression st ts e s.store := by
  have total : g.functions.IsTotal g.bits := builtin ▸ Registry.isTotal_builtin g.bits
  obtain ⟨x, s₁, ok, clean⟩ := accepted
  obtain ⟨s₂, _, simple, _⟩ := whole_eq_ok ok
  obtain ⟨e₁, ran₁, _⟩ := simplified_eq_ok simple
  have none : problemsAfter (whole g (start st cs)) = [] := by
    rw [ok]
    exact clean
  obtain ⟨us, mark, isEnd, lexemes, words, sees⟩ := sees_start text st
  obtain ⟨e, s, ran, reads⟩ :=
    reads_of_accepted isEnd total lexemes numbers sees (not_isCutShort_of_ok ran₁) none
  exact ⟨e, s, ran, reads.congr words.symm⟩

theorem accepted_start (builtin : g.functions = .builtin) (numbers : st.HoldsNumbers g.scope)
    (text : Lexer.Reads cs (ts.map Token.word)) {e : Expr} {st' : Store}
    (reads : Reads g depthLimit .expression st ts e st') :
    (∃ x s, whole g (start st cs) = .ok x s ∧ s.tokens.problems = []) ∧
      ∃ s, rule .expression g (start st cs) = .ok e s ∧ s.store = st' := by
  have total : g.functions.IsTotal g.bits := builtin ▸ Registry.isTotal_builtin g.bits
  obtain ⟨us, mark, isEnd, lexemes, words, sees⟩ := sees_start text st
  have reads' : Reads g depthLimit .expression st us e st' := reads.congr words
  obtain ⟨s, ran, sees'⟩ := run_of_reads isEnd reads' sees
  have within : ¬ IsTooDeep (rule .expression g (start st cs)) := by
    rintro ⟨s', deep⟩
    cases ran.symm.trans deep
  obtain ⟨accepted, x, s', ok⟩ := accepted_of_reads isEnd total lexemes numbers sees within reads'
  rw [ok] at accepted
  exact ⟨⟨x, s', ok, accepted⟩, s, ran, sees'.store⟩

/-- Where a minus sign stands between an operand and a number, a text means the same without the
blanks behind the sign, unless the number is the base of a power: it is read without a problem as
well, and it has the same value for all values of the variables. -/
theorem whole_unspaced (builtin : g.functions = .builtin) (numbers : st.HoldsNumbers g.scope)
    (front : Reaches (cs ++ '-' :: (bs ++ ds)) ((ts ++ [t]).map Token.word) ('-' :: (bs ++ ds)))
    (operand : EndsOperand t) (nonempty : bs ≠ []) (blanks : ∀ b ∈ bs, isBlank b)
    (unsigned : StartsUnsigned ds)
    (behind : Lexer.Reads ds ((n :: us).map Token.word)) (free : raises us = false)
    (accepted : ∃ x s, whole g (start st (cs ++ '-' :: (bs ++ ds))) = .ok x s ∧
      s.tokens.problems = []) :
    (∃ x s, whole g (start st (cs ++ '-' :: ds)) = .ok x s ∧ s.tokens.problems = []) ∧
      ∃ e e' s s', rule .expression g (start st (cs ++ '-' :: (bs ++ ds))) = .ok e s ∧
        rule .expression g (start st (cs ++ '-' :: ds)) = .ok e' s' ∧ s'.store = s.store ∧
        SameWhere (Circumstances.Suits g.mode) e.evaluate e'.evaluate := by
  let m : Token := ⟨.symbol, "-", "", "-", .unknown⟩
  have spaced : Lexer.Reads (cs ++ '-' :: (bs ++ ds))
      ((ts ++ t :: m :: n :: us).map Token.word) := by
    rw [List.append_cons ts, List.map_append]
    exact Lexer.reads_spaced front nonempty blanks behind
  obtain ⟨e, s, ran, reads⟩ := reads_start builtin numbers spaced accepted
  -- Only of a text that is accepted it is known that no exponent is cut off in front of the sign.
  have apart : ((ts ++ [t]).map Token.word).IsChain Apart := by
    have all := reads.quantified
    rw [List.append_cons ts] at all
    exact apart_words all.left_of_append
  obtain ⟨w, content, k, starts, numeral, said, signed⟩ :=
    Lexer.reads_unspaced front apart unsigned behind
  obtain ⟨n', negated, said'⟩ := exists_negated starts numeral said
  have glues : Glues (ts ++ t :: m :: n :: us) (ts ++ t :: n' :: us) :=
    .intro operand rfl negated free
  obtain ⟨e', glued, alike⟩ := reads.glueable builtin _ glues
  have unspaced : Lexer.Reads (cs ++ '-' :: ds) ((ts ++ t :: n' :: us).map Token.word) := by
    rw [← said'] at signed
    rwa [List.append_cons ts, List.map_append]
  obtain ⟨ok, s', ran', store⟩ := accepted_start builtin numbers unspaced glued
  exact ⟨ok, e, e', s, s', ran, ran', store, alike.sameWhere⟩

/-- The blank in front of a factor makes no difference. -/
theorem whole_unspaced_product :
    let g : Grammar := { bits := 53, scope := 0, mode := .float, functions := .builtin }
    let st : Store := { vars := [], scopes := [⟨none, .float, false, []⟩] }
    let spaced : ParserState := start st ['x', ' ', '-', ' ', '3', ' ', '*', ' ', 'x']
    let unspaced : ParserState := start st ['x', ' ', '-', '3', ' ', '*', ' ', 'x']
    (∃ x s, whole g unspaced = .ok x s ∧ s.tokens.problems = []) ∧
      ∃ e e' s s', rule .expression g spaced = .ok e s ∧ rule .expression g unspaced = .ok e' s' ∧
        s'.store = s.store ∧ SameWhere (Circumstances.Suits g.mode) e.evaluate e'.evaluate := by
  intro g st spaced unspaced
  let name : Identifier := ⟨'x', [], by decide, forall_mem_of_all rfl⟩
  let product : Term :=
    .binary .multiply (.literal ⟨['3'], by decide, forall_mem_of_all rfl⟩) (.name name)
  let x : Token := ⟨.identifier, "", "x", "x", .unknown⟩
  let three : Token := ⟨.integer, "", "3", "3", .unknown⟩
  let times : Token := ⟨.symbol, "*", "", "*", .unknown⟩
  let behind : List Char := ['3', ' ', '*', ' ', 'x']
  have written : product.render = behind := rfl
  have front : Reaches (['x', ' '] ++ '-' :: ([' '] ++ behind)) (([] ++ [x]).map Token.word)
      ('-' :: ([' '] ++ behind)) :=
    (Lexer.says_identifier name (' ' :: '-' :: ' ' :: behind) (.tail _ (.head _))).trans .blank
  have words : Lexer.Reads behind ([three, times, x].map Token.word) :=
    written ▸ product.reads_words
  have numbers : st.HoldsNumbers g.scope := Store.holdsNumbers_of_vars (List.forall_mem_nil _) 0
  have operand : EndsOperand x := .inr (.inl rfl)
  have unsigned : Lexer.StartsUnsigned behind := .inl (by decide)
  have accepted : ∃ x s, whole g (start st (['x', ' '] ++ '-' :: ([' '] ++ behind))) = .ok x s
      ∧ s.tokens.problems = [] := by
    have run : endsWith (fun _ s => s.tokens.problems.isEmpty)
        (whole g (start st (['x', ' '] ++ '-' :: ([' '] ++ behind)))) = true := by decide +kernel
    obtain ⟨x, s, ok, none⟩ := exists_of_endsWith run
    exact ⟨x, s, ok, List.isEmpty_iff.mp none⟩
  have nonempty : [' '] ≠ [] := List.cons_ne_nil _ _
  have blanks : ∀ b ∈ [' '], isBlank b := List.forall_mem_singleton.mpr (by decide)
  have free : raises [times, x] = false := rfl
  have result := whole_unspaced rfl numbers front operand nonempty blanks unsigned
    words free accepted
  exact result

/-- The value of a text that comes to a constant. -/
def constant? (g : Grammar) (st : Store) (text : String) : Option Value :=
  match whole g ⟨.ofSource (.ofString text), st⟩ with
  | .ok (.constant v) _ => some v
  | _ => none

/-- In front of a power the blank makes a difference: without it, the sign binds stronger than the
power. -/
theorem constant?_power_glued :
    let g : Grammar := { bits := 53, scope := 0, mode := .float, functions := .builtin }
    let st : Store := (Store.newScope 53 none .float {}).2
    constant? g st "1 - 3 ^ 2" = (Number.Binary64.ofInt? (-8)).map .float ∧
      constant? g st "1 -3 ^ 2" = (Number.Binary64.ofInt? 10).map .float := by
  decide +kernel

end Texts

end Formula.Parser
