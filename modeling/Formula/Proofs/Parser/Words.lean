import Formula.Proofs.Lexer.Words
import Formula.Proofs.Parser.Phrases

/-! Reading goes by words: where tokens stand in a text, and how they are written there, makes no
difference. -/
namespace Formula.Parser

section Tokens

variable {t t' : Token}

theorem isSymbol_congr (same : t'.word = t.word) (a : String) : t'.isSymbol a = t.isSymbol a := by
  have kind : t'.kind = t.kind := congrArg Lexer.Word.kind same
  have trigger : t'.trigger = t.trigger := congrArg Lexer.Word.trigger same
  simp [Token.isSymbol, Token.isTriggered, kind, trigger]

theorem isKind_congr (same : t'.word = t.word) (k : TokenKind) : t'.isKind k = t.isKind k := by
  have kind : t'.kind = t.kind := congrArg Lexer.Word.kind same
  simp [Token.isKind, kind]

theorem isNumber_congr (same : t'.word = t.word) : t'.isNumber = t.isNumber := by
  have kind : t'.kind = t.kind := congrArg Lexer.Word.kind same
  simp [Token.isNumber, kind]

theorem content_congr (same : t'.word = t.word) : t'.content = t.content :=
  congrArg Lexer.Word.content same

theorem operator?_congr (same : t'.word = t.word) (r : Rule) : operator? r t' = operator? r t := by
  have trigger : t'.trigger = t.trigger := congrArg Lexer.Word.trigger same
  simp [operator?, isKind_congr same, trigger]

theorem isNegativeNumber_congr (same : t'.word = t.word) :
    isNegativeNumber t' = isNegativeNumber t := by
  simp [isNegativeNumber, isNumber_congr same, content_congr same]

end Tokens

section Phrases

variable {g : Grammar}

theorem OptionalPlus.congr {ps qs : List Token} (plus : OptionalPlus ps)
    (same : qs.map Token.word = ps.map Token.word) : OptionalPlus qs := by
  cases plus with
  | absent =>
    obtain rfl := List.map_eq_nil_iff.mp same
    exact .absent
  | present plus =>
    obtain ⟨q, rest, rfl, word, none⟩ := List.map_eq_cons_iff.mp same
    obtain rfl := List.map_eq_nil_iff.mp none
    exact .present ((isSymbol_congr word _).trans plus)

theorem exists_last {ts us : List Token} {t : Token}
    (same : us.map Token.word = (ts ++ [t]).map Token.word) :
    ∃ vs u, us = vs ++ [u] ∧ vs.map Token.word = ts.map Token.word ∧ u.word = t.word := by
  obtain ⟨vs, rest, rfl, first, more⟩ := List.map_eq_append_iff.mp (same.trans List.map_append)
  obtain ⟨u, none, rfl, word, empty⟩ := List.map_eq_cons_iff.mp more
  obtain rfl := List.map_eq_nil_iff.mp empty
  exact ⟨vs, u, rfl, first, word⟩

mutual

/-- Tokens that say the same words are read as the same expression. -/
theorem Reads.congr {d : Nat} {r : Rule} {st st' : Store} {ts us : List Token} {e : Expr}
    (h : Reads g d r st ts e st') (same : us.map Token.word = ts.map Token.word) :
    Reads g d r st us e st' := by
  -- Each phrase splits its tokens, and the words split the other tokens in the same way.
  match h with
  | .operand level only => exact .operand level (only.congr same)
  | .operator level is left right =>
    obtain ⟨as, rest, rfl, first, more⟩ := List.map_eq_append_iff.mp (same.trans List.map_append)
    obtain ⟨t, bs, rfl, word, others⟩ := List.map_eq_cons_iff.mp more
    exact .operator level ((operator?_congr word _).trans is) (left.congr first)
      (right.congr others)
  | .signed is left right =>
    obtain ⟨as, rest, rfl, first, more⟩ := List.map_eq_append_iff.mp (same.trans List.map_append)
    obtain ⟨t, bs, rfl, word, others⟩ := List.map_eq_cons_iff.mp more
    exact .signed ((isNegativeNumber_congr word).trans is) (left.congr first) (right.congr more)
  | .negated minus inner =>
    obtain ⟨t, bs, rfl, word, others⟩ := List.map_eq_cons_iff.mp same
    exact .negated ((isSymbol_congr word _).trans minus) (inner.congr others)
  | .brackets plus opening inner closing =>
    obtain ⟨qs, rest, rfl, pluses, more⟩ := List.map_eq_append_iff.mp (same.trans List.map_append)
    obtain ⟨t, rest, rfl, word, more⟩ := List.map_eq_cons_iff.mp more
    obtain ⟨bs, u, rfl, others, last⟩ := exists_last more
    exact .brackets (plus.congr pluses) ((isSymbol_congr word _).trans opening) (inner.congr others)
      ((isSymbol_congr last _).trans closing)
  | .bars opening inner closing =>
    obtain ⟨t, rest, rfl, word, more⟩ := List.map_eq_cons_iff.mp same
    obtain ⟨bs, u, rfl, others, last⟩ := exists_last more
    exact .bars ((isSymbol_congr word _).trans opening) (inner.congr others)
      ((isSymbol_congr last _).trans closing)
  | .called inner => exact .called (inner.congr same)
  | .call name opening inner closing known fits =>
    obtain ⟨t, rest, rfl, word, more⟩ := List.map_eq_cons_iff.mp same
    obtain ⟨u, rest, rfl, word', more⟩ := List.map_eq_cons_iff.mp more
    obtain ⟨bs, w, rfl, others, last⟩ := exists_last more
    have content := content_congr word
    rw [← content] at known ⊢
    exact .call ((isKind_congr word _).trans name) ((isSymbol_congr word' _).trans opening)
      (inner.congr others)
      ((isSymbol_congr last _).trans closing) known fits
  | .variable name found =>
    obtain ⟨t, none, rfl, word, empty⟩ := List.map_eq_cons_iff.mp same
    obtain rfl := List.map_eq_nil_iff.mp empty
    exact .variable ((isKind_congr word _).trans name) (content_congr word ▸ found)
  | .number plus is value =>
    obtain ⟨qs, t, rfl, pluses, word⟩ := exists_last same
    exact .number (plus.congr pluses) ((isNumber_congr word).trans is) (content_congr word ▸ value)
  | .quantity plus is value name known product =>
    obtain ⟨qs, rest, rfl, pluses, more⟩ := List.map_eq_append_iff.mp (same.trans List.map_append)
    obtain ⟨t, rest, rfl, word, more⟩ := List.map_eq_cons_iff.mp more
    obtain ⟨q, none, rfl, word', empty⟩ := List.map_eq_cons_iff.mp more
    obtain rfl := List.map_eq_nil_iff.mp empty
    exact .quantity (plus.congr pluses) ((isNumber_congr word).trans is)
      (content_congr word ▸ value)
      ((isKind_congr word' _).trans name) (content_congr word' ▸ known) product

theorem ReadsArguments.congr {d : Nat} {isFirst : Bool} {st st' : Store} {ts us : List Token}
    {es : List Expr}
    (h : ReadsArguments g d isFirst st ts es st') (same : us.map Token.word = ts.map Token.word) :
    ReadsArguments g d isFirst st us es st' := by
  match h with
  | .none =>
    obtain rfl := List.map_eq_nil_iff.mp same
    exact .none
  | .first head tail =>
    obtain ⟨as, bs, rfl, first, others⟩ := List.map_eq_append_iff.mp (same.trans List.map_append)
    exact .first (head.congr first) (tail.congr others)
  | .next comma head tail =>
    obtain ⟨t, rest, rfl, word, more⟩ := List.map_eq_cons_iff.mp same
    obtain ⟨as, bs, rfl, first, others⟩ := List.map_eq_append_iff.mp (more.trans List.map_append)
    exact .next ((isSymbol_congr word _).trans comma) (head.congr first) (tail.congr others)

end

end Phrases

end Formula.Parser
