import Formula.Proofs.Parser.Phrases

/-! Chains of operands. Rules read a chain from its first operand on and reorder what they have
read, but a phrase may as well be made longer at its end: the operator that comes last is the
root. -/
namespace Formula.Parser

variable {g : Grammar}

/-- What a rule reads is open on its own level or on deeper ones only. -/
theorem Reads.closedAbove {d : Nat} {r : Rule} {st st' : Store} {ts : List Token} {e : Expr} :
    Reads g d r st ts e st' → ClosedAbove r e
  | .operand level only => closedAbove_of_operand level only.closedAbove
  | .operator _ is _ _ => closedAbove_reorder (priority_of_operator? is) _ _
  | .signed _ _ _ => closedAbove_reorder rfl _ _
  | .negated _ _ | .bars _ _ _ | .variable _ _ | .number _ _ _ | .quantity _ _ _ _ _ _ =>
    fun _ _ => rfl
  | .brackets _ _ _ _ => fun p _ => closed_inBrackets _ p
  | .called inner => inner.closedAbove
  | .call _ _ _ _ _ _ => fun _ _ => rfl

/-- After a phrase and an operator of its level, an operand goes on with the phrase. -/
theorem Reads.append {d n : Nat} {r b : Rule} {st st₁ st' : Store} {ts us : List Token} {t : Token}
    {op : Operator} {x y : Expr} (level : r.operand? = some b) (is : operator? r t = some op)
    (right : Reads g n b st₁ us y st') : Reads g d r st ts x st₁ →
      Reads g (d + n + 1) r st (ts ++ t :: us) (.binary op x y false) st'
  -- The phrase is read from the right: the new operand becomes the last one of its chain.
  | @Reads.operand _ d _ _ _ _ _ _ level' only => by
    obtain rfl := Option.some.inj (level'.symm.trans level)
    have closed : y.isOpen op.priority = false := by
      refine right.closedAbove _ ?_
      rw [priority_of_operator? is, Rule.rank_operand level]
      exact Nat.lt_succ_self _
    have last : Reads g (d + 1 + n) r st₁ us y st' :=
      (Reads.operand level right).mono (by omega)
    exact Expr.reorder_of_not_isOpen closed ▸ .operator level is (only.mono (by omega)) last
  | @Reads.operator _ d _ _ _ _ _ _ _ _ op' _ _ level' is' left rest => by
    have same : op.priority = op'.priority :=
      (priority_of_operator? is).trans (priority_of_operator? is').symm
    have more := Reads.append level is right rest
    rw [List.append_assoc, List.cons_append, ← Expr.reorder_binary same]
    exact .operator level' is' (left.mono (by omega)) (more.mono (by omega))
  | .signed is' left rest => by
    have same : op.priority = Operator.add.priority := priority_of_operator? is
    have more := Reads.append level is right rest
    rw [List.append_assoc, List.cons_append, ← Expr.reorder_binary same]
    exact .signed is' (left.mono (by omega)) (more.mono (by omega))
  | .negated .. | .brackets .. | .bars .. | .called .. | .call .. | .variable ..
  | .number .. | .quantity .. => by
    cases level

theorem Reads.lift {d : Nat} {r b : Rule} {st st' : Store} {ts : List Token} {e : Expr}
    (reads : Reads g d b st ts e st') (above : r.rank ≤ b.rank) (noCall : r ≠ .call)
    (operand : b ≠ .call) : ∃ n, Reads g n r st ts e st' := by
  obtain ⟨n, rank⟩ : ∃ n, b.rank = r.rank + n := ⟨b.rank - r.rank, by omega⟩
  induction n generalizing r with
  | zero =>
    have same : r = b := by cases r <;> cases b <;> simp_all [Rule.rank]
    exact ⟨d, same ▸ reads⟩
  | succ n ih =>
    obtain ⟨r₁, level⟩ : ∃ r₁, r.operand? = some r₁ := by
      cases r <;> first | exact ⟨_, rfl⟩ | (cases b <;> simp_all [Rule.rank])
    have rank₁ := Rule.rank_operand level
    have noCall₁ : r₁ ≠ .call := by
      rintro rfl
      cases r <;> cases level
    obtain ⟨m, deeper⟩ := ih (by omega) noCall₁ (by omega)
    exact ⟨m + 1, .operand level deeper⟩

end Formula.Parser
