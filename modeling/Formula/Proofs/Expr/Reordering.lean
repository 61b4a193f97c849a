import Formula.Expr.Reorder

/-! Reordering as an operation on chains. Putting an operand in front of a chain only changes what
stands left of the last operator, so that a chain may be built from either end. -/
namespace Formula.Expr

@[simp] theorem isOpen_binary (p : Nat) (op : Operator) (l r : Expr) (s : Bool) :
    isOpen p (.binary op l r s) = (!s && op.priority = p) := rfl

theorem isOpen_eq_true {p : Nat} {e : Expr} (h : e.isOpen p = true) :
    ∃ op l r, e = .binary op l r false ∧ op.priority = p := by
  cases e with
  | binary op l r s =>
    cases s with
    | true => simp at h
    | false => exact ⟨op, l, r, rfl, by simpa using h⟩
  | constant | reference | call => simp [isOpen] at h

theorem reorder_of_not_isOpen {op : Operator} {x y : Expr} (h : y.isOpen op.priority = false) :
    reorder op x y = .binary op x y false := by
  simp [reorder, h]

/-- Only what stands left of the last operator of a chain takes part in reordering. -/
theorem reorder_binary {op last : Operator} (same : last.priority = op.priority) (x l r : Expr) :
    reorder op x (.binary last l r false) = .binary last (reorder op x l) r false := by
  by_cases h : l.isOpen op.priority <;> simp [reorder, insertLeft, same, h]

theorem isOpen_reorder (p : Nat) (op : Operator) (x y : Expr) :
    (reorder op x y).isOpen p = decide (op.priority = p) := by
  by_cases h : y.isOpen op.priority
  · obtain ⟨last, l, r, rfl, same⟩ := isOpen_eq_true h
    rw [reorder_binary same, isOpen_binary, same]
    rfl
  · rw [reorder_of_not_isOpen (by simpa using h), isOpen_binary]
    rfl

/-- Two operands may be put in front of a chain one after another, or combined first. -/
theorem reorder_reorder {op next : Operator} (same : next.priority = op.priority) (x y : Expr)
    (closed : y.isOpen op.priority = false) (z : Expr) :
    reorder op x (reorder next y z) = reorder next (.binary op x y false) z := by
  by_cases h : z.isOpen next.priority
  · obtain ⟨last, l, r, rfl, chain⟩ := isOpen_eq_true h
    have inner := reorder_reorder same x y closed l
    rw [reorder_binary chain, reorder_binary chain, reorder_binary (chain.trans same), inner]
  · have alone : z.isOpen next.priority = false := by simpa using h
    rw [reorder_of_not_isOpen alone, reorder_of_not_isOpen alone, reorder_binary same,
      reorder_of_not_isOpen closed]
termination_by sizeOf z

end Formula.Expr
