import Formula.Proofs.Expr.Reordering

/-! Chains of operations. Operations of one priority that are not sealed are taken apart into
operands and operators, from left to right. Reordering joins the chains of both operands with the
operator between them, and groups to the left what was grouped to the left. -/
namespace Formula.Expr

/-- A part of a chain: an operand, or an operator between two of them. -/
inductive Link where
  | operand (e : Expr)
  | operator (op : Operator)

/-- The operands and operators of a priority, from left to right. -/
def chain (p : Nat) : Expr → List Link
  | .binary op l r s =>
    if isOpen p (.binary op l r s) then chain p l ++ .operator op :: chain p r
    else [.operand (.binary op l r s)]
  | e => [.operand e]

/-- The second expression is an operation that is taken apart with the first one. -/
inductive Opens (p : Nat) : Expr → Expr → Prop
  | root {e : Expr} (is : e.isOpen p) : Opens p e e
  | left {op : Operator} {l r e : Expr} (same : op.priority = p) (below : Opens p l e) :
      Opens p (.binary op l r false) e
  | right {op : Operator} {l r e : Expr} (same : op.priority = p) (below : Opens p r e) :
      Opens p (.binary op l r false) e

def IsLeftAssociated (p : Nat) (e : Expr) : Prop :=
  ∀ op l r s, Opens p e (.binary op l r s) → r.isOpen p = false

variable {p : Nat} {op : Operator} {l r e : Expr}

theorem chain_open (same : op.priority = p) (l r : Expr) :
    (binary op l r false).chain p = l.chain p ++ .operator op :: r.chain p := by
  simp [chain, same]

theorem Opens.isOpen (h : Opens p l e) : l.isOpen p := by
  cases h with
  | root is => exact is
  | left same | right same => simp [same]

theorem chain_reorder (op : Operator) (x y : Expr) :
    (reorder op x y).chain op.priority =
      x.chain op.priority ++ .operator op :: y.chain op.priority := by
  by_cases h : y.isOpen op.priority
  · obtain ⟨last, l, r, rfl, same⟩ := isOpen_eq_true h
    have inner := chain_reorder op x l
    rw [reorder_binary same, chain_open same, chain_open same, inner, List.append_assoc,
      List.cons_append]
  · rw [reorder_of_not_isOpen (by simpa using h), chain_open rfl]
termination_by sizeOf y

theorem isLeftAssociated_of_not_isOpen (h : e.isOpen p = false) : e.IsLeftAssociated p :=
  fun _ _ _ _ opens => absurd opens.isOpen (ne_true_of_eq_false h)

theorem isLeftAssociated_binary (same : op.priority = p) :
    (binary op l r false).IsLeftAssociated p ↔ l.IsLeftAssociated p ∧ r.isOpen p = false := by
  constructor
  · intro h
    refine ⟨fun op' l' r' s opens => h op' l' r' s (.left same opens), ?_⟩
    exact h op l r false (.root (by simp [same]))
  · rintro ⟨left, closed⟩ op' l' r' s opens
    cases opens with
    | root => exact closed
    | left _ below => exact left op' l' r' s below
    | right _ below => exact absurd below.isOpen (ne_true_of_eq_false closed)

theorem isLeftAssociated_reorder {x y : Expr} (hx : x.isOpen op.priority = false)
    (hy : y.IsLeftAssociated op.priority) : (reorder op x y).IsLeftAssociated op.priority := by
  by_cases h : y.isOpen op.priority
  · obtain ⟨last, l, r, rfl, same⟩ := isOpen_eq_true h
    obtain ⟨left, closed⟩ := (isLeftAssociated_binary same).mp hy
    rw [reorder_binary same, isLeftAssociated_binary same]
    exact ⟨isLeftAssociated_reorder hx left, closed⟩
  · have closed : y.isOpen op.priority = false := by simpa using h
    rw [reorder_of_not_isOpen closed, isLeftAssociated_binary rfl]
    exact ⟨isLeftAssociated_of_not_isOpen hx, closed⟩
termination_by sizeOf y

/-- Reordering splices: the chain of the result is that of the left operand, the operator and that
of the right operand, with all operands as they are; and it is grouped to the left if the right
operand is and the left one is no chain. -/
theorem reorder_splices (op : Operator) (x y : Expr) :
    (reorder op x y).chain op.priority =
      x.chain op.priority ++ .operator op :: y.chain op.priority ∧
    (x.isOpen op.priority = false → y.IsLeftAssociated op.priority →
      (reorder op x y).IsLeftAssociated op.priority) :=
  ⟨chain_reorder op x y, fun hx hy => isLeftAssociated_reorder hx hy⟩

/-- A sum in front of a chain that starts with a sealed difference and goes on with a product. -/
theorem reorder_splices_sealed :
    let one : Expr := .constant (.integer 1)
    let inner : Expr := .binary .subtract one one true
    let product : Expr := .binary .multiply one one false
    let whole := reorder .add (.binary .add one one true) (.binary .subtract inner product false)
    whole.chain 3 = [.operand (.binary .add one one true), .operator .add, .operand inner,
      .operator .subtract,
      .operand product] ∧ whole.IsLeftAssociated 3 := by
  intro one inner product whole
  have closed : (binary .add one one true).isOpen 3 = false := rfl
  have left : (binary .subtract inner product false).IsLeftAssociated 3 :=
    (isLeftAssociated_binary (show Operator.subtract.priority = 3 from rfl)).mpr
      ⟨isLeftAssociated_of_not_isOpen rfl, rfl⟩
  obtain ⟨spliced, grouped⟩ :=
    reorder_splices .add (.binary .add one one true) (.binary .subtract inner product false)
  exact ⟨spliced, grouped closed left⟩

end Formula.Expr
