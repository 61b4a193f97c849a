import Formula.Proofs.Expr.Reordering

/-! The parts of an expression: the expression itself, its operands or arguments, and theirs. They
are the nodes that a walk through the expression visits. -/
namespace Formula.Expr

variable {P Q : Expr → Prop}

mutual

/-- All parts of the expression satisfy `P`. -/
def Everywhere (P : Expr → Prop) : Expr → Prop
  | .constant v => P (.constant v)
  | .reference v name => P (.reference v name)
  | .binary op l r s => P (.binary op l r s) ∧ l.Everywhere P ∧ r.Everywhere P
  | .call f name args => P (.call f name args) ∧ AllEverywhere P args

def AllEverywhere (P : Expr → Prop) : List Expr → Prop
  | [] => True
  | e :: rest => e.Everywhere P ∧ AllEverywhere P rest

end

theorem Everywhere.here {e : Expr} (h : e.Everywhere P) : P e := by
  cases e with
  | constant | reference => exact h
  | binary | call => exact h.1

mutual

theorem everywhere_iff_descend (path : List Expr) :
    ∀ e : Expr, e.Everywhere P ↔ P e ∧ ∀ x ∈ e.descend path, P x.node
  | .constant v => by simp [Everywhere, descend]
  | .reference v name => by simp [Everywhere, descend]
  | .binary op l r s => by
    have left := everywhere_iff_descend (path ++ [.binary op l r s]) l
    have right := everywhere_iff_descend (path ++ [.binary op l r s]) r
    simp only [Everywhere, descend, left, right, List.forall_mem_cons,
      List.forall_mem_append, and_assoc]
  | .call f name args => by
    have all := allEverywhere_iff_descend (path ++ [.call f name args]) 0 args
    simp only [Everywhere, descend, all]

theorem allEverywhere_iff_descend (path : List Expr) (i : Nat) :
    ∀ es : List Expr, AllEverywhere P es ↔ ∀ x ∈ descendAll path i es, P x.node
  | [] => by simp [AllEverywhere, descendAll]
  | e :: rest => by
    have first := everywhere_iff_descend path e
    have others := allEverywhere_iff_descend path (i + 1) rest
    simp only [AllEverywhere, descendAll, first, others, List.forall_mem_cons,
      List.forall_mem_append, and_assoc]

end

/-- What holds of all parts holds of all nodes that are visited, and the other way round. -/
theorem everywhere_iff_visits {e : Expr} : e.Everywhere P ↔ ∀ x ∈ e.visits, P x.node := by
  rw [everywhere_iff_descend [], visits, List.forall_mem_cons]

theorem Everywhere.mono {e : Expr} (h : e.Everywhere P) (weaker : ∀ e, P e → Q e) :
    e.Everywhere Q :=
  everywhere_iff_visits.mpr fun x visited => weaker _ (everywhere_iff_visits.mp h x visited)

theorem allEverywhere_iff {es : List Expr} : AllEverywhere P es ↔ ∀ e ∈ es, e.Everywhere P := by
  induction es with
  | nil => simp [AllEverywhere]
  | cons e rest ih => simp [AllEverywhere, ih]

mutual

theorem Everywhere.parts : ∀ e : Expr, e.Everywhere P → e.Everywhere (·.Everywhere P)
  | .constant _, h => h
  | .reference _ _, h => h
  | .binary _ l r _, h => ⟨h, Everywhere.parts l h.2.1, Everywhere.parts r h.2.2⟩
  | .call _ _ args, h => ⟨h, AllEverywhere.parts args h.2⟩

theorem AllEverywhere.parts :
    ∀ es : List Expr, AllEverywhere P es → AllEverywhere (·.Everywhere P) es
  | [], _ => trivial
  | e :: rest, h => ⟨Everywhere.parts e h.1, AllEverywhere.parts rest h.2⟩

end

theorem everywhere_reorder (binary : ∀ op l r s, P (.binary op l r s)) (op : Operator) {l r : Expr}
    (hl : l.Everywhere P) (hr : r.Everywhere P) : (reorder op l r).Everywhere P := by
  by_cases h : r.isOpen op.priority
  · obtain ⟨last, x, y, rfl, same⟩ := isOpen_eq_true h
    rw [reorder_binary same]
    exact ⟨binary .., everywhere_reorder binary op hl hr.2.1, hr.2.2⟩
  · rw [reorder_of_not_isOpen (by simpa using h)]
    exact ⟨binary .., hl, hr⟩
termination_by sizeOf r

theorem everywhere_inBrackets (binary : ∀ op l r s, P (.binary op l r s)) {e : Expr}
    (h : e.Everywhere P) : e.inBrackets.Everywhere P := by
  cases e with
  | binary => exact ⟨binary .., h.2⟩
  | constant | reference | call => exact h

end Formula.Expr
