import Formula.Proofs.Expr.Combining
import Formula.Proofs.Function.Totality

/-! Simplification of numeric expressions. Where all constants are numbers and all functions give
numbers, nothing that simplification computes can fault, and what it leaves is numeric again. -/
namespace Formula.Expr

mutual

/-- An expression over numbers: its constants and the values of its constant variables are numbers,
and its functions give numbers. -/
def IsNumeric (k : Knowledge) : Expr → Prop
  | .constant v => v.IsNumber
  | .reference v _ => ∀ x, k.fixed v = some x → x.IsNumber
  | .binary _ l r _ => l.IsNumeric k ∧ r.IsNumeric k
  | .call f _ args => f.IsTotal k.bits ∧ f.accepts args.length ∧ AreNumeric k args

def AreNumeric (k : Knowledge) : List Expr → Prop
  | [] => True
  | e :: rest => e.IsNumeric k ∧ AreNumeric k rest

end

variable {k : Knowledge} {op : Operator} {l r e : Expr} {es : List Expr}

def Succeeds (k : Knowledge) (s : Simplified) : Prop :=
  ∃ e, s.result = .ok e ∧ e.IsNumeric k

theorem succeeds_kept (h : e.IsNumeric k) : Succeeds k ⟨e, .ok none⟩ := ⟨e, rfl, h⟩

theorem succeeds_value {x : Except Fault Value} (h : GivesNumber x) :
    Succeeds k ⟨e, x.map fun v => some (.constant v)⟩ := by
  obtain ⟨v, rfl, number⟩ := h
  exact ⟨.constant v, rfl, number⟩

theorem succeeds_regroup {node : Expr} (node' : node.IsNumeric k) (hl : l.IsNumeric k)
    (hr : r.IsNumeric k) : Succeeds k ⟨node, regroup k op l r⟩ := by
  have cases := regrouping k op l r
  generalize regroup k op l r = replacement at cases ⊢
  cases cases with
  | merged a b z =>
    obtain ⟨v, apply, number⟩ := Operator.apply_number (p := k.bits) hl hr.1 op
    rw [apply]
    exact ⟨_, rfl, number, hr.2⟩
  | rotated b z => exact ⟨_, rfl, hr.1, hl, hr.2⟩
  | kept => exact succeeds_kept node'

theorem succeeds_combine (hl : l.IsNumeric k) (hr : r.IsNumeric k) (s : Bool) :
    Succeeds k (combine k op l r s) := by
  have cases := combining k op l r s
  generalize combine k op l r s = simplified at cases ⊢
  cases cases with
  | computed a b => exact succeeds_value (Operator.evaluate_number hl hr op)
  | kept => exact succeeds_kept ⟨hl, hr⟩
  | swapped b => exact succeeds_regroup ⟨hr, hl⟩ hr hl
  | regrouped => exact succeeds_regroup ⟨hl, hr⟩ hl hr

theorem areNumeric_constants {vs : List Value} (h : AreNumeric k (vs.map .constant)) :
    ∀ v ∈ vs, v.IsNumber := by
  induction vs with
  | nil => exact List.forall_mem_nil _
  | cons v vs ih => exact List.forall_mem_cons.mpr ⟨h.1, ih h.2⟩

theorem succeeds_settle {f : Function} (total : f.IsTotal k.bits) (fits : f.accepts es.length)
    (h : AreNumeric k es) (name : String) : Succeeds k (settle k f name es) := by
  have cases := settling k f name es
  generalize settle k f name es = simplified at cases ⊢
  cases cases with
  | computed natural vs =>
    rw [List.length_map] at fits
    exact succeeds_value (total _ natural vs fits (areNumeric_constants h))
  | kept => exact succeeds_kept ⟨total, fits, h⟩

mutual

/-- A numeric expression is simplified without a fault. -/
theorem succeeds_simplify : ∀ e : Expr, e.IsNumeric k → Succeeds k (e.simplify k)
  | .constant v, h => succeeds_kept h
  | .reference v name, h => by
    unfold simplify
    cases fixed : k.fixed v with
    | none => exact succeeds_kept (e := .reference v name) h
    | some x => exact ⟨.constant x, rfl, h x fixed⟩
  | .binary op l r s, h => by
    obtain ⟨l', left, hl⟩ := succeeds_simplify l h.1
    obtain ⟨r', right, hr⟩ := succeeds_simplify r h.2
    simp only [simplify, left, right]
    exact succeeds_combine hl hr s
  | .call f name args, h => by
    obtain ⟨es, all, length, hs⟩ := succeeds_simplifyAll args h.2.2
    simp only [simplify, all]
    exact succeeds_settle h.1 (length ▸ h.2.1) hs name

theorem succeeds_simplifyAll : ∀ es : List Expr, AreNumeric k es →
    ∃ es', simplifyAll k es = (es', none) ∧ es'.length = es.length ∧ AreNumeric k es'
  | [], _ => ⟨[], rfl, rfl, trivial⟩
  | e :: rest, h => by
    obtain ⟨e', first, he⟩ := succeeds_simplify e h.1
    obtain ⟨es, others, length, hs⟩ := succeeds_simplifyAll rest h.2
    refine ⟨e' :: es, ?_, by simp [length], he, hs⟩
    simp only [simplifyAll, first, others]

end

end Formula.Expr
