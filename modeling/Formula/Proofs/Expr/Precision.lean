import Formula.Proofs.Expr.Keeping
import Formula.Proofs.Function.Precision

/-! Expressions of precise numbers. Only comparisons bring plain numbers into an expression, and
which parts may be plain on their account is seen from the operators and functions above them. -/
namespace Formula.Expr

open Evaluation (Gives gives_pure gives_bits gives_bind)

mutual

/-- Whether the value may be plain, where all variables are precise. -/
def mayBePlain : Expr → Bool
  | .constant v => !v.isPrecise && decide (v ≠ .invalid)
  | .reference .. => false
  | .binary op l r _ => op.mayBePlain l.mayBePlain r.mayBePlain
  | .call f _ args => f.mayBePlain (whichMayBePlain args)

def whichMayBePlain : List Expr → List Bool
  | [] => []
  | e :: rest => e.mayBePlain :: whichMayBePlain rest

end

section Values

variable {c : Circumstances}

/-- A node that is a number or a variable with a precise value, an operation, or a call of a
function that is there from the start with as many arguments as it takes. -/
def HasPrecise (c : Circumstances) : Expr → Prop
  | .constant v => v.IsNumber
  | .reference v _ => (c.value v).IsNumber ∧ (c.value v).isPrecise
  | .binary .. => True
  | .call f _ args => f ∈ Function.builtin ∧ f.accepts args.length

theorem meets_constant {v : Value} (number : v.IsNumber) : v.Meets (mayBePlain (.constant v)) := by
  refine ⟨number, fun must => ?_⟩
  unfold mayBePlain at must
  rcases Bool.and_eq_false_iff.mp must with precise | other
  · exact .inl (by simpa using precise)
  · exact .inr (by simpa using other)

mutual

theorem meets_evaluate : ∀ e : Expr, e.Everywhere (HasPrecise c) → e.evaluate.Meets c e.mayBePlain
  | .constant v, number => gives_pure (meets_constant number)
  | .reference v name, precise => fun _ => ⟨precise.1, fun _ => .inl precise.2⟩
  | .binary op l r sealed, h => by
    refine gives_bind (meets_evaluate l h.2.1) fun a _ _ _ ha => ?_
    refine gives_bind (meets_evaluate r h.2.2) fun b _ _ _ hb => ?_
    refine gives_bind gives_bits fun p _ _ _ _ => ?_
    exact Evaluation.meets_ofExcept (Operator.evaluate_meets ha hb op)
  | .call f name args, h => by
    have counted : f.accepts (evaluations args).length := by
      rw [evaluations_eq_map, List.length_map]
      exact h.1.2
    exact Function.isPrecise_builtin f h.1.1 _ _ counted (meets_evaluations args h.2)

theorem meets_evaluations : ∀ es : List Expr, AllEverywhere (HasPrecise c) es →
    List.Forall₂ (Evaluation.Meets c) (whichMayBePlain es) (evaluations es)
  | [], _ => .nil
  | e :: rest, h => .cons (meets_evaluate e h.1) (meets_evaluations rest h.2)

end

end Values

section Simplified

variable {k : Knowledge} {plain : Bool}

/-- A node that is precise unless plain numbers are in use, and an operation or a call that gives
none by itself. -/
def KeepsPrecise (k : Knowledge) (plain : Bool) : Expr → Prop
  | .constant v => v.Meets plain
  | .reference v _ => ∀ x, k.fixed v = some x → x.Meets plain
  | .binary op .. => op.mayBePlain plain plain = plain
  | .call f _ args => f ∈ Function.builtin ∧ f.accepts args.length

theorem staysWith_keepsPrecise (k : Knowledge) (plain : Bool) :
    StaysWith k (KeepsPrecise k plain) where
  known fixed h := h _ fixed
  operands _ _ _ h := h
  arguments es length h := ⟨h.1, length ▸ h.2⟩
  evaluated steady ha hb evaluated := by
    obtain ⟨v, same, meets⟩ := Operator.evaluate_meets (p := k.bits) ha hb _
    cases evaluated.symm.trans same
    exact steady ▸ meets
  decided call natural meets decided :=
    Function.decide_meets call.1 natural (List.length_map _ ▸ call.2) meets k.bits _ decided

/-- Simplification brings no plain numbers into an expression. -/
theorem keepsPrecise_simplify (e e' : Expr) (h : e.Everywhere (KeepsPrecise k plain))
    (simplified : (e.simplify k).result = .ok e') : e'.Everywhere (KeepsPrecise k plain) :=
  (everywhere_simplify (staysWith_keepsPrecise k plain) e h).result simplified

mutual

theorem mayBePlain_eq_false : ∀ e : Expr, e.Everywhere (KeepsPrecise k false) → e.mayBePlain = false
  | .constant v, h => by
    rcases h.2 rfl with precise | rfl
    · simp [mayBePlain, precise]
    · simp [mayBePlain]
  | .reference .., _ => rfl
  | .binary op l r _, h => by
    rw [mayBePlain, mayBePlain_eq_false l h.2.1, mayBePlain_eq_false r h.2.2]
    exact h.1
  | .call f _ args, h => by
    rw [mayBePlain, whichMayBePlain_eq_false args h.2]
    exact Function.mayBePlain_replicate h.1.1 h.1.2

theorem whichMayBePlain_eq_false : ∀ es : List Expr, AllEverywhere (KeepsPrecise k false) es →
    whichMayBePlain es = List.replicate es.length false
  | [], _ => rfl
  | e :: rest, h => by
    rw [whichMayBePlain, mayBePlain_eq_false e h.1, whichMayBePlain_eq_false rest h.2]
    rfl

end

end Simplified

end Formula.Expr
