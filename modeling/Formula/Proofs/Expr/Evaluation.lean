import Formula.Proofs.Expr.Parts
import Formula.Proofs.Function.Closure
import Formula.Proofs.Function.Dependence

/-! What evaluation keeps. Where parts of an expression are replaced by parts that evaluate in the
same way, so does the whole. Where the constants and the variables of an expression are of some
kind, and operators and functions do not leave it, so is the value. -/
namespace Formula

open Evaluation (SameWhere bind_of_ok bind_of_error keeps_pure keeps_bind keeps_ofExcept keeps_bits)

namespace Expr

section Runs

variable {c : Circumstances} {op : Operator} {l r : Expr} {sealed : Bool} {s s₁ s₂ : Effects}
  {a b : Value} {f : Fault}

theorem evaluate_binary (left : l.evaluate c s = .ok a s₁) (right : r.evaluate c s₁ = .ok b s₂) :
    (binary op l r sealed).evaluate c s =
      Evaluation.ofExcept (op.evaluate c.precision.bits a b) c s₂ := by
  unfold evaluate
  rw [bind_of_ok left, bind_of_ok right]
  rfl

theorem evaluate_binary_left (left : l.evaluate c s = .error f s₁) :
    (binary op l r sealed).evaluate c s = .error f s₁ := by
  unfold evaluate
  rw [bind_of_error left]

theorem evaluate_binary_right (left : l.evaluate c s = .ok a s₁)
    (right : r.evaluate c s₁ = .error f s₂) :
    (binary op l r sealed).evaluate c s = .error f s₂ := by
  unfold evaluate
  rw [bind_of_ok left, bind_of_error right]

end Runs

section Same

variable {K : Circumstances → Prop}

theorem sameWhere_binary {l l' r r' : Expr} (left : SameWhere K l.evaluate l'.evaluate)
    (right : SameWhere K r.evaluate r'.evaluate) (op : Operator) (sealed sealed' : Bool) :
    SameWhere K (binary op l r sealed).evaluate (binary op l' r' sealed').evaluate :=
  .bind left fun _ => .bind right fun _ => .refl K _

theorem evaluations_eq_map (es : List Expr) : evaluations es = es.map evaluate := by
  induction es with
  | nil => rfl
  | cons e rest ih => rw [evaluations, ih, List.map_cons]

theorem sameWhere_call {f : Function} (respects : f.Respects K) {es es' : List Expr}
    (same : List.Forall₂ (fun e e' => SameWhere K e.evaluate e'.evaluate) es es')
    (name name' : String) :
    SameWhere K (call f name es).evaluate (call f name' es').evaluate := by
  apply Function.call_sameWhere respects
  rw [evaluations_eq_map, evaluations_eq_map, List.forall₂_map_left_iff, List.forall₂_map_right_iff]
  exact same

end Same

section Kinds

variable {c : Circumstances} {P : Value → Prop}

/-- A node that is no constant but one that satisfies `P`, and no call but of a function that
satisfies `F`. -/
def NodeHolds (P : Value → Prop) (F : Function → Prop) : Expr → Prop
  | .constant v => P v
  | .call f _ _ => F f
  | .reference .. | .binary .. => True

mutual

theorem keeps_evaluate (values : ∀ v, P (c.value v))
    (operators : ∀ (op : Operator) a b, P a → P b →
      Value.Keeps P (op.evaluate c.precision.bits a b)) :
    ∀ e : Expr, e.Everywhere (NodeHolds P (·.Keeps c P)) → Evaluation.Keeps c P e.evaluate
  | .constant v, holds => keeps_pure holds
  | .reference v name, _ => by
    intro s a s' ran
    cases ran
    exact values v
  | .binary op l r sealed, holds => by
    refine keeps_bind (keeps_evaluate values operators l holds.2.1) fun a ha => ?_
    refine keeps_bind (keeps_evaluate values operators r holds.2.2) fun b hb => ?_
    refine keeps_bind keeps_bits fun p same => ?_
    subst same
    exact keeps_ofExcept (operators op a b ha hb)
  | .call f name args, holds =>
    Function.keeps_call holds.1 (keep_evaluations values operators args holds.2)

theorem keep_evaluations (values : ∀ v, P (c.value v))
    (operators : ∀ (op : Operator) a b, P a → P b →
      Value.Keeps P (op.evaluate c.precision.bits a b)) :
    ∀ es : List Expr, AllEverywhere (NodeHolds P (·.Keeps c P)) es →
      ∀ m ∈ evaluations es, Evaluation.Keeps c P m
  | [], _ => by
    intro m member
    cases member
  | e :: es, holds => by
    intro m member
    rcases List.mem_cons.mp member with rfl | member
    · exact keeps_evaluate values operators e holds.1
    · exact keep_evaluations values operators es holds.2 m member

end

end Kinds

end Expr

end Formula
