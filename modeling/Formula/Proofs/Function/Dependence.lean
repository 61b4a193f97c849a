import Mathlib.Data.List.Forall2
import Formula.Function.Further
import Formula.Function.Registry
import Formula.Proofs.Entries

/-! What functions depend on. Evaluations may be the same in some circumstances only. A function
that goes by the evaluations of its arguments does not tell such evaluations apart: all functions
that are there from the start are of this kind, and natural functions cannot be otherwise. -/
namespace Formula

variable {α β : Type} {K : Circumstances → Prop}

namespace Evaluation

/-- Two evaluations that are the same in some circumstances, effects and faults included. -/
def SameWhere (K : Circumstances → Prop) (m m' : Evaluation α) : Prop := ∀ c, K c → m c = m' c

theorem SameWhere.refl (K : Circumstances → Prop) (m : Evaluation α) :
    SameWhere K m m := fun _ _ => rfl

theorem SameWhere.bind {m m' : Evaluation α} {f f' : α → Evaluation β} (first : SameWhere K m m')
    (next : ∀ a, SameWhere K (f a) (f' a)) : SameWhere K (m >>= f) (m' >>= f') := by
  intro c covered
  change EStateM.bind (m c) (fun a => f a c) = EStateM.bind (m' c) (fun a => f' a c)
  have later : (fun a => f a c) = fun a => f' a c := funext fun a => next a c covered
  rw [first c covered, later]

theorem SameWhere.getD {args args' : List (Evaluation α)}
    (same : List.Forall₂ (SameWhere K) args args')
    (i : Nat) (default : Evaluation α) :
    SameWhere K (args.getD i default) (args'.getD i default) := by
  induction same generalizing i with
  | nil => exact .refl K _
  | cons first _ ih =>
    cases i with
    | zero => exact first
    | succ i => exact ih i

end Evaluation

open Evaluation (SameWhere)

theorem Plan.run_sameWhere {args args' : List (Evaluation Value)}
    (same : List.Forall₂ (SameWhere K) args args') (plan : Plan) :
    SameWhere K (plan.run args) (plan.run args') := by
  induction plan with
  | answer r => exact .refl K _
  | ask i next ih => exact .bind (.getD same i _) ih

/-- Where all arguments that a plan may ask for have values, it comes to the answer that it gives
for these values. -/
theorem Plan.run_pure (vs : List Value) (plan : Plan) :
    plan.run (vs.map Pure.pure) = .ofExcept (plan.decide vs) := by
  induction plan with
  | answer r => rfl
  | ask i next ih =>
    simp only [run, decide, List.getD_eq_getElem?_getD, List.getElem?_map]
    cases vs[i]? with
    | none => rfl
    | some v => exact ih v

namespace Function

/-- A function that goes by its arguments: where they evaluate in the same way, so does the call. -/
def Respects (K : Circumstances → Prop) (f : Function) : Prop :=
  ∀ run, f.behaviour = .active run → ∀ args args', List.Forall₂ (SameWhere K) args args' →
    SameWhere K (run args) (run args')

theorem call_sameWhere {f : Function} (respects : f.Respects K)
    {args args' : List (Evaluation Value)}
    (same : List.Forall₂ (SameWhere K) args args') : SameWhere K (f.call args) (f.call args') := by
  unfold call
  split
  · rename_i plan natural
    rw [same.length_eq]
    exact .bind (.refl K _) fun p => Plan.run_sameWhere same (plan p args'.length)
  · rename_i run active
    exact respects run active args args' same

theorem respects_of_natural {f : Function} (natural : f.isNatural) : f.Respects K := by
  intro run active
  simp [isNatural, active] at natural

theorem respects_choice : choice.Respects K := by
  rintro _ ⟨⟩ args args' same
  refine .bind (.getD same 0 _) fun condition => .bind (.refl K _) fun nan => ?_
  split
  · exact .refl K _
  · refine .bind (.refl K _) fun p => .bind (.refl K _) fun chosen => ?_
    split
    · exact .getD same 1 _
    · exact .getD same 2 _

theorem respects_random : random.Respects K := by
  rintro _ ⟨⟩ args args' same
  exact .bind (.getD same 0 _) fun bound => .refl K _

theorem respects_counter (number : Nat) (name : String) : (counter number name).Respects K := by
  rintro _ ⟨⟩ args args' same
  exact .refl K _

theorem respects_builtin : ∀ f ∈ builtin, f.Respects K := by
  have unary (name : String) (rule : UnaryRule) : (unary name rule).Respects K :=
    respects_of_natural rfl
  have binary (name : String) (rule : BinaryRule) : (binary name rule).Respects K :=
    respects_of_natural rfl
  simp only [builtin, List.forall_mem_cons, unary, binary, respects_choice,
    respects_random, true_and, List.not_mem_nil, false_implies, implies_true]

end Function

theorem Registry.respects_builtin {name : String} {f : Function}
    (found : Registry.builtin.get? name = some f) :
    f.Respects K := by
  obtain ⟨g, member, same⟩ := List.mem_map.mp (mem_of_lookup found)
  exact (Prod.mk.inj same).2 ▸ Function.respects_builtin g member

end Formula
