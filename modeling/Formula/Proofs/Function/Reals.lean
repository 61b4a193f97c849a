import Mathlib.Data.List.Basic
import Formula.Proofs.Function.Closure
import Formula.Proofs.Value.Reals

/-! Functions of real numbers. Before a function computes anything it asks whether an argument is
the invalid number, and an integer may be too large to be asked. There is no other fault in the
functions that are there from the start. -/
namespace Formula

namespace Evaluation

variable {α β : Type} {c : Circumstances} {P : α → Prop} {Q : β → Prop} {X : Prop}
  {m : Evaluation α}

/-- The evaluation gives a value that satisfies `P`, or else it overflows, for which there is the
reason `X`. -/
def Gives (c : Circumstances) (P : α → Prop) (X : Prop) (m : Evaluation α) : Prop :=
  ∀ s, match m c s with
    | .ok a _ => P a
    | .error f _ => f = .overflow ∧ X

theorem gives_pure {a : α} (h : P a) : Gives c P X (pure a) := fun _ => h

theorem gives_bits : Gives c (fun _ => True) X bits := fun _ => trivial

theorem gives_overflow (h : X) : Gives c P X (throw .overflow) := fun _ => ⟨rfl, h⟩

theorem gives_bind {f : α → Evaluation β} (h : Gives c P X m)
    (next : ∀ a s s', m c s = .ok a s' → P a → Gives c Q X (f a)) : Gives c Q X (m >>= f) := by
  intro s
  have first := h s
  cases ran : m c s with
  | error e s₁ =>
    rw [ran] at first
    rw [bind_of_error ran]
    exact first
  | ok a s₁ =>
    rw [ran] at first
    rw [bind_of_ok ran]
    exact next a s s₁ ran first s₁

theorem Gives.outcome (h : Gives c P X m) (s : Effects) :
    (∃ a s', m c s = .ok a s' ∧ P a) ∨ (∃ s', m c s = .error .overflow s') ∧ X := by
  have here := h s
  cases ran : m c s with
  | ok a s' =>
    rw [ran] at here
    exact .inl ⟨a, s', rfl, here⟩
  | error f s' =>
    rw [ran] at here
    obtain ⟨rfl, reason⟩ := here
    exact .inr ⟨⟨s', rfl⟩, reason⟩

end Evaluation

open Evaluation (Gives gives_pure gives_bits gives_overflow gives_bind)
open Value (IsReal IsHuge)

variable {c : Circumstances} {X : Prop}

theorem Evaluation.gives_isNaN? {v : Value} (real : v.IsReal) (huge : v.IsHuge → X) :
    Gives c (fun _ => True) X (.ofExcept v.isNaN?) := by
  rcases Value.isNaN?_real real with ⟨nan, same⟩ | ⟨isHuge, same⟩ <;> rw [same]
  · exact gives_pure trivial
  · exact gives_overflow (huge isHuge)

def Evaluation.NeverHuge (c : Circumstances) (X : Prop) (m : Evaluation Value) : Prop :=
  ∀ s v s', m c s = .ok v s' → v.IsHuge → X

open Evaluation (NeverHuge)

namespace Plan

variable {i : Nat} {next : Value → Plan} {args : List (Evaluation Value)} {m : Evaluation Value}

theorem run_askValid (given : args[i]? = some m) :
    (askValid i next).run args = m >>= fun v => Plan.run args (match v.isNaN? with
      | .error f => .answer (.error f)
      | .ok true => .answer (.ok v)
      | .ok false => next v) := by
  have here : args.getD i (throw .missingArgument) = m := by
    rw [List.getD_eq_getElem?_getD, given]
    rfl
  exact congrArg (· >>= _) here

theorem gives_askValid (given : args[i]? = some m) (real : Gives c IsReal X m)
    (small : NeverHuge c X m) (rest : ∀ v, v.IsReal → Gives c IsReal X ((next v).run args)) :
    Gives c IsReal X ((askValid i next).run args) := by
  rw [run_askValid given]
  refine gives_bind real fun v s s' ran hv => ?_
  rcases Value.isNaN?_real hv with ⟨nan, same⟩ | ⟨isHuge, same⟩ <;> rw [same]
  · cases nan with
    | true => exact gives_pure hv
    | false => exact rest v hv
  · exact gives_overflow (small s v s' ran isHuge)

theorem askValid_huge {s s' : Effects} {v : Value} (given : args[i]? = some m)
    (ran : m c s = .ok v s')
    (huge : v.IsHuge) : (askValid i next).run args c s = .error .overflow s' := by
  obtain ⟨n, rfl, large⟩ := huge
  have fault : (Value.integer n).isNaN? = .error .overflow := by simp [Value.isNaN?, large]
  rw [run_askValid given, Evaluation.bind_of_ok ran, fault]
  rfl

end Plan

namespace Function

/-- The arguments that are asked whether they are the invalid number: all of those of a natural
function, and the first one of the others. -/
def tested {α : Type} (f : Function) (args : List α) : List α :=
  if f.isNatural then args else args.take 1

/-- The function takes real numbers to real numbers, where the arguments that are asked fit. -/
def TakesReals (c : Circumstances) (f : Function) : Prop :=
  ∀ (args : List (Evaluation Value)) (X : Prop), f.accepts args.length →
    (∀ m ∈ args, Gives c IsReal X m) →
    (∀ m ∈ f.tested args, NeverHuge c X m) → Gives c IsReal X (f.call args)

theorem takesReals_unary (name : String) (rule : UnaryRule) : (unary name rule).TakesReals c := by
  intro args X accepted reals small
  have one : args.length = 1 := (beq_iff_eq.mp accepted).symm
  obtain ⟨m, rfl⟩ := List.length_eq_one_iff.mp one
  refine gives_bind gives_bits fun p _ _ _ _ => ?_
  apply Plan.gives_askValid rfl (reals m List.mem_cons_self) (small m List.mem_cons_self)
  intro v hv
  exact gives_pure (Value.apply_real rule hv)

theorem takesReals_binary (name : String) {rule : BinaryRule}
    (precise : ∀ (p : Nat) (a b : Value), a.IsReal → b.IsReal →
      Value.Tame (·.realOrInvalid.IsReal) (rule.precise p a b)) :
    (binary name rule).TakesReals c := by
  intro args X accepted reals small
  have two : args.length = 2 := (beq_iff_eq.mp accepted).symm
  obtain ⟨m, m', rfl⟩ := List.length_eq_two.mp two
  have second : m' ∈ [m, m'] := List.mem_cons_of_mem m List.mem_cons_self
  refine gives_bind gives_bits fun p _ _ _ _ => ?_
  apply Plan.gives_askValid rfl (reals m List.mem_cons_self) (small m List.mem_cons_self)
  intro a ha
  apply Plan.gives_askValid rfl (reals m' second) (small m' second)
  intro b hb
  obtain ⟨v, same, hv⟩ := Value.apply₂_real (precise p a b ha hb)
  rw [Plan.run, same]
  exact gives_pure hv

theorem takesReals_choice : choice.TakesReals c := by
  intro args X accepted reals small
  have three : args.length = 3 := (beq_iff_eq.mp accepted).symm
  obtain ⟨m, m', m'', rfl⟩ := List.length_eq_three.mp three
  refine gives_bind (reals m (by simp)) fun v s s' ran hv => ?_
  refine gives_bind (Evaluation.gives_isNaN? hv (small m List.mem_cons_self s v s' ran))
    fun nan _ _ _ _ => ?_
  split
  · exact gives_pure hv
  · refine gives_bind gives_bits fun p _ _ _ _ => ?_
    obtain ⟨nonzero, same⟩ := Value.isNonzero_real hv p
    rw [same]
    -- neither of the branches is tested, so they may be huge
    refine gives_bind (gives_pure (P := fun _ => True) trivial) fun _ _ _ _ _ => ?_
    split
    · exact reals m' (by simp)
    · exact reals m'' (by simp)

theorem takesReals_random : random.TakesReals c := by
  intro args X accepted reals small
  have one : args.length = 1 := (beq_iff_eq.mp accepted).symm
  obtain ⟨m, rfl⟩ := List.length_eq_one_iff.mp one
  refine gives_bind (reals m List.mem_cons_self) fun v s s' ran hv => ?_
  refine gives_bind (Evaluation.gives_isNaN? hv (small m List.mem_cons_self s v s' ran))
    fun nan _ _ _ _ => ?_
  split
  · exact gives_pure hv
  · refine gives_bind gives_bits fun p _ _ _ _ => ?_
    have drawn : Gives c (fun _ => True) X Evaluation.random := fun _ => trivial
    exact gives_bind drawn fun r _ _ _ _ => gives_pure (Value.apply_real _ hv)

theorem takesReals_builtin : ∀ f ∈ builtin, f.TakesReals c := by
  simp only [builtin, List.forall_mem_cons, takesReals_unary, takesReals_choice,
    takesReals_random, true_and, List.not_mem_nil, false_implies, implies_true, and_true]
  constructor
  · exact takesReals_binary _ fun _ _ _ ha hb =>
      Value.tame_realOrInvalid (Value.preciseAngle_tame ha hb)
  · constructor
    · exact takesReals_binary _ fun _ _ _ ha hb => Value.precisePower_tame ha hb
    · constructor
      · exact takesReals_binary _ fun _ _ _ ha hb =>
          Value.tame_realOrInvalid (Value.least_tame ha hb)
      · exact takesReals_binary _ fun _ _ _ ha hb =>
          Value.tame_realOrInvalid (Value.greatest_tame ha hb)

end Function

end Formula
