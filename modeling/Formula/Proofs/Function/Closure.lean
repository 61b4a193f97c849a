import Formula.Proofs.Function.Totality
import Formula.Proofs.Value.Kinds

/-! What functions keep. Where the arguments of a function are of some kind, so is its value: all
functions that are there from the start give plain numbers for plain numbers. -/
namespace Formula

namespace Evaluation

variable {α β : Type} {c : Circumstances} {P : α → Prop} {Q : β → Prop}

/-- Whatever the evaluation gives in the circumstances satisfies `P`. -/
def Keeps (c : Circumstances) (P : α → Prop) (m : Evaluation α) : Prop :=
  ∀ s a s', m c s = .ok a s' → P a

theorem keeps_pure {a : α} (h : P a) : Keeps c P (pure a) := by
  intro s b s' ran
  cases ran
  exact h

theorem keeps_throw (f : Fault) : Keeps c P (throw f : Evaluation α) := by
  intro s a s' ran
  cases ran

theorem bind_of_ok {m : Evaluation α} {s s' : Effects} {a : α} (h : m c s = .ok a s')
    (f : α → Evaluation β) : (m >>= f) c s = f a c s' := by
  have unfolded : (m >>= f) c s = EStateM.bind (m c) (fun a => f a c) s := rfl
  rw [unfolded, EStateM.bind, h]

theorem bind_of_error {m : Evaluation α} {s s' : Effects} {e : Fault} (h : m c s = .error e s')
    (f : α → Evaluation β) : (m >>= f) c s = .error e s' := by
  have unfolded : (m >>= f) c s = EStateM.bind (m c) (fun a => f a c) s := rfl
  rw [unfolded, EStateM.bind, h]

theorem keeps_bind {m : Evaluation α} {f : α → Evaluation β} (h : Keeps c P m)
    (next : ∀ a, P a → Keeps c Q (f a)) : Keeps c Q (m >>= f) := by
  intro s b s' ran
  cases first : m c s with
  | error e s₁ =>
    rw [bind_of_error first] at ran
    cases ran
  | ok a s₁ =>
    rw [bind_of_ok first] at ran
    exact next a (h s a s₁ first) s₁ b s' ran

theorem keeps_true (m : Evaluation α) : Keeps c (fun _ => True) m := fun _ _ _ _ => trivial

theorem keeps_ofExcept {r : Except Fault α} (h : Value.Keeps P r) : Keeps c P (ofExcept r) := by
  cases r with
  | error f => exact keeps_throw f
  | ok a => exact keeps_pure (h a rfl)

theorem keeps_bits : Keeps c (· = c.precision.bits) bits := by
  intro s n s' ran
  cases ran
  rfl

end Evaluation

open Evaluation (Keeps keeps_pure keeps_throw keeps_bind keeps_ofExcept keeps_bits keeps_true)

variable {c : Circumstances} {P : Value → Prop}

/-- Whatever the plan answers satisfies `P`, if the arguments that it asks for do. -/
def Plan.Keeps (P : Value → Prop) : Plan → Prop
  | .answer r => Value.Keeps P r
  | .ask _ next => ∀ v, P v → (next v).Keeps P

theorem Plan.keeps_askValid {index : Nat} {next : Value → Plan} (h : ∀ v, P v → (next v).Keeps P) :
    (askValid index next).Keeps P := by
  intro v holds
  dsimp only
  cases v.isNaN? with
  | error f => exact Value.keeps_error f
  | ok invalid =>
    cases invalid with
    | true => exact Value.keeps_ok holds
    | false => exact h v holds

theorem Evaluation.keeps_getD {args : List (Evaluation Value)}
    (h : ∀ a ∈ args, Keeps c P a) (i : Nat) :
    Keeps c P (args.getD i (throw .missingArgument)) := by
  rw [List.getD_eq_getElem?_getD]
  cases given : args[i]? with
  | none => exact keeps_throw .missingArgument
  | some a => exact h a (List.mem_of_getElem? given)

theorem Plan.keeps_run {args : List (Evaluation Value)} (h : ∀ a ∈ args, Evaluation.Keeps c P a)
    (plan : Plan) (keeps : plan.Keeps P) : Evaluation.Keeps c P (plan.run args) := by
  induction plan with
  | answer r => exact keeps_ofExcept keeps
  | ask i next ih =>
    exact keeps_bind (Evaluation.keeps_getD h i) fun v holds => ih v (keeps v holds)

def Function.Keeps (c : Circumstances) (P : Value → Prop) (f : Function) : Prop :=
  (∀ plan, f.behaviour = .natural plan → ∀ count, (plan c.precision.bits count).Keeps P) ∧
    ∀ run, f.behaviour = .active run → ∀ args, (∀ a ∈ args, Evaluation.Keeps c P a) →
      Evaluation.Keeps c P (run args)

theorem Function.keeps_call {f : Function} (keeps : f.Keeps c P) {args : List (Evaluation Value)}
    (h : ∀ a ∈ args, Evaluation.Keeps c P a) : Evaluation.Keeps c P (f.call args) := by
  unfold call
  split
  · rename_i plan natural
    refine keeps_bind keeps_bits fun p same => ?_
    subst same
    exact Plan.keeps_run h _ (keeps.1 plan natural _)
  · rename_i run active
    exact keeps.2 run active args h

namespace Function

open Value (IsPlain)

theorem keeps_unary (name : String) (rule : UnaryRule) : (unary name rule).Keeps c IsPlain := by
  constructor
  · rintro _ ⟨⟩ count
    exact Plan.keeps_askValid fun a plain => Value.keeps_ok (Value.apply_plain rule plain)
  · rintro _ ⟨⟩

theorem keeps_binary (name : String) (rule : BinaryRule) : (binary name rule).Keeps c IsPlain := by
  constructor
  · rintro _ ⟨⟩ count
    refine Plan.keeps_askValid fun a plain => Plan.keeps_askValid fun b plain' => ?_
    exact Value.apply₂_plain rule plain plain'
  · rintro _ ⟨⟩

theorem keeps_choice : choice.Keeps c P := by
  constructor
  · rintro _ ⟨⟩
  · rintro _ ⟨⟩ args h
    refine keeps_bind (Evaluation.keeps_getD h 0) fun v holds =>
      keeps_bind (keeps_true _) fun nan _ => ?_
    split
    · exact keeps_pure holds
    · refine keeps_bind (keeps_true _) fun p _ => keeps_bind (keeps_true _) fun chosen _ => ?_
      split
      · exact Evaluation.keeps_getD h 1
      · exact Evaluation.keeps_getD h 2

theorem keeps_random : random.Keeps c IsPlain := by
  constructor
  · rintro _ ⟨⟩
  · rintro _ ⟨⟩ args h
    refine keeps_bind (Evaluation.keeps_getD h 0) fun v plain =>
      keeps_bind (keeps_true _) fun nan _ => ?_
    split
    · exact keeps_pure plain
    · refine keeps_bind (keeps_true _) fun p _ => keeps_bind (keeps_true _) fun r _ => ?_
      exact keeps_pure (Value.apply_plain _ plain)

theorem keeps_builtin : ∀ f ∈ builtin, f.Keeps c IsPlain := by
  simp only [builtin, List.forall_mem_cons, keeps_unary, keeps_binary, keeps_choice, keeps_random,
    true_and, List.not_mem_nil, false_implies, implies_true]

end Function

def Registry.Keeps (c : Circumstances) (P : Value → Prop) (r : Registry) : Prop :=
  ∀ name f, r.get? name = some f → f.Keeps c P

theorem Registry.keeps_builtin (c : Circumstances) : Registry.builtin.Keeps c Value.IsPlain := by
  intro name f found
  obtain ⟨g, member, same⟩ := List.mem_map.mp (mem_of_lookup found)
  exact (Prod.mk.inj same).2 ▸ Function.keeps_builtin g member

end Formula
