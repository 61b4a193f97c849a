import Formula.Proofs.Function.Dependence
import Formula.Proofs.Function.Reals
import Formula.Proofs.Value.Precision

/-! Which functions may leave precise numbers. A function of which one argument is precise has a
precise value, but for those that give one of their arguments. -/
namespace Formula

open Evaluation (Gives gives_pure gives_bits gives_bind)
open Value (Meets IsNumber IsPreciseOrInvalid)

variable {c : Circumstances} {m : Evaluation Value} {args : List (Evaluation Value)}
  {plain plain' : Bool}

def Evaluation.Meets (c : Circumstances) (plain : Bool) (m : Evaluation Value) : Prop :=
  Gives c (Value.Meets plain) False m

theorem Evaluation.Meets.mono (h : m.Meets c plain) (weaker : plain' = false → plain = false) :
    m.Meets c plain' := by
  intro s
  have here := h s
  cases ran : m c s with
  | ok v s' =>
    rw [ran] at here
    exact Value.Meets.mono here weaker
  | error f s' =>
    rw [ran] at here
    exact here

theorem Evaluation.meets_ofExcept {r : Except Fault Value} (h : ∃ v, r = .ok v ∧ v.Meets plain) :
    (ofExcept r).Meets c plain := by
  obtain ⟨v, rfl, hv⟩ := h
  exact gives_pure hv

theorem Evaluation.meets_valid {f : Value → Evaluation Value} (asked : m.Meets c plain)
    (rest : ∀ v, v.Meets plain → v.isNaN? = .ok false → (f v).Meets c plain') :
    Evaluation.Meets c plain' (do
      let v ← m
      if ← ofExcept v.isNaN? then return v
      f v) := by
  refine gives_bind asked fun v _ _ _ hv => ?_
  obtain ⟨nan, isNaN⟩ := Value.isNaN?_number hv.1
  rw [isNaN]
  refine gives_bind (gives_pure (P := (· = nan)) rfl) fun _ _ _ _ is => ?_
  rw [is]
  cases nan with
  | true => exact gives_pure (hv.1.meets isNaN plain')
  | false => exact rest v hv isNaN

theorem Plan.meets_askValid {i : Nat} {next : Value → Plan} (given : args[i]? = some m)
    (asked : m.Meets c plain)
    (rest : ∀ v, v.Meets plain → v.isNaN? = .ok false → ((next v).run args).Meets c plain') :
    ((askValid i next).run args).Meets c plain' := by
  unfold Evaluation.Meets
  rw [run_askValid given]
  refine gives_bind asked fun v _ _ _ hv => ?_
  obtain ⟨nan, isNaN⟩ := Value.isNaN?_number hv.1
  rw [isNaN]
  cases nan with
  | true => exact gives_pure (hv.1.meets isNaN plain')
  | false => exact rest v hv isNaN

namespace Function

/-- How many arguments come before those of which one is the value, for functions that give an
argument. -/
def choosers : List (String × Nat) := [("min", 0), ("max", 0), ("if", 1)]

/-- Whether the value may be plain, if the arguments may be or not. -/
def mayBePlain (f : Function) (plain : List Bool) : Bool :=
  match choosers.lookup f.name with
  | some n => (plain.drop n).any id
  | none => plain.all id

/-- A function of which the value is a number, and precise unless it may be plain. -/
def IsPrecise (c : Circumstances) (f : Function) : Prop :=
  ∀ (plain : List Bool) (args : List (Evaluation Value)), f.accepts args.length →
    List.Forall₂ (Evaluation.Meets c) plain args → (f.call args).Meets c (f.mayBePlain plain)

theorem isPrecise_of_one {f : Function} (arity : f.arity = some 1)
    (h : ∀ plain m, m.Meets c plain → (f.call [m]).Meets c (f.mayBePlain [plain])) :
    f.IsPrecise c := by
  intro plains args accepted meets
  have one : args.length = 1 := by
    rw [accepts, arity] at accepted
    exact (beq_iff_eq.mp accepted).symm
  obtain ⟨m, rfl⟩ := List.length_eq_one_iff.mp one
  obtain ⟨plain, _, asked, empty, rfl⟩ := List.forall₂_cons_right_iff.mp meets
  obtain rfl := List.forall₂_nil_right_iff.mp empty
  exact h plain m asked

theorem isPrecise_unary {name : String} (computes : choosers.lookup name = none)
    (rule : UnaryRule) : (unary name rule).IsPrecise c := by
  apply isPrecise_of_one rfl
  intro plain m asked
  have same : (unary name rule).mayBePlain [plain] = plain := by simp [mayBePlain, unary, computes]
  rw [same]
  refine gives_bind gives_bits fun p _ _ _ _ => ?_
  refine Plan.meets_askValid rfl asked fun a ha valid =>
    gives_pure ⟨Value.apply_number rule ha.1, ?_⟩
  rintro rfl
  exact Value.apply_precise rule (ha.isPrecise valid)

theorem isPrecise_binary {name : String} {rule : BinaryRule}
    (h : ∀ (p : Nat) (a b : Value) (x y : Bool), a.Meets x → b.Meets y → a.isNaN? = .ok false →
      b.isNaN? = .ok false →
      ∃ v, a.apply₂ p rule b = .ok v ∧ v.Meets ((binary name rule).mayBePlain [x, y])) :
    (binary name rule).IsPrecise c := by
  intro plains args accepted meets
  have two : args.length = 2 := (beq_iff_eq.mp accepted).symm
  obtain ⟨m, m', rfl⟩ := List.length_eq_two.mp two
  obtain ⟨x, _, asked, rest, rfl⟩ := List.forall₂_cons_right_iff.mp meets
  obtain ⟨y, _, asked', empty, rfl⟩ := List.forall₂_cons_right_iff.mp rest
  obtain rfl := List.forall₂_nil_right_iff.mp empty
  refine gives_bind gives_bits fun p _ _ _ _ => ?_
  refine Plan.meets_askValid rfl asked fun a ha valid => ?_
  refine Plan.meets_askValid rfl asked' fun b hb valid' => ?_
  exact Evaluation.meets_ofExcept (h p a b x y ha hb valid valid')

/-- A function that computes with both arguments: one of them that is precise suffices. -/
theorem isPrecise_computed {name : String} {rule : BinaryRule}
    (computes : choosers.lookup name = none)
    (number : ∀ (p : Nat) (a b : Value), a.IsNumber → b.IsNumber → GivesNumber (a.apply₂ p rule b))
    (precise : ∀ p a b, Value.Keeps IsPreciseOrInvalid (rule.precise p a b)) :
    (binary name rule).IsPrecise c := by
  apply isPrecise_binary
  intro p a b x y ha hb valid valid'
  have same : (binary name rule).mayBePlain [x, y] = (x && y) := by
    simp [mayBePlain, binary, computes]
  rw [same]
  apply Value.meets_of_keeps (number p a b ha.1 hb.1)
  intro must
  apply Value.apply₂_precise _ (precise p a b)
  rcases Bool.and_eq_false_iff.mp must with rfl | rfl
  · rw [ha.isPrecise valid, Bool.true_or]
  · rw [hb.isPrecise valid', Bool.or_true]

theorem isPrecise_chosen {name : String} {rule : BinaryRule}
    (chooses : choosers.lookup name = some 0)
    (number : ∀ (p : Nat) (a b : Value), a.IsNumber → b.IsNumber → GivesNumber (a.apply₂ p rule b))
    (precise : ∀ p a b, IsPreciseOrInvalid a → IsPreciseOrInvalid b →
      Value.Keeps IsPreciseOrInvalid (rule.precise p a b)) : (binary name rule).IsPrecise c := by
  apply isPrecise_binary
  intro p a b x y ha hb valid valid'
  have same : (binary name rule).mayBePlain [x, y] = (x || y) := by
    simp [mayBePlain, binary, chooses]
  rw [same]
  apply Value.meets_of_keeps (number p a b ha.1 hb.1)
  intro must
  obtain ⟨rfl, rfl⟩ := Bool.or_eq_false_iff.mp must
  apply Value.apply₂_precise _ (precise p a b (ha.2 rfl) (hb.2 rfl))
  rw [ha.isPrecise valid, Bool.true_or]

theorem isPrecise_choice : choice.IsPrecise c := by
  intro plains args accepted meets
  have three : args.length = 3 := (beq_iff_eq.mp accepted).symm
  obtain ⟨m, m', m'', rfl⟩ := List.length_eq_three.mp three
  obtain ⟨x, _, asked, rest, rfl⟩ := List.forall₂_cons_right_iff.mp meets
  obtain ⟨y, _, first, others, rfl⟩ := List.forall₂_cons_right_iff.mp rest
  obtain ⟨z, _, second, empty, rfl⟩ := List.forall₂_cons_right_iff.mp others
  obtain rfl := List.forall₂_nil_right_iff.mp empty
  have chooses : choosers.lookup choice.name = some 1 := by decide
  have same : choice.mayBePlain [x, y, z] = (y || z) := by simp [mayBePlain, chooses]
  rw [same]
  refine Evaluation.meets_valid asked fun v hv _ => gives_bind gives_bits fun p _ _ _ _ => ?_
  obtain ⟨nonzero, decided⟩ := Value.isNonzero_number (p := p) hv.1
  rw [decided]
  refine gives_bind (gives_pure (P := (· = nonzero)) rfl) fun _ _ _ _ is => ?_
  rw [is]
  cases nonzero with
  | true => exact first.mono fun must => (Bool.or_eq_false_iff.mp must).1
  | false => exact second.mono fun must => (Bool.or_eq_false_iff.mp must).2

theorem isPrecise_random : random.IsPrecise c := by
  apply isPrecise_of_one rfl
  intro plain m asked
  have computes : choosers.lookup random.name = none := by decide
  have same : random.mayBePlain [plain] = plain := by simp [mayBePlain, computes]
  rw [same]
  refine Evaluation.meets_valid asked fun v hv valid => gives_bind gives_bits fun p _ _ _ _ => ?_
  have drawn : Gives c (fun _ => True) False Evaluation.random := fun _ => trivial
  refine gives_bind drawn fun r _ _ _ _ => gives_pure ⟨Value.apply_number _ hv.1, ?_⟩
  rintro rfl
  exact Value.apply_precise _ (hv.isPrecise valid)

theorem isPrecise_builtin : ∀ f ∈ builtin, f.IsPrecise c := by
  simp (disch := decide) only [builtin, List.forall_mem_cons, isPrecise_unary, isPrecise_choice,
    isPrecise_random, true_and, List.not_mem_nil, false_implies, implies_true, and_true]
  constructor
  · apply isPrecise_computed (by decide) _ Value.preciseAngle_precise
    exact fun p a b ha hb => Value.apply₂_number ha hb
      (Value.givesReal_of_number (Value.preciseAngle_number ha hb))
  · constructor
    · apply isPrecise_computed (by decide) _ Value.precisePower_precise
      exact fun p a b ha hb => Value.apply₂_number ha hb (Value.precisePower_number ha hb)
    · constructor
      · apply isPrecise_chosen (by decide) _ fun p a b ha hb => Value.least_precise ha hb
        exact fun p a b ha hb => Value.apply₂_number ha hb
          (Value.givesReal_of_number (Value.least_number ha hb))
      · apply isPrecise_chosen (by decide) _ fun p a b ha hb => Value.greatest_precise ha hb
        exact fun p a b ha hb => Value.apply₂_number ha hb
          (Value.givesReal_of_number (Value.greatest_number ha hb))

theorem mayBePlain_replicate {f : Function} (builtin : f ∈ builtin) {n : Nat}
    (accepted : f.accepts n) :
    f.mayBePlain (List.replicate n plain) = plain := by
  have all : ∀ f ∈ Function.builtin, ∃ n, f.arity = some n ∧
      ∀ plain, f.mayBePlain (List.replicate n plain) = plain := by
    decide +kernel
  obtain ⟨m, arity, same⟩ := all f builtin
  obtain rfl : m = n := by simpa [accepts, arity] using accepted
  exact same plain

theorem meets_pure {vs : List Value} (meets : ∀ v ∈ vs, v.Meets plain) :
    List.Forall₂ (Evaluation.Meets c) (List.replicate vs.length plain) (vs.map pure) := by
  induction vs with
  | nil => exact .nil
  | cons v vs ih =>
    obtain ⟨first, others⟩ := List.forall_mem_cons.mp meets
    exact .cons (gives_pure first) (ih others)

theorem decide_meets {f : Function} (builtin : f ∈ builtin) {plan : Nat → Nat → Plan}
    (natural : f.behaviour = .natural plan) {vs : List Value} (accepted : f.accepts vs.length)
    (meets : ∀ v ∈ vs, v.Meets plain) (p : Nat) :
    Value.Keeps (Value.Meets plain) ((plan p vs.length).decide vs) := by
  intro v same
  let c : Circumstances := ⟨⟨p, 0⟩, fun _ => .invalid⟩
  have counted : f.accepts (vs.map (pure : Value → Evaluation Value)).length := by
    rwa [List.length_map]
  have called := isPrecise_builtin f builtin _ _ counted (meets_pure (c := c) meets) {}
  have ran : f.call (vs.map pure) c {} = .ok v {} := by
    simp only [call, natural, List.length_map, Plan.run_pure]
    change Evaluation.ofExcept ((plan p vs.length).decide vs) c {} = .ok v {}
    rw [same]
    rfl
  rw [ran, mayBePlain_replicate builtin accepted] at called
  exact called

end Function

end Formula
