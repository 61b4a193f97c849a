import Formula.Proofs.Expr.Evaluation
import Formula.Proofs.Function.Reals

/-! Expressions of real numbers. The evaluation of an expression gives a real number, whatever real
numbers its constants and variables are, unless an argument of a call is an integer too large to be
tested. -/
namespace Formula.Expr

open Number
open Evaluation (Gives gives_pure gives_bits gives_bind)
open Value (IsReal IsHuge)

variable {c : Circumstances} {X : Prop}

/-- A node that is a real number or stands for one, an operation, or a call of a function that is
there from the start with as many arguments as it takes. -/
def IsRealNode (c : Circumstances) : Expr → Prop
  | .constant v => v.IsReal
  | .reference v _ => (c.value v).IsReal
  | .binary .. => True
  | .call f _ args => f ∈ Function.builtin ∧ f.accepts args.length

/-- A call that tests an argument of which the value may be a huge integer. -/
def TestsHuge (c : Circumstances) : Expr → Prop
  | .call f _ args => ∃ a ∈ f.tested args, ∃ s v s', a.evaluate c s = .ok v s' ∧ v.IsHuge
  | _ => False

theorem tested_evaluations (f : Function) (args : List Expr) :
    f.tested (evaluations args) = (f.tested args).map evaluate := by
  rw [evaluations_eq_map]
  unfold Function.tested
  split
  · rfl
  · exact List.map_take.symm

mutual

theorem gives_evaluate :
    ∀ e : Expr, e.Everywhere (IsRealNode c) → e.Everywhere (TestsHuge c · → X) →
    Gives c IsReal X e.evaluate
  | .constant v, real, _ => gives_pure real
  | .reference v name, real, _ => fun _ => real
  | .binary op l r sealed, real, excused => by
    refine gives_bind (gives_evaluate l real.2.1 excused.2.1) fun a _ _ _ ha => ?_
    refine gives_bind (gives_evaluate r real.2.2 excused.2.2) fun b _ _ _ hb => ?_
    refine gives_bind gives_bits fun p _ _ _ _ => ?_
    obtain ⟨v, same, hv⟩ := op.evaluate_real ha hb
    rw [same]
    exact gives_pure hv
  | .call f name args, real, excused => by
    obtain ⟨builtin, accepted⟩ := real.here
    have counted : f.accepts (evaluations args).length := by
      rw [evaluations_eq_map, List.length_map]
      exact accepted
    apply Function.takesReals_builtin f builtin _ X counted (give_evaluations args real.2 excused.2)
    intro m tested s v s' ran huge
    rw [tested_evaluations] at tested
    obtain ⟨a, listed, rfl⟩ := List.mem_map.mp tested
    exact excused.here ⟨a, listed, s, v, s', ran, huge⟩

theorem give_evaluations : ∀ es : List Expr, AllEverywhere (IsRealNode c) es →
    AllEverywhere (TestsHuge c · → X) es → ∀ m ∈ evaluations es, Gives c IsReal X m
  | [], _, _ => by
    intro m member
    cases member
  | e :: es, real, excused => by
    intro m member
    rcases List.mem_cons.mp member with rfl | member
    · exact gives_evaluate e real.1 excused.1
    · exact give_evaluations es real.2 excused.2 m member

end

/-- An expression of real numbers has a real number as its value. The only fault is an overflow,
where a call tests a huge integer. -/
theorem evaluate_outcome {e : Expr} (real : e.Everywhere (IsRealNode c)) (s : Effects) :
    (∃ v s', e.evaluate c s = .ok v s' ∧ v.IsReal) ∨
      (∃ s', e.evaluate c s = .error .overflow s') ∧ ∃ x ∈ e.visits, TestsHuge c x.node := by
  have excused : e.Everywhere (TestsHuge c · → ∃ x ∈ e.visits, TestsHuge c x.node) := by
    apply everywhere_iff_visits.mpr
    intro x visited huge
    exact ⟨x, visited, huge⟩
  exact (gives_evaluate e real excused).outcome s

/-- Huge integers do no harm as operands, or in the branches of a choice. -/
theorem evaluate_outcome_choice :
    let huge : Expr := .constant (.integer (tenTo 400))
    let e : Expr := .call Function.choice "if"
      [.binary .divide huge (.reference 0 "x") false, huge, huge]
    let c : Circumstances := ⟨.standard, fun _ => .float (.zero false)⟩
    e.Everywhere (IsRealNode c) ∧
      ((∃ v s', e.evaluate c {} = .ok v s' ∧ v.IsReal) ∨
        (∃ s', e.evaluate c {} = .error .overflow s') ∧ ∃ x ∈ e.visits, TestsHuge c x.node) := by
  intro huge e c
  have operand : huge.Everywhere (IsRealNode c) := .integer _
  have builtin : Function.choice ∈ Function.builtin := by simp [Function.builtin]
  have real : e.Everywhere (IsRealNode c) :=
    ⟨⟨builtin, rfl⟩, ⟨trivial, operand, .float _⟩, operand, operand, trivial⟩
  exact ⟨real, evaluate_outcome real {}⟩

theorem evaluate_unary_huge {e : Expr} {s s' : Effects} {v : Value}
    (ran : e.evaluate c s = .ok v s') (huge : v.IsHuge) (rule : UnaryRule) (name : String) :
    (call (Function.unary name rule) name [e]).evaluate c s = .error .overflow s' :=
  Plan.askValid_huge rfl ran huge

theorem evaluate_huge_sine :
    let e : Expr := .call (Function.unary "sin" .sin) "sin" [.constant (.integer (tenTo 400))]
    let c : Circumstances := ⟨.standard, fun _ => .invalid⟩
    e.Everywhere (IsRealNode c) ∧ ¬ ∃ v s', e.evaluate c {} = .ok v s' ∧ v.IsReal := by
  intro e c
  have builtin : Function.unary "sin" .sin ∈ Function.builtin := List.mem_cons_self
  have large : Binary64.ofInt? (tenTo 400) = none := by decide +kernel
  have run : e.evaluate c {} = .error .overflow {} :=
    evaluate_unary_huge rfl ⟨_, rfl, large⟩ .sin "sin"
  refine ⟨⟨⟨builtin, rfl⟩, .integer _, trivial⟩, ?_⟩
  rintro ⟨v, s', ran, _⟩
  cases run.symm.trans ran

end Formula.Expr
