import Formula.Proofs.Expr.Keeping
import Formula.Proofs.Expr.Reals

/-! Real numbers before and after simplification. All parts of an expression of real numbers have
real numbers as their values, if they have any, and so have all parts of what simplification makes
of it. -/
namespace Formula

theorem Knowledge.covers_known (k : Knowledge) :
    k.Covers ⟨⟨k.bits, 0⟩, fun v => (k.fixed v).getD .invalid⟩ := by
  refine ⟨rfl, fun v a known => ?_⟩
  simp [known]

namespace Expr

open Value (IsReal)

variable {k : Knowledge} {c : Circumstances}

def IsKnownReal (k : Knowledge) : Expr → Prop
  | .reference v _ => ∀ a, k.fixed v = some a → a.IsReal
  | .constant _ | .binary .. | .call .. => True

/-- A node that is real, and stays so where a variable is replaced by what is known of it. -/
def StaysReal (k : Knowledge) (c : Circumstances) (e : Expr) : Prop :=
  e.IsRealNode c ∧ e.IsKnownReal k

theorem IsRealNode.staysReal (covered : k.Covers c) {e : Expr} (real : e.IsRealNode c) :
    e.StaysReal k c := by
  refine ⟨real, ?_⟩
  cases e with
  | reference v name => exact fun a known => covered.2 v a known ▸ real
  | constant | binary | call => trivial

theorem decide_real {f : Function} {plan : Nat → Nat → Plan} {vs : List Value} {v : Value}
    (builtin : f ∈ Function.builtin) (accepted : f.accepts vs.length)
    (natural : f.behaviour = .natural plan)
    (real : ∀ w ∈ vs, w.IsReal) (decided : (plan k.bits vs.length).decide vs = .ok v) :
    v.IsReal := by
  have covered := k.covers_known
  generalize (⟨⟨k.bits, 0⟩, fun v => (k.fixed v).getD .invalid⟩ : Circumstances) = c at covered
  have args : AllEverywhere (IsRealNode c) (vs.map .constant) := by
    refine allEverywhere_iff.mpr fun e member => ?_
    obtain ⟨w, listed, rfl⟩ := List.mem_map.mp member
    exact real w listed
  have call : (Expr.call f f.name (vs.map .constant)).Everywhere (IsRealNode c) :=
    ⟨⟨builtin, by rwa [List.length_map]⟩, args⟩
  have ran := congrFun (evaluate_natural natural vs f.name c covered) {}
  rw [decided] at ran
  obtain ⟨w, s', given, hw⟩ | ⟨⟨s', overflow⟩, -⟩ := evaluate_outcome call {}
  · cases given.symm.trans ran
    exact hw
  · cases overflow.symm.trans ran

/-- Whatever simplification computes from real numbers is real. -/
theorem staysWith_staysReal (k : Knowledge) (c : Circumstances) : StaysWith k (StaysReal k c) where
  known fixed real := ⟨real.2 _ fixed, trivial⟩
  operands _ _ _ _ := ⟨trivial, trivial⟩
  arguments es length real := ⟨⟨real.1.1, length ▸ real.1.2⟩, trivial⟩
  evaluated _ ha hb evaluated := by
    obtain ⟨v, same, real⟩ := Operator.evaluate_real ha.1 hb.1 _
    cases evaluated.symm.trans same
    exact ⟨real, trivial⟩
  decided call natural real decided := by
    refine ⟨decide_real call.1.1 ?_ natural (fun w member => (real w member).1) decided, trivial⟩
    exact List.length_map _ ▸ call.1.2

theorem real_of_visited {e : Expr} (real : e.Everywhere (IsRealNode c)) {x : Visit}
    (visited : x ∈ e.visits)
    {s s' : Effects} {v : Value} (ran : x.node.evaluate c s = .ok v s') : v.IsReal := by
  have part := everywhere_iff_visits.mp real.parts x visited
  obtain ⟨w, s₁, given, hw⟩ | ⟨⟨s₁, overflow⟩, -⟩ := evaluate_outcome part s
  · cases given.symm.trans ran
    exact hw
  · cases overflow.symm.trans ran

/-- In an expression of real numbers, no part ever has a value that is not real. That is so again
after the expression is simplified, also if a fault stops the simplification. -/
theorem evaluate_parts_real {e : Expr} (real : e.Everywhere (StaysReal k c)) :
    (∀ x ∈ e.visits, ∀ s v s', x.node.evaluate c s = .ok v s' → v.IsReal) ∧
      ∀ x ∈ (e.simplify k).expression.visits, ∀ s v s',
        x.node.evaluate c s = .ok v s' → v.IsReal := by
  have simplified := (everywhere_simplify (staysWith_staysReal k c) e real).expression
  constructor
  · intro x visited s v s' ran
    exact real_of_visited (real.mono fun _ => And.left) visited ran
  · intro x visited s v s' ran
    exact real_of_visited (simplified.mono fun _ => And.left) visited ran

/-- The root of a negative number that is known beforehand is the invalid number, and not
complex. -/
theorem evaluate_parts_real_root :
    let root : Expr := .call (.unary "sqrt" .sqrt) "sqrt" [.reference 1 "y"]
    let e : Expr := .binary .multiply (.reference 0 "x") root false
    let k : Knowledge := ⟨53, fun v => if v = 1 then some (.precise (.finite (-1))) else none⟩
    let c : Circumstances :=
      ⟨.standard, fun v => if v = 1 then .precise (.finite (-1)) else .constant .pi⟩
    e.Everywhere (StaysReal k c) ∧
      (e.simplify k).result =
        .ok (.binary .multiply (.constant .invalid) (.reference 0 "x") false) ∧
      (∀ x ∈ e.visits, ∀ s v s', x.node.evaluate c s = .ok v s' → v.IsReal) ∧
      ∀ x ∈ (e.simplify k).expression.visits, ∀ s v s',
        x.node.evaluate c s = .ok v s' → v.IsReal := by
  intro root e k c
  have builtin : Function.unary "sqrt" .sqrt ∈ Function.builtin := by simp [Function.builtin]
  have x : (Expr.reference 0 "x").Everywhere (StaysReal k c) := by
    refine ⟨.constant .pi, fun a known => ?_⟩
    cases known
  have y : (Expr.reference 1 "y").Everywhere (StaysReal k c) := by
    refine ⟨.precise _, fun a known => ?_⟩
    cases known
    exact .precise _
  have real : e.Everywhere (StaysReal k c) :=
    ⟨⟨trivial, trivial⟩, x, ⟨⟨builtin, rfl⟩, trivial⟩, y, trivial⟩
  -- The root is the imaginary unit, for which the invalid number stands.
  have unit : UnaryRule.sqrt.precise 53 (.finite (-1)) = some (.complex ⟨.zero, .one⟩) := by
    decide +kernel
  have invalid : Value.apply 53 .sqrt (.precise (.finite (-1))) = .invalid :=
    congrArg Value.ofOutcome unit
  have simplified : (e.simplify k).result =
      .ok (.binary .multiply (.constant .invalid) (.reference 0 "x") false) :=
    congrArg (fun v => Except.ok (Expr.binary .multiply (.constant v) (.reference 0 "x") false))
      invalid
  exact ⟨real, simplified, evaluate_parts_real real⟩

end Expr

end Formula
