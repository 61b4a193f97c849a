import Formula.Proofs.Expr.RealParts

/-! Where simplification fails. Evaluation takes the invalid number for the sum or product of an
integer too large for 53 binary digits and a number of 53 digits, but simplification, which combines
the constants of a chain by themselves, has nothing to put in their place. For expressions of real
numbers that can be evaluated, nothing else goes wrong. -/
namespace Formula

open Number

/-- There is a result if `G`, and an overflow otherwise. -/
def SucceedsIff {α : Type} (G : Prop) (r : Except Fault α) : Prop :=
  G ∧ (∃ a, r = .ok a) ∨ ¬ G ∧ r = .error .overflow

namespace SucceedsIff

variable {α β : Type} {G G' : Prop} {r : Except Fault α}

theorem congr (h : SucceedsIff G r) (same : G ↔ G') : SucceedsIff G' r := by
  rwa [SucceedsIff, ← same]

theorem bind (h : SucceedsIff G r) {f : α → Except Fault β}
    (next : ∀ a, r = .ok a → ∃ b, f a = .ok b) :
    SucceedsIff G (r >>= f) := by
  obtain ⟨good, a, rfl⟩ | ⟨bad, rfl⟩ := h
  · exact .inl ⟨good, next a rfl⟩
  · exact .inr ⟨bad, rfl⟩

theorem map (h : SucceedsIff G r) (f : α → β) : SucceedsIff G (r.map f) := by
  obtain ⟨good, a, rfl⟩ | ⟨bad, rfl⟩ := h
  · exact .inl ⟨good, _, rfl⟩
  · exact .inr ⟨bad, rfl⟩

end SucceedsIff

namespace Value

/-- An integer too large for 53 binary digits meets a number of 53 digits. -/
inductive Clash : Value → Value → Prop
  | left {n : Int} (large : Binary64.ofInt? n = none) (x : Binary64) : Clash (.integer n) (.float x)
  | right {n : Int} (x : Binary64) (large : Binary64.ofInt? n = none) :
      Clash (.float x) (.integer n)

variable {p : Nat} {a b : Value}

theorem plainFloat?_integer (n : Int) : (integer n).plainFloat? =
    match Binary64.ofInt? n with
    | some x => .ok x
    | none => .error .overflow := rfl

theorem meet?_float_integer (x : Binary64) (n : Int) :
    meet? p (.float x) (.integer n) = (integer n).plainFloat? >>= fun y => .ok (.floats x y) := rfl

theorem meet?_integer_float (n : Int) (y : Binary64) :
    meet? p (.integer n) (.float y) = (integer n).plainFloat? >>= fun x => .ok (.floats x y) := rfl

theorem meet?_succeeds (ha : a.IsReal) (hb : b.IsReal) :
    SucceedsIff (¬ a.Clash b) (meet? p a b) := by
  cases ha with
  | float x =>
    cases hb with
    | integer n =>
      rw [meet?_float_integer, plainFloat?_integer]
      cases size : Binary64.ofInt? n with
      | none => exact .inr ⟨not_not_intro (.right x size), rfl⟩
      | some y => exact .inl ⟨(fun | .right _ large => nomatch size.symm.trans large), _, rfl⟩
    | float | precise | constant => exact .inl ⟨nofun, _, rfl⟩
  | integer n =>
    cases hb with
    | float y =>
      rw [meet?_integer_float, plainFloat?_integer]
      cases size : Binary64.ofInt? n with
      | none => exact .inr ⟨not_not_intro (.left size y), rfl⟩
      | some x => exact .inl ⟨(fun | .left large _ => nomatch size.symm.trans large), _, rfl⟩
    | integer | precise | constant => exact .inl ⟨nofun, _, rfl⟩
  | precise | constant =>
    cases hb <;> exact .inl ⟨nofun, _, rfl⟩

end Value

theorem Operator.apply_succeeds {op : Operator} (commutes : op.isCommutative = true)
    {p : Nat} {a b : Value}
    (ha : a.IsReal) (hb : b.IsReal) : SucceedsIff (¬ a.Clash b) (op.apply p a b) := by
  have met := Value.meet?_succeeds (p := p) ha hb
  cases op with
  | add =>
    change SucceedsIff _ (a.add p b)
    unfold Value.add
    split
    · cases ha
    · exact met.bind fun o _ => by cases o <;> exact ⟨_, rfl⟩
  | multiply =>
    change SucceedsIff _ (a.mul p b)
    unfold Value.mul
    split
    · cases ha
    · cases hb
    · exact met.bind fun o _ => by cases o <;> exact ⟨_, rfl⟩
  | _ => cases commutes

namespace Expr

variable {k : Knowledge} {c : Circumstances} {op : Operator} {l r e : Expr} {es : List Expr}
  {v : Value} {s : Bool}

section Constants

theorem result_regroup {x y : Expr}
    (h : Simplified.result ⟨.binary op x y s, regroup k op l r⟩ = .ok e) :
    ∃ x' y' s', e = .binary op x' y' s' := by
  have cases := regrouping k op l r
  generalize regroup k op l r = replacement at cases h
  cases cases with
  | merged a b z =>
    cases applied : op.apply k.bits a b with
    | error f =>
      rw [applied] at h
      cases h
    | ok v =>
      rw [applied] at h
      cases h
      exact ⟨_, _, _, rfl⟩
  | rotated | kept =>
    cases h
    exact ⟨_, _, _, rfl⟩

theorem constants_of_combine (h : (combine k op l r s).result = .ok (.constant v)) :
    ∃ a b, l = .constant a ∧ r = .constant b ∧ op.evaluate k.bits a b = .ok v := by
  have cases := combining k op l r s
  generalize combine k op l r s = simplified at cases h
  cases cases with
  | computed a b =>
    obtain ⟨w, value, same⟩ := constant_of_computed h
    cases same
    exact ⟨a, b, rfl, rfl, value⟩
  | kept => cases h
  | swapped b =>
    obtain ⟨x, y, s', same⟩ := result_regroup h
    cases same
  | regrouped =>
    obtain ⟨x, y, s', same⟩ := result_regroup h
    cases same

theorem constants_of_settle {f : Function} {name : String}
    (h : (settle k f name es).result = .ok (.constant v)) :
    ∃ plan vs, f.behaviour = .natural plan ∧
      es = vs.map .constant ∧ (plan k.bits vs.length).decide vs = .ok v := by
  obtain kept | ⟨plan, vs, natural, rfl, computed⟩ := settle_cases k f name es
  · rw [kept] at h
    cases h
  · rw [computed] at h
    obtain ⟨w, value, same⟩ := constant_of_computed h
    cases same
    exact ⟨plan, vs, natural, rfl, value⟩

mutual

theorem agree_constant : ∀ (e : Expr) {v : Value}, (e.simplify k).result = .ok (.constant v) →
    Agree k (.constant v) e
  | .constant w, v, h => by
    cases h
    exact .refl k _
  | .reference x name, v, h => by
    unfold simplify at h
    cases known : k.fixed x with
    | none =>
      rw [known] at h
      cases h
    | some a =>
      rw [known] at h
      cases h
      intro c covered
      rw [← covered.2 x v known]
      rfl
  | .binary op l r s, v, h => by
    obtain ⟨l', r', left, right, combined⟩ := result_binary.mp h
    obtain ⟨a, b, rfl, rfl, value⟩ := constants_of_combine combined
    have same := (agree_constant l left).binary (agree_constant r right) op s
    intro c covered
    rw [← same c covered, evaluate_operation c covered, value]
    rfl
  | .call f name args, v, h => by
    obtain ⟨es, all, settled⟩ := result_call.mp h
    obtain ⟨plan, vs, natural, rfl, value⟩ := constants_of_settle settled
    have respects : f.Respects k.Covers :=
      Function.respects_of_natural (by simp [Function.isNatural, natural])
    have same := Agree.call respects (agree_constants args all) name
    intro c covered
    rw [← same c covered, evaluate_natural natural vs name c covered, value]
    rfl

theorem agree_constants :
    ∀ (es : List Expr) {vs : List Value}, simplifyAll k es = (vs.map .constant, none) →
    List.Forall₂ (Agree k) (vs.map .constant) es
  | [], vs, h => by
    cases vs with
    | nil => exact .nil
    | cons v vs => cases h
  | e :: rest, vs, h => by
    obtain ⟨x, xs, first, others, same⟩ := simplifyAll_cons.mp h
    cases vs with
    | nil => cases same
    | cons v vs =>
      cases same
      exact .cons (agree_constant e first) (agree_constants rest others)

end

end Constants

section Outcome

def ConstantsClash (op : Operator) (l r : Expr) : Prop :=
  ∃ a b z, l = .constant a ∧ r = .binary op (.constant b) z false ∧ a.Clash b

def OperandsClash (op : Operator) (l r : Expr) (s : Bool) : Prop :=
  op.isCommutative = true ∧ s = false ∧ (ConstantsClash op l r ∨ ConstantsClash op r l)

/-- A sum or product that is not sealed, of which the operands are simplified to a constant and to a
chain that begins with a constant, and these two clash. -/
def Clashes (k : Knowledge) : Expr → Prop
  | .binary op l r s => ∃ l' r', (l.simplify k).result = .ok l' ∧ (r.simplify k).result = .ok r' ∧
      OperandsClash op l' r' s
  | .constant _ | .reference .. | .call .. => False

/-- The evaluation gives a value at least once. -/
def Evaluates (c : Circumstances) (e : Expr) : Prop := ∃ s v s', e.evaluate c s = .ok v s'

theorem regroup_succeeds (commutes : op.isCommutative = true) (hl : l.Everywhere (IsRealNode c))
    (hr : r.Everywhere (IsRealNode c)) :
    SucceedsIff (¬ ConstantsClash op l r) (regroup k op l r) := by
  have cases := regrouping k op l r
  generalize regroup k op l r = replacement at cases ⊢
  cases cases with
  | merged a b z =>
    refine ((Operator.apply_succeeds commutes hl hr.2.1).map _).congr (not_congr ?_)
    constructor
    · intro clash
      exact ⟨a, b, z, rfl, rfl, clash⟩
    · rintro ⟨_, _, _, ⟨⟩, ⟨⟩, clash⟩
      exact clash
  | rotated b z nonconstant =>
    refine .inl ⟨?_, _, rfl⟩
    rintro ⟨_, _, _, rfl, _⟩
    cases nonconstant
  | kept other =>
    refine .inl ⟨?_, _, rfl⟩
    rintro ⟨_, b, z, _, same, _⟩
    exact other b z same

theorem combine_succeeds (hl : l.Everywhere (IsRealNode c))
    (hr : r.Everywhere (IsRealNode c)) (s : Bool) :
    SucceedsIff (¬ OperandsClash op l r s) (combine k op l r s).result := by
  have cases := combining k op l r s
  generalize combine k op l r s = simplified at cases ⊢
  cases cases with
  | computed a b =>
    obtain ⟨v, value, -⟩ := Operator.evaluate_real (p := k.bits) hl hr op
    rw [value]
    exact .inl ⟨by rintro ⟨-, -, ⟨_, _, _, _, ⟨⟩, _⟩ | ⟨_, _, _, _, ⟨⟩, _⟩⟩, _, rfl⟩
  | kept nonconstant stays =>
    refine .inl ⟨?_, _, rfl⟩
    rintro ⟨commutes, rfl, -⟩
    simp [commutes] at stays
  | swapped b nonconstant commutes =>
    refine ((regroup_succeeds commutes hr hl).map _).congr
      (not_congr ⟨fun clash => ⟨commutes, rfl, .inr clash⟩, ?_⟩)
    rintro ⟨-, -, ⟨_, _, _, rfl, _⟩ | clash⟩
    · cases nonconstant
    · exact clash
  | regrouped nonconstant commutes =>
    refine ((regroup_succeeds commutes hl hr).map _).congr
      (not_congr ⟨fun clash => ⟨commutes, rfl, .inl clash⟩, ?_⟩)
    rintro ⟨-, -, clash | ⟨_, _, _, rfl, _⟩⟩
    · exact clash
    · cases nonconstant

variable (covered : k.Covers c)
include covered

theorem real_of_simplify {e' : Expr} (real : e.Everywhere (IsRealNode c))
    (result : (e.simplify k).result = .ok e') :
    e'.Everywhere (IsRealNode c) := by
  have stays := real.mono fun x here => here.staysReal covered
  have kept := (everywhere_simplify (staysWith_staysReal k c) e stays).result result
  exact kept.mono fun x => And.left

theorem settle_succeeds {f : Function} {name : String} {args : List Expr}
    (all : simplifyAll k args = (es, none))
    (ran : (Expr.call f name args).Evaluates c) : ∃ e, (settle k f name es).result = .ok e := by
  obtain kept | ⟨plan, vs, natural, rfl, computed⟩ := settle_cases k f name es
  · exact ⟨_, by rw [kept]; rfl⟩
  · have respects : f.Respects k.Covers :=
      Function.respects_of_natural (by simp [Function.isNatural, natural])
    have same := Agree.call respects (agree_constants args all) name
    obtain ⟨s, v, s', ran⟩ := ran
    rw [← same c covered, evaluate_natural natural vs name c covered] at ran
    cases decided : (plan k.bits vs.length).decide vs with
    | error f =>
      rw [decided] at ran
      cases ran
    | ok w =>
      rw [computed, decided]
      exact ⟨_, rfl⟩

end Outcome

mutual

theorem simplify_succeeds (covered : k.Covers c) : ∀ e : Expr, e.Everywhere (IsRealNode c) →
    e.Everywhere (Evaluates c) →
    SucceedsIff (e.Everywhere (¬ Clashes k ·)) (e.simplify k).result
  | .constant v, _, _ => .inl ⟨not_false, _, rfl⟩
  | .reference v name, _, _ => .inl ⟨not_false, _, rfl⟩
  -- The right operand is looked at only after the left one was simplified.
  | .binary op l r s, real, ran => by
    obtain ⟨clearLeft, l', left⟩ | ⟨clash, left⟩ := simplify_succeeds covered l real.2.1 ran.2.1
    · obtain ⟨clearRight, r', right⟩ | ⟨clash, right⟩ :=
        simplify_succeeds covered r real.2.2 ran.2.2
      · have hl := real_of_simplify covered real.2.1 left
        have hr := real_of_simplify covered real.2.2 right
        simp only [simplify, left, right]
        refine (combine_succeeds hl hr s).congr ⟨fun apart => ⟨?_, clearLeft, clearRight⟩,
          fun clear clash => ?_⟩
        · rintro ⟨_, _, left', right', clash⟩
          cases left.symm.trans left'
          cases right.symm.trans right'
          exact apart clash
        · exact clear.1 ⟨l', r', left, right, clash⟩
      · simp only [simplify, left, right]
        exact .inr ⟨fun clear => clash clear.2.2, rfl⟩
    · simp only [simplify, left]
      exact .inr ⟨fun clear => clash clear.2.1, rfl⟩
  | .call f name args, real, ran => by
    obtain ⟨clear, es, all⟩ | ⟨clash, es, all⟩ := simplifyAll_succeeds covered args real.2 ran.2
    · obtain ⟨e, settled⟩ := settle_succeeds covered all ran.1
      exact .inl ⟨⟨not_false, clear⟩, e, result_call.mpr ⟨es, all, settled⟩⟩
    · simp only [simplify, all]
      exact .inr ⟨fun clear => clash clear.2, rfl⟩

theorem simplifyAll_succeeds (covered : k.Covers c) :
    ∀ es : List Expr, AllEverywhere (IsRealNode c) es →
    AllEverywhere (Evaluates c) es →
    AllEverywhere (¬ Clashes k ·) es ∧ (∃ es', simplifyAll k es = (es', none)) ∨
      ¬ AllEverywhere (¬ Clashes k ·) es ∧ ∃ es', simplifyAll k es = (es', some .overflow)
  | [], _, _ => .inl ⟨trivial, [], rfl⟩
  | e :: rest, real, ran => by
    obtain ⟨clear, x, first⟩ | ⟨clash, first⟩ := simplify_succeeds covered e real.1 ran.1
    · obtain ⟨clear', xs, others⟩ | ⟨clash, xs, others⟩ :=
        simplifyAll_succeeds covered rest real.2 ran.2
      · exact .inl ⟨⟨clear, clear'⟩, x :: xs, by simp only [simplifyAll, first, others]⟩
      · simp only [simplifyAll, first, others]
        exact .inr ⟨fun clear => clash clear.2, _, rfl⟩
    · simp only [simplifyAll, first]
      exact .inr ⟨fun clear => clash clear.1, _, rfl⟩

end

theorem evaluates_of_real {e : Expr} (real : e.Everywhere (IsRealNode c))
    (tame : e.Everywhere (¬ TestsHuge c ·)) :
    ∀ x ∈ e.visits, x.node.Evaluates c := by
  intro x visited
  have part := everywhere_iff_visits.mp real.parts x visited
  have tame := everywhere_iff_visits.mp (everywhere_iff_visits.mp tame.parts x visited)
  obtain ⟨v, s', ran, -⟩ | ⟨-, y, inside, tests⟩ := evaluate_outcome part {}
  · exact ⟨{}, v, s', ran⟩
  · exact absurd tests (tame y inside)

/-- An expression of real numbers of which all parts can be evaluated is simplified if no constants
clash in it, and only then. Otherwise there is an overflow. -/
theorem simplify_outcome {e : Expr} (covered : k.Covers c) (real : e.Everywhere (IsRealNode c))
    (ran : ∀ x ∈ e.visits, x.node.Evaluates c) :
    ((∃ e', (e.simplify k).result = .ok e') ↔ ∀ x ∈ e.visits, ¬ x.node.Clashes k) ∧
      ∀ f, (e.simplify k).result = .error f → f = .overflow := by
  rw [← everywhere_iff_visits (P := (¬ Clashes k ·))]
  have outcome := simplify_succeeds covered e real (everywhere_iff_visits.mpr ran)
  constructor
  · constructor
    · rintro ⟨e', result⟩
      obtain ⟨clear, -⟩ | ⟨-, fault⟩ := outcome
      · exact clear
      · cases result.symm.trans fault
    · intro clear
      exact (outcome.resolve_right fun failed => failed.1 clear).2
  · intro f fault
    obtain ⟨-, e', result⟩ | ⟨-, overflow⟩ := outcome
    · cases result.symm.trans fault
    · cases fault.symm.trans overflow
      rfl

/-- Integers too large for 53 digits do no harm where they meet other integers. -/
theorem simplify_outcome_integers :
    let e : Expr := .binary .multiply (.constant (.integer (tenTo 400)))
      (.binary .multiply (.constant (.integer 2)) (.reference 0 "x") false) false
    let k : Knowledge := ⟨53, fun _ => none⟩
    let c : Circumstances := ⟨⟨53, 15⟩, fun _ => .float (.zero false)⟩
    k.Covers c ∧ e.Everywhere (IsRealNode c) ∧ (∀ x ∈ e.visits, x.node.Evaluates c) ∧
      (((∃ e', (e.simplify k).result = .ok e') ↔ ∀ x ∈ e.visits, ¬ x.node.Clashes k) ∧
        ∀ f, (e.simplify k).result = .error f → f = .overflow) := by
  intro e k c
  have covered : k.Covers c := ⟨rfl, nofun⟩
  have real : e.Everywhere (IsRealNode c) := ⟨trivial, .integer _, trivial, .integer _, .float _⟩
  have ran := evaluates_of_real real ⟨not_false, not_false, not_false, not_false, not_false⟩
  exact ⟨covered, real, ran, simplify_outcome covered real ran⟩

theorem simplify_huge_sum :
    let half : Binary64 := .finite (.ofIntWithPrec 1 1) (by decide)
    let e : Expr := .binary .add (.constant (.integer (tenTo 400)))
      (.binary .add (.constant (.float half)) (.reference 0 "x") false) false
    let k : Knowledge := ⟨53, fun _ => none⟩
    let c : Circumstances := ⟨⟨53, 15⟩, fun _ => .float half⟩
    k.Covers c ∧ e.Everywhere (IsRealNode c) ∧ (∀ x ∈ e.visits, x.node.Evaluates c) ∧
      ¬ ∃ e', (e.simplify k).result = .ok e' := by
  intro half e k c
  have covered : k.Covers c := ⟨rfl, nofun⟩
  have real : e.Everywhere (IsRealNode c) := ⟨trivial, .integer _, trivial, .float _, .float _⟩
  have ran := evaluates_of_real real ⟨not_false, not_false, not_false, not_false, not_false⟩
  have large : Binary64.ofInt? (tenTo 400) = none := by decide +kernel
  have clashes : e.Clashes k :=
    ⟨_, _, rfl, rfl, rfl, rfl, .inl ⟨_, _, _, rfl, rfl, .left large half⟩⟩
  refine ⟨covered, real, ran, ?_⟩
  rintro ⟨e', result⟩
  obtain ⟨clear, -⟩ | ⟨-, fault⟩ := simplify_succeeds covered e real (everywhere_iff_visits.mpr ran)
  · exact clear.here clashes
  · cases result.symm.trans fault

end Expr

end Formula
