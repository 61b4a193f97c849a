import Formula.Proofs.Expr.Combining
import Formula.Proofs.Expr.Evaluation
import Formula.Proofs.Store.Constants

/-! Folding. What simplification computes once is what evaluation would compute every time, because
constant variables stay as they are. Where sums and products are not regrouped, the simplified
expression has the same value and the same effects in every state that can still come. -/
namespace Formula

open Number
open Evaluation (SameWhere)

/-- Circumstances that agree with what is known: the precision and the values of constant
variables. -/
def Knowledge.Covers (k : Knowledge) (c : Circumstances) : Prop :=
  c.precision.bits = k.bits ∧ ∀ v a, k.fixed v = some a → c.value v = a

namespace Expr

def Calls (F : Function → Prop) : Expr → Prop
  | .call f _ _ => F f
  | _ => True

def IsFixedNode (k : Knowledge) : Expr → Prop
  | .reference v _ => (k.fixed v).isSome
  | .call f _ _ => f.isNatural
  | _ => True

/-- Built from constants, constant variables and natural functions alone. -/
def IsFixed (k : Knowledge) (e : Expr) : Prop := e.Everywhere (IsFixedNode k)

/-- A node that is not regrouped: a sum or product is sealed, or its operands are fixed. -/
def IsRigidNode (k : Knowledge) : Expr → Prop
  | .binary op l r s => op.isCommutative → s = true ∨ (l.IsFixed k ∧ r.IsFixed k)
  | _ => True

/-- Every sum or product in the expression is sealed or built from fixed parts. -/
def IsRigid (k : Knowledge) (e : Expr) : Prop := e.Everywhere (IsRigidNode k)

def HasValue (c : Circumstances) (e : Expr) : Prop := ∀ s, ∃ v s', e.evaluate c s = .ok v s'

/-- Two expressions with the same value and the same effects wherever the knowledge holds. -/
def Agree (k : Knowledge) (e' e : Expr) : Prop := SameWhere k.Covers e'.evaluate e.evaluate

variable {k : Knowledge} {op : Operator} {l r l' r' e e' : Expr}
  {es es' : List Expr} {sealed : Bool}
  {c : Circumstances}

theorem Agree.refl (k : Knowledge) (e : Expr) : Agree k e e := SameWhere.refl _ _

theorem Agree.binary (left : Agree k l' l) (right : Agree k r' r) (op : Operator) (s : Bool) :
    Agree k (.binary op l' r' s) (.binary op l r s) :=
  sameWhere_binary left right op s s

theorem Agree.call {f : Function} (respects : f.Respects k.Covers)
    (same : List.Forall₂ (Agree k) es' es)
    (name : String) : Agree k (.call f name es') (.call f name es) :=
  sameWhere_call respects same name name

theorem evaluate_operation {a b : Value} :
    SameWhere k.Covers (Expr.binary op (.constant a) (.constant b) sealed).evaluate
      (.ofExcept (op.evaluate k.bits a b)) := by
  intro c covered
  rw [← covered.1]
  rfl

theorem evaluate_natural {f : Function} {plan : Nat → Nat → Plan}
    (natural : f.behaviour = .natural plan) (vs : List Value) (name : String) :
    SameWhere k.Covers (Expr.call f name (vs.map .constant)).evaluate
      (.ofExcept ((plan k.bits vs.length).decide vs)) := by
  intro c covered
  have called : (Expr.call f name (vs.map .constant)).evaluate
      = (do (plan (← Evaluation.bits) vs.length).run (vs.map pure)) := by
    have values : evaluations (vs.map .constant) = vs.map pure := by
      rw [evaluations_eq_map, List.map_map]
      rfl
    simp only [evaluate, Function.call, natural, values, List.length_map]
  rw [called, ← covered.1, ← Plan.run_pure]
  rfl

/-- A simplification that keeps to the meaning of an expression, wherever the knowledge holds. -/
structure Folds (k : Knowledge) (e : Expr) (s : Simplified) : Prop where
  result : ∀ e', s.result = .ok e' → Agree k e' e
  node : Agree k s.node e

theorem constant_of_computed {node : Expr} {x : Except Fault Value}
    (h : Simplified.result ⟨node, x.map fun v => some (.constant v)⟩ = .ok e) :
    ∃ v, x = .ok v ∧ e = .constant v := by
  cases x with
  | error f => cases h
  | ok v => exact ⟨v, rfl, (Except.ok.inj h).symm⟩

theorem combine_rigid (rigid : op.isCommutative → sealed = true ∨
    ∃ a b, l = .constant a ∧ r = .constant b) :
    combine k op l r sealed = ⟨.binary op l r sealed, .ok none⟩ ∨
      ∃ a b, l = .constant a ∧ r = .constant b ∧ combine k op l r sealed
        = ⟨.binary op l r sealed, (op.evaluate k.bits a b).map fun v => some (.constant v)⟩ := by
  have cases := combining k op l r sealed
  generalize combine k op l r sealed = simplified at cases ⊢
  cases cases with
  | computed a b => exact .inr ⟨a, b, rfl, rfl, rfl⟩
  | kept => exact .inl rfl
  | swapped b nonconstant commutes =>
    obtain ⟨a, _, rfl, _⟩ := (rigid commutes).resolve_left nofun
    cases nonconstant
  | regrouped nonconstant commutes =>
    obtain ⟨_, b, _, rfl⟩ := (rigid commutes).resolve_left nofun
    cases nonconstant

theorem settle_cases (k : Knowledge) (f : Function) (name : String) (es : List Expr) :
    settle k f name es = ⟨.call f name es, .ok none⟩ ∨
      ∃ plan vs, f.behaviour = .natural plan ∧ es = vs.map .constant ∧ settle k f name es
        = ⟨.call f name es, ((plan k.bits vs.length).decide vs).map fun v =>
          some (.constant v)⟩ := by
  have cases := settling k f name es
  generalize settle k f name es = simplified at cases ⊢
  cases cases with
  | kept => exact .inl rfl
  | computed natural vs => exact .inr ⟨_, vs, natural, rfl, rfl⟩

section Fixed

mutual

theorem constant_of_isFixed {e' : Expr} : ∀ e : Expr, e.IsFixed k → (e.simplify k).result = .ok e' →
    ∃ v, e' = .constant v
  | .constant v, _, h => ⟨v, (Except.ok.inj h).symm⟩
  | .reference v name, fixed, h => by
    obtain ⟨a, known⟩ := Option.isSome_iff_exists.mp fixed
    rw [simplify, known] at h
    exact ⟨a, (Except.ok.inj h).symm⟩
  | .binary op l r s, fixed, h => by
    obtain ⟨l', r', left, right, combined⟩ := result_binary.mp h
    obtain ⟨a, rfl⟩ := constant_of_isFixed l fixed.2.1 left
    obtain ⟨b, rfl⟩ := constant_of_isFixed r fixed.2.2 right
    have computed : combine k op (.constant a) (.constant b) s
      = ⟨.binary op (.constant a) (.constant b) s,
        (op.evaluate k.bits a b).map fun v => some (.constant v)⟩ := rfl
    rw [computed] at combined
    exact (constant_of_computed combined).imp fun _ => And.right
  | .call f name args, fixed, h => by
    obtain ⟨es, all, settled⟩ := result_call.mp h
    have constants := allConstant_of_isFixed args fixed.2 all
    have cases := settling k f name es
    generalize settle k f name es = simplified at cases settled
    cases cases with
    | computed natural vs => exact (constant_of_computed settled).imp fun _ => And.right
    -- A natural function is kept only for an argument that is no constant.
    | kept stays =>
      obtain ⟨a, member, nonconstant⟩ := stays fixed.1
      obtain ⟨v, rfl⟩ := constants a member
      cases nonconstant

theorem allConstant_of_isFixed {es' : List Expr} : ∀ args : List Expr,
    AllEverywhere (IsFixedNode k) args → simplifyAll k args = (es', none) →
    ∀ a ∈ es', ∃ v, a = .constant v
  | [], _, h => by
    cases h
    exact fun _ member => nomatch member
  | e :: rest, fixed, h => by
    obtain ⟨x, xs, first, others, rfl⟩ := simplifyAll_cons.mp h
    have head := constant_of_isFixed e fixed.1 first
    exact List.forall_mem_cons.mpr ⟨head, allConstant_of_isFixed rest fixed.2 others⟩

end

end Fixed

section Meaning

variable {f : Function}

theorem folds_computed {node : Expr} {x : Except Fault Value} (same : Agree k node e)
    (value : SameWhere k.Covers node.evaluate (.ofExcept x)) :
    Folds k e ⟨node, x.map fun v => some (.constant v)⟩ where
  result e' h := by
    obtain ⟨v, rfl, rfl⟩ := constant_of_computed h
    exact fun c covered => (value c covered).symm.trans (same c covered)
  node := same

theorem folds_kept {node : Expr} (same : Agree k node e) :
    Folds k e ⟨node, .ok none⟩ where
  result _ h := Except.ok.inj h ▸ same
  node := same

theorem folds_error {node : Expr} {f : Fault} (same : Agree k node e) :
    Folds k e ⟨node, .error f⟩ where
  result _ h := nomatch h
  node := same

theorem folds_combine (left : Agree k l' l)
    (right : Agree k r' r)
    (rigid : op.isCommutative → sealed = true ∨ ∃ a b, l' = .constant a ∧ r' = .constant b) :
    Folds k (.binary op l r sealed) (combine k op l' r' sealed) := by
  have same := left.binary right op sealed
  rcases combine_rigid (k := k) rigid with kept | ⟨a, b, rfl, rfl, computed⟩
  · rw [kept]
    exact folds_kept same
  · rw [computed]
    exact folds_computed same evaluate_operation

theorem folds_settle (respects : f.Respects k.Covers)
    (same : List.Forall₂ (Agree k) es' es) (name : String) :
    Folds k (.call f name es) (settle k f name es') := by
  have same := Agree.call respects same name
  rcases settle_cases k f name es' with kept | ⟨plan, vs, natural, rfl, computed⟩
  · rw [kept]
    exact folds_kept same
  · rw [computed]
    exact folds_computed same (evaluate_natural natural vs name)

theorem rigid_operands (rigid : IsRigidNode k (.binary op l r sealed))
    (left : (l.simplify k).result = .ok l') (right : (r.simplify k).result = .ok r') :
    op.isCommutative → sealed = true ∨ ∃ a b, l' = .constant a ∧ r' = .constant b := by
  intro commutes
  rcases rigid commutes with closed | ⟨fixed, fixed'⟩
  · exact .inl closed
  · obtain ⟨a, rfl⟩ := constant_of_isFixed l fixed left
    obtain ⟨b, rfl⟩ := constant_of_isFixed r fixed' right
    exact .inr ⟨a, b, rfl, rfl⟩

mutual

/-- The simplified expression, and what is left in place of the first one, have the same value and
the same effects wherever the knowledge holds. -/
theorem folds_simplify : ∀ e : Expr, e.IsRigid k → e.Everywhere (Calls (·.Respects k.Covers)) →
    Folds k e (e.simplify k)
  | .constant v, _, _ => folds_kept (.refl _ _)
  | .reference v name, _, _ => by
    unfold simplify
    cases known : k.fixed v with
    | none => exact folds_kept (.refl _ _)
    | some a =>
      refine folds_computed (x := .ok a) (.refl _ _) fun c covered => ?_
      rw [← covered.2 v a known]
      rfl
  | .binary op l r s, rigid, respects => by
    have left := folds_simplify l rigid.2.1 respects.2.1
    have right := folds_simplify r rigid.2.2 respects.2.2
    -- A fault in one operand leaves the node in place, with the operands that were simplified
    -- before it.
    cases simpleLeft : (l.simplify k).result with
    | error f =>
      simp only [simplify, simpleLeft]
      exact folds_error (left.node.binary (.refl k r) op s)
    | ok l' =>
      have sameLeft := left.result l' simpleLeft
      cases simpleRight : (r.simplify k).result with
      | error f =>
        simp only [simplify, simpleLeft, simpleRight]
        exact folds_error (sameLeft.binary right.node op s)
      | ok r' =>
        have sameRight := right.result r' simpleRight
        simp only [simplify, simpleLeft, simpleRight]
        exact folds_combine sameLeft sameRight (rigid_operands rigid.1 simpleLeft simpleRight)
  | .call f name args, rigid, respects => by
    have same := foldsAll_simplify args rigid.2 respects.2
    unfold simplify
    generalize simplifyAll k args = all at same ⊢
    obtain ⟨es, _ | fault⟩ := all
    · exact folds_settle respects.1 same name
    · exact folds_error (Agree.call respects.1 same name)

theorem foldsAll_simplify : ∀ args : List Expr, AllEverywhere (IsRigidNode k) args →
    AllEverywhere (Calls (·.Respects k.Covers)) args →
    List.Forall₂ (Agree k) (simplifyAll k args).1 args
  | [], _, _ => .nil
  | e :: rest, rigid, respects => by
    have first := folds_simplify e rigid.1 respects.1
    have others := foldsAll_simplify rest rigid.2 respects.2
    have unchanged : List.Forall₂ (Agree k) rest rest :=
      List.forall₂_same.mpr fun x _ => .refl k x
    cases simple : (e.simplify k).result with
    | error f =>
      simp only [simplifyAll, simple]
      exact .cons first.node unchanged
    | ok x =>
      simp only [simplifyAll, simple]
      generalize simplifyAll k rest = all at others ⊢
      obtain ⟨es, _ | fault⟩ := all
      · exact .cons (first.result x simple) others
      · exact .cons first.node others

end

end Meaning

section Success

theorem HasValue.computed (h : e.HasValue c) {x : Except Fault Value}
    (same : e.evaluate c = (Evaluation.ofExcept x : Evaluation Value) c) : ∃ v, x = .ok v := by
  cases x with
  | ok v => exact ⟨v, rfl⟩
  | error f =>
    obtain ⟨v, s', ran⟩ := h {}
    rw [same] at ran
    cases ran

mutual

/-- Where all parts of an expression have values, simplification comes to no fault. -/
theorem isOk_simplify (covered : k.Covers c) : ∀ e : Expr, e.IsRigid k →
    e.Everywhere (Calls (·.Respects k.Covers)) → e.Everywhere (HasValue c) →
    ∃ e', (e.simplify k).result = .ok e'
  | .constant v, _, _, _ => ⟨_, rfl⟩
  | .reference v name, _, _, _ => ⟨_, rfl⟩
  | .binary op l r s, rigid, respects, values => by
    obtain ⟨l', left⟩ := isOk_simplify covered l rigid.2.1 respects.2.1 values.2.1
    obtain ⟨r', right⟩ := isOk_simplify covered r rigid.2.2 respects.2.2 values.2.2
    have sameLeft := (folds_simplify l rigid.2.1 respects.2.1).result l' left
    have sameRight := (folds_simplify r rigid.2.2 respects.2.2).result r' right
    have same := Agree.binary sameLeft sameRight op s
    simp only [result_binary, left, right]
    -- What was computed for the node is its value, and the node has one.
    rcases combine_rigid (k := k) (rigid_operands rigid.1 left right) with kept |
      ⟨a, b, rfl, rfl, computed⟩
    · exact ⟨_, l', r', rfl, rfl, by rw [kept]; rfl⟩
    · obtain ⟨v, value⟩ :=
        values.1.computed ((same c covered).symm.trans (evaluate_operation c covered))
      exact ⟨_, _, _, rfl, rfl, by rw [computed, value]; rfl⟩
  | .call f name args, rigid, respects, values => by
    obtain ⟨es, all⟩ := isOk_simplifyAll covered args rigid.2 respects.2 values.2
    have same := foldsAll_simplify args rigid.2 respects.2
    rw [all] at same
    have same := Agree.call respects.1 same name
    simp only [result_call, all]
    rcases settle_cases k f name es with kept | ⟨plan, vs, natural, rfl, computed⟩
    · exact ⟨_, es, rfl, by rw [kept]; rfl⟩
    · have asked := evaluate_natural natural vs name c covered
      obtain ⟨v, value⟩ := values.1.computed ((same c covered).symm.trans asked)
      exact ⟨_, _, rfl, by rw [computed, value]; rfl⟩

theorem isOk_simplifyAll (covered : k.Covers c) :
    ∀ args : List Expr, AllEverywhere (IsRigidNode k) args →
    AllEverywhere (Calls (·.Respects k.Covers)) args → AllEverywhere (HasValue c) args →
    ∃ es, simplifyAll k args = (es, none)
  | [], _, _, _ => ⟨[], rfl⟩
  | e :: rest, rigid, respects, values => by
    obtain ⟨x, first⟩ := isOk_simplify covered e rigid.1 respects.1 values.1
    obtain ⟨xs, others⟩ := isOk_simplifyAll covered rest rigid.2 respects.2 values.2
    exact ⟨x :: xs, simplifyAll_cons.mpr ⟨x, xs, first, others, rfl⟩⟩

end

end Success

end Expr

theorem Store.covers_afterAll (st : Store) (pr : Precision) (os : List Store.Operation) :
    (st.knowledge pr.bits).Covers ⟨pr, (st.afterAll pr.bits os).value⟩ := by
  constructor
  · rfl
  · intro v a fixed
    have kept := Store.preserves_afterAll pr.bits st os v a fixed
    exact (Store.fixed?_eq_some.mp kept).2

/-- An expression in which nothing is regrouped is simplified to one that has the same value and the
same effects, whatever happens to variables and scopes afterwards. It is simplified without a fault
where all its parts have values. The functions of a call see its arguments in one way only: they may
ask for their values. -/
theorem Expr.evaluate_simplified {st : Store} {pr : Precision} {e : Expr}
    (rigid : e.IsRigid (st.knowledge pr.bits))
    (respects : e.Everywhere (Calls (·.Respects (st.knowledge pr.bits).Covers))) :
    (∀ e', (e.simplify (st.knowledge pr.bits)).result = .ok e' → ∀ os : List Store.Operation,
      e'.evaluate ⟨pr, (st.afterAll pr.bits os).value⟩ =
        e.evaluate ⟨pr, (st.afterAll pr.bits os).value⟩) ∧
      (e.Everywhere (HasValue ⟨pr, st.value⟩) → ∃ e',
        (e.simplify (st.knowledge pr.bits)).result = .ok e') := by
  constructor
  · intro e' simplified os
    exact (folds_simplify e rigid respects).result e' simplified _ (st.covers_afterAll pr os)
  · intro values
    exact isOk_simplify (st.covers_afterAll pr []) e rigid respects values

/-- With the constant `a`, the call `count(a * 2)` and the condition `a` are simplified, and the sum
in brackets stays. Afterwards `x` becomes constant, and three operations fail. -/
theorem Expr.evaluate_simplified_count :
    let st : Store := { vars := [⟨"a", .integer 21, true⟩, ⟨"x", .integer 1, false⟩] }
    let a : Expr := .reference 0 "a"
    let x : Expr := .reference 1 "x"
    let two : Expr := .constant (.integer 2)
    let count (arg : Expr) : Expr := .call (.counter 0 "count") "count" [arg]
    let e : Expr := .call .choice "if"
      [a, .binary .add (count (.binary .multiply a two false)) x true, x]
    let r : Expr := .call .choice "if"
      [.constant (.integer 21), .binary .add (count (.constant (.integer 42))) x true, x]
    let os : List Store.Operation :=
      [.setValue 0 .absent, .fix 0 (.integer 1), .setValue 1 (.integer 5), .fix 1 (.integer 6),
        .setValue 1 .absent]
    e.IsRigid (st.knowledge 53) ∧ e.Everywhere (Calls (·.Respects (st.knowledge 53).Covers)) ∧
      (e.simplify (st.knowledge 53)).result = .ok r ∧
      r.evaluate ⟨.standard, (st.afterAll 53 os).value⟩ =
        e.evaluate ⟨.standard, (st.afterAll 53 os).value⟩ := by
  intro st a x two count e r os
  have rigid : e.IsRigid (st.knowledge 53) := by
    refine ⟨trivial, trivial, ⟨?_, ⟨trivial, ⟨?_, trivial, trivial⟩, trivial⟩, trivial⟩,
      trivial, trivial⟩
    · exact fun _ => .inl rfl
    · exact fun _ => .inr ⟨rfl, trivial⟩
  have respects : e.Everywhere (Calls (·.Respects (st.knowledge 53).Covers)) := by
    refine ⟨Function.respects_choice, trivial,
      ⟨trivial, ⟨?_, ⟨trivial, trivial, trivial⟩, trivial⟩, trivial⟩,
      trivial, trivial⟩
    exact Function.respects_counter 0 "count"
  have simplified : (e.simplify (st.knowledge 53)).result = .ok r := rfl
  have evaluated := @evaluate_simplified st .standard e rigid respects
  exact ⟨rigid, respects, simplified, evaluated.1 r simplified os⟩

end Formula
