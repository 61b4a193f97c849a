import Formula.Proofs.Expr.Combining
import Formula.Proofs.Expr.Evaluation

/-! Polynomials: sums, differences and products of integers and variables. Their arithmetic is
exact, so that simplification may regroup them in any way: the value stays the same integer for all
values of the variables. -/
namespace Formula

def Operator.ofIntegers : Operator → Int → Int → Int
  | .add => (· + ·)
  | .subtract => (· - ·)
  | .multiply => (· * ·)
  | _ => fun _ _ => 0

def Operator.IsRing (op : Operator) : Prop := op = .add ∨ op = .subtract ∨ op = .multiply

namespace Expr

/-- Sums, differences and products of integers and of some of the variables. -/
def IsPolynomial (vars : VariableId → Prop) : Expr → Prop
  | .constant v => ∃ n, v = .integer n
  | .reference v _ => vars v
  | .binary op l r _ => op.IsRing ∧ l.IsPolynomial vars ∧ r.IsPolynomial vars
  | .call .. => False

/-- The integer that a polynomial comes to, if the variables are these integers. -/
def integer (e : Expr) (ρ : VariableId → Int) : Int :=
  match e with
  | .constant (.integer n) => n
  | .reference v _ => ρ v
  | .binary op l r _ => op.ofIntegers (l.integer ρ) (r.integer ρ)
  | _ => 0

end Expr

namespace Operator

variable {p : Nat} {op : Operator} {m n : Int}

theorem apply_integers (ring : op.IsRing) :
    op.apply p (.integer m) (.integer n) = .ok (.integer (op.ofIntegers m n)) := by
  rcases ring with rfl | rfl | rfl <;> rfl

theorem evaluate_integers (ring : op.IsRing) :
    op.evaluate p (.integer m) (.integer n) = .ok (.integer (op.ofIntegers m n)) := by
  rw [evaluate, apply_integers ring]
  rfl

theorem ofIntegers_comm (commutes : op.isCommutative) (m n : Int) :
    op.ofIntegers m n = op.ofIntegers n m := by
  cases op <;> first | exact Int.add_comm m n | exact Int.mul_comm m n | cases commutes

theorem ofIntegers_assoc (commutes : op.isCommutative) (l m n : Int) :
    op.ofIntegers (op.ofIntegers l m) n = op.ofIntegers l (op.ofIntegers m n) := by
  cases op <;> first | exact Int.add_assoc l m n | exact Int.mul_assoc l m n | cases commutes

theorem ofIntegers_left_comm (commutes : op.isCommutative) (l m n : Int) :
    op.ofIntegers m (op.ofIntegers l n) = op.ofIntegers l (op.ofIntegers m n) := by
  rw [← ofIntegers_assoc commutes, ofIntegers_comm commutes m l, ofIntegers_assoc commutes]

end Operator

namespace Expr

variable {vars : VariableId → Prop} {k : Knowledge} {op : Operator} {x y : Expr}

theorem evaluate_polynomial {c : Circumstances} {ρ : VariableId → Int}
    (values : ∀ v, vars v → c.value v = .integer (ρ v)) (s : Effects) :
    ∀ e : Expr, e.IsPolynomial vars → e.evaluate c s = .ok (.integer (e.integer ρ)) s
  | .constant v, h => by
    obtain ⟨n, rfl⟩ := h
    rfl
  | .reference v name, h => by
    have value := values v h
    simp only [evaluate, integer, ← value]
    rfl
  | .binary op l r sealed, h => by
    have left := evaluate_polynomial values s l h.2.1
    have right := evaluate_polynomial values s r h.2.2
    rw [evaluate_binary left right, Operator.evaluate_integers h.1]
    rfl
  | .call .., h => absurd h id

/-- Variables that are known to be an integer are that integer. -/
def Fits (vars : VariableId → Prop) (k : Knowledge) (ρ : VariableId → Int) : Prop :=
  ∀ v n, vars v → k.fixed v = some (.integer n) → ρ v = n

def GivesPolynomial (vars : VariableId → Prop) (k : Knowledge) (value : (VariableId → Int) → Int)
    (s : Simplified) : Prop :=
  ∃ e, s.result = .ok e ∧ e.IsPolynomial vars ∧ ∀ ρ, Fits vars k ρ → e.integer ρ = value ρ

theorem givesPolynomial_regroup (hx : x.IsPolynomial vars) (hy : y.IsPolynomial vars)
    (ring : op.IsRing) (commutes : op.isCommutative) :
    GivesPolynomial vars k (fun ρ => op.ofIntegers (x.integer ρ) (y.integer ρ))
      ⟨.binary op x y false, regroup k op x y⟩ := by
  have cases := regrouping k op x y
  generalize regroup k op x y = replacement at cases ⊢
  cases cases with
  | merged a b z =>
    obtain ⟨m, rfl⟩ := hx
    obtain ⟨n, rfl⟩ := hy.2.1
    rw [Operator.apply_integers ring]
    refine ⟨_, rfl, ⟨ring, ⟨_, rfl⟩, hy.2.2⟩, fun ρ _ => ?_⟩
    exact Operator.ofIntegers_assoc commutes m n (z.integer ρ)
  | rotated b z =>
    refine ⟨_, rfl, ⟨ring, hy.2.1, ring, hx, hy.2.2⟩, fun ρ _ => ?_⟩
    exact Operator.ofIntegers_left_comm commutes _ _ _
  | kept => exact ⟨_, rfl, ⟨ring, hx, hy⟩, fun ρ _ => rfl⟩

theorem givesPolynomial_combine (hx : x.IsPolynomial vars) (hy : y.IsPolynomial vars)
    (ring : op.IsRing) (sealed : Bool) :
    GivesPolynomial vars k (fun ρ => op.ofIntegers (x.integer ρ) (y.integer ρ))
      (combine k op x y sealed) := by
  have cases := combining k op x y sealed
  generalize combine k op x y sealed = simplified at cases ⊢
  cases cases with
  | computed a b =>
    obtain ⟨m, rfl⟩ := hx
    obtain ⟨n, rfl⟩ := hy
    rw [Operator.evaluate_integers ring]
    exact ⟨_, rfl, ⟨_, rfl⟩, fun ρ _ => rfl⟩
  | kept => exact ⟨_, rfl, ⟨ring, hx, hy⟩, fun ρ _ => rfl⟩
  | swapped b _ commutes =>
    obtain ⟨e, result, polynomial, same⟩ := givesPolynomial_regroup (k := k) hy hx ring commutes
    exact ⟨e, result, polynomial,
      fun ρ fits => (same ρ fits).trans (Operator.ofIntegers_comm commutes _ _)⟩
  | regrouped _ commutes => exact givesPolynomial_regroup hx hy ring commutes

theorem givesPolynomial_simplify
    (integers : ∀ v a, vars v → k.fixed v = some a → ∃ n, a = .integer n) :
    ∀ e : Expr, e.IsPolynomial vars → GivesPolynomial vars k e.integer (e.simplify k)
  | .constant v, h => ⟨_, rfl, h, fun _ _ => rfl⟩
  | .reference v name, h => by
    simp only [simplify]
    cases fixed : k.fixed v with
    | none => exact ⟨_, rfl, h, fun _ _ => rfl⟩
    | some a =>
      obtain ⟨n, rfl⟩ := integers v a h fixed
      exact ⟨_, rfl, ⟨n, rfl⟩, fun ρ fits => (fits v n h fixed).symm⟩
  | .binary op l r sealed, h => by
    obtain ⟨x, left, hx, sameLeft⟩ := givesPolynomial_simplify integers l h.2.1
    obtain ⟨y, right, hy, sameRight⟩ := givesPolynomial_simplify integers r h.2.2
    obtain ⟨e, combined, polynomial, same⟩ := givesPolynomial_combine (k := k) hx hy h.1 sealed
    refine ⟨e, result_binary.mpr ⟨x, y, left, right, combined⟩, polynomial, fun ρ fits => ?_⟩
    calc e.integer ρ = op.ofIntegers (x.integer ρ) (y.integer ρ) := same ρ fits
      _ = op.ofIntegers (l.integer ρ) (r.integer ρ) := by rw [sameLeft ρ fits, sameRight ρ fits]
  | .call .., h => absurd h id

/-- A polynomial is simplified to one that has the same integer as its value, whatever integers the
variables are from then on. Only constant variables keep their values. -/
theorem simplify_polynomial {st : Store} {bits : Nat} {e : Expr} (polynomial : e.IsPolynomial vars)
    (integers : ∀ v a, vars v → st.fixed? v = some a → ∃ n, a = .integer n) :
    ∃ e', (e.simplify (st.knowledge bits)).result = .ok e' ∧
      ∀ (c : Circumstances) (ρ : VariableId → Int) (s : Effects),
        (∀ v, vars v → c.value v = .integer (ρ v)) →
        (∀ v a, st.fixed? v = some a → c.value v = a) →
        e.evaluate c s = .ok (.integer (e.integer ρ)) s ∧
        e'.evaluate c s = .ok (.integer (e.integer ρ)) s := by
  obtain ⟨e', result, polynomial', same⟩ :=
    givesPolynomial_simplify (k := st.knowledge bits) integers e polynomial
  refine ⟨e', result, fun c ρ s values stays => ?_⟩
  have fits : Fits vars (st.knowledge bits) ρ := fun v n member fixed =>
    Value.integer.inj ((values v member).symm.trans (stays v _ fixed))
  have before := evaluate_polynomial values s e polynomial
  have after := evaluate_polynomial values s e' polynomial'
  rw [same ρ fits] at after
  exact ⟨before, after⟩

/-- A sum in brackets stays as it is, and the constants of the chain around it are combined. -/
theorem simplify_polynomial_chain :
    let st : Store := { vars := [⟨"a", .integer 5, true⟩, ⟨"x", .integer 0, false⟩] }
    let a : Expr := .reference 0 "a"
    let x : Expr := .reference 1 "x"
    let e : Expr := .binary .add (.constant (.integer 2))
      (.binary .add (.binary .subtract x a true)
        (.binary .add a (.binary .add x a true) false) false) false
    let vars : VariableId → Prop := fun v => v < 2
    let c : Circumstances := ⟨.standard, fun v => .integer (if v = 0 then 5 else 3)⟩
    e.IsPolynomial vars ∧ (∀ v a, vars v → st.fixed? v = some a → ∃ n, a = .integer n) ∧
      (∀ v a, st.fixed? v = some a → c.value v = a) ∧
      ∃ e', (e.simplify (st.knowledge 53)).result = .ok e' ∧
        e.evaluate c {} = .ok (.integer 13) {} ∧
        e'.evaluate c {} = .ok (.integer 13) {} := by
  intro st a x e vars c
  have polynomial : e.IsPolynomial vars := by
    simp [e, a, x, vars, IsPolynomial, Operator.IsRing]
  have fixed : ∀ v a, st.fixed? v = some a → v = 0 ∧ a = .integer 5
    | 0, a, h => ⟨rfl, (Option.some.inj h).symm⟩
    | 1, a, h => nomatch h
    | v + 2, a, h => nomatch h
  have stays : ∀ v a, st.fixed? v = some a → c.value v = a := fun v a h => by
    obtain ⟨rfl, rfl⟩ := fixed v a h
    rfl
  have integers : ∀ v a, vars v → st.fixed? v = some a → ∃ n, a = .integer n :=
    fun v a _ h => ⟨5, (fixed v a h).2⟩
  obtain ⟨e', result, same⟩ : ∃ e', (e.simplify (st.knowledge 53)).result = .ok e' ∧ _ :=
    simplify_polynomial polynomial integers
  exact ⟨polynomial, integers, stays, e', result,
    same c (fun v => if v = 0 then 5 else 3) {} (fun _ _ => rfl) stays⟩

end Expr

end Formula
