import Formula.Proofs.Expr.Combining
import Formula.Proofs.Expr.Parts

/-! Normal forms. Simplification leaves nothing that it could still do: what it returns has no part
that it would change, so that simplifying it once more gives the very same expression. Operations
that come into being by regrouping are not simplified themselves; they are normal because what they
are made of is. -/
namespace Formula.Expr

def IsKnown (k : Knowledge) (e : Expr) : Prop := e.isConstant fun v => (k.fixed v).isSome

/-- An expression that simplification would change at its root. -/
inductive Reducible (k : Knowledge) : Expr → Prop
  | reference {v : VariableId} {name : String} (fixed : (k.fixed v).isSome) :
      Reducible k (.reference v name)
  | operation {op : Operator} {l r : Expr} {s : Bool} (left : l.IsKnown k) (right : r.IsKnown k) :
      Reducible k (.binary op l r s)
  | call {f : Function} {name : String} {es : List Expr} (natural : f.isNatural)
      (known : ∀ a ∈ es, a.IsKnown k) : Reducible k (.call f name es)
  | order {op : Operator} {l r : Expr} (commutes : op.isCommutative) (right : r.IsKnown k) :
      Reducible k (.binary op l r false)
  | chain {op : Operator} {l a z : Expr} (commutes : op.isCommutative) (middle : a.IsKnown k) :
      Reducible k (.binary op l (.binary op a z false) false)

/-- No part of the expression can be simplified. -/
def IsNormal (k : Knowledge) (e : Expr) : Prop := e.Everywhere (¬ Reducible k ·)

variable {k : Knowledge} {op : Operator} {l r e : Expr} {es : List Expr} {s : Bool}

theorem IsNormal.isKnown_iff (h : e.IsNormal k) : e.IsKnown k ↔ ∃ v, e = .constant v := by
  cases e with
  | constant v => exact iff_of_true rfl ⟨v, rfl⟩
  | reference v name => exact iff_of_false (fun fixed => Everywhere.here h (.reference fixed)) nofun
  | binary | call => exact iff_of_false nofun nofun

theorem IsNormal.not_isKnown (h : e.IsNormal k) (nonconstant : e.constant? = none) :
    ¬ e.IsKnown k :=
  fun known => by
    obtain ⟨v, same⟩ := h.isKnown_iff.mp known
    exact constant?_eq_none.mp nonconstant v same

theorem isNormal_constant (k : Knowledge) (v : Value) : (Expr.constant v).IsNormal k :=
  fun reducible => nomatch reducible

/-- An operation on normal operands is normal, if there is nothing to compute and nothing to
regroup. -/
theorem isNormal_binary (hl : l.IsNormal k) (hr : r.IsNormal k)
    (nonconstant : l.constant? = none ∨ r.constant? = none)
    (settled : op.isCommutative → s = false →
      r.constant? = none ∧ ∀ b z, r ≠ .binary op (.constant b) z false) :
    (Expr.binary op l r s).IsNormal k := by
  refine ⟨fun reducible => ?_, hl, hr⟩
  cases reducible with
  | operation left right =>
    rcases nonconstant with none | none
    · exact hl.not_isKnown none left
    · exact hr.not_isKnown none right
  | order commutes right => exact hr.not_isKnown (settled commutes rfl).1 right
  | @chain _ _ _ z commutes middle =>
    obtain ⟨b, rfl⟩ := (IsNormal.isKnown_iff hr.2.1).mp middle
    exact (settled commutes rfl).2 b z rfl

section Chain

variable {x z : Expr} {b : Value}

theorem settled_of_chain (h : (Expr.binary op x z false).IsNormal k) (commutes : op.isCommutative) :
    z.constant? = none ∧ ∀ b y, z ≠ .binary op (.constant b) y false := by
  refine ⟨?_, fun b y same => ?_⟩
  · refine constant?_eq_none.mpr fun v same => h.1 ?_
    subst same
    exact .order commutes rfl
  · subst same
    exact h.1 (.chain commutes rfl)

theorem isNormal_merged (h : (Expr.binary op (.constant b) z false).IsNormal k)
    (commutes : op.isCommutative) (v : Value) : (Expr.binary op (.constant v) z false).IsNormal k :=
  have settled := settled_of_chain h commutes
  isNormal_binary (isNormal_constant k v) h.2.2 (.inr settled.1) fun _ _ => settled

theorem isNormal_rotated (hx : x.IsNormal k) (nonconstant : x.constant? = none)
    (h : (Expr.binary op (.constant b) z false).IsNormal k) (commutes : op.isCommutative) :
    (Expr.binary op (.constant b) (.binary op x z false) false).IsNormal k := by
  -- The operation inside is new and was never simplified. It is settled because `z` was so behind
  -- the constant.
  have inner : (Expr.binary op x z false).IsNormal k :=
    isNormal_binary hx h.2.2 (.inl nonconstant) fun _ _ => settled_of_chain h commutes
  refine isNormal_binary h.2.1 inner (.inr rfl) fun _ _ => ⟨rfl, fun c y same => ?_⟩
  cases same
  cases nonconstant

end Chain

theorem isNormal_regroup {x y : Expr} (hx : x.IsNormal k) (hy : y.IsNormal k)
    (commutes : op.isCommutative) (nonconstant : y.constant? = none)
    (h : Simplified.result ⟨.binary op x y false, regroup k op x y⟩ = .ok e) : e.IsNormal k := by
  have cases := regrouping k op x y
  generalize regroup k op x y = replacement at cases h
  cases cases with
  | merged a b z =>
    cases merged : op.apply k.bits a b with
    | error f =>
      rw [merged] at h
      cases h
    | ok v =>
      rw [merged] at h
      cases h
      exact isNormal_merged hy commutes v
  | rotated b z open_ =>
    cases h
    exact isNormal_rotated hx open_ hy commutes
  | kept other =>
    cases h
    exact isNormal_binary hx hy (.inr nonconstant) fun _ _ => ⟨nonconstant, other⟩

theorem isNormal_combine (hl : l.IsNormal k) (hr : r.IsNormal k)
    (h : (combine k op l r s).result = .ok e) :
    e.IsNormal k := by
  -- The operands are normal; what is left to show is that nothing more can be done at the node.
  have cases := combining k op l r s
  generalize combine k op l r s = simplified at cases h
  cases cases with
  | computed a b =>
    cases computed : op.evaluate k.bits a b with
    | error f =>
      rw [computed] at h
      cases h
    | ok v =>
      rw [computed] at h
      cases h
      exact isNormal_constant k v
  | kept nonconstant stays =>
    cases h
    refine isNormal_binary hl hr nonconstant fun commutes unsealed => ?_
    rcases stays with other | sealed
    · rw [other] at commutes
      cases commutes
    · rw [unsealed] at sealed
      cases sealed
  | swapped b nonconstant commutes => exact isNormal_regroup hr hl commutes nonconstant h
  | regrouped nonconstant commutes => exact isNormal_regroup hl hr commutes nonconstant h

theorem isNormal_settle {f : Function} {name : String} (h : AllEverywhere (¬ Reducible k ·) es)
    (result : (settle k f name es).result = .ok e) : e.IsNormal k := by
  have cases := settling k f name es
  generalize settle k f name es = simplified at cases result
  cases cases with
  | @computed plan natural vs =>
    cases computed : (plan k.bits vs.length).decide vs with
    | error f =>
      rw [computed] at result
      cases result
    | ok v =>
      rw [computed] at result
      cases result
      exact isNormal_constant k v
  | kept stays =>
    cases result
    refine ⟨fun reducible => ?_, h⟩
    cases reducible with
    | call natural known =>
      obtain ⟨a, member, nonconstant⟩ := stays natural
      have normal : a.IsNormal k := allEverywhere_iff.mp h a member
      exact normal.not_isKnown nonconstant (known a member)

mutual

/-- What simplification returns is normal. -/
theorem isNormal_of_simplify {r : Expr} : ∀ e : Expr, (e.simplify k).result = .ok r → r.IsNormal k
  | .constant v, h => by
    cases h
    exact isNormal_constant k v
  | .reference v name, h => by
    unfold simplify at h
    cases fixed : k.fixed v with
    | some x =>
      rw [fixed] at h
      cases h
      exact isNormal_constant k x
    | none =>
      rw [fixed] at h
      cases h
      intro reducible
      cases reducible with
      | reference known => simp [fixed] at known
  | .binary op x y s, h => by
    obtain ⟨l, r', left, right, combined⟩ := result_binary.mp h
    exact isNormal_combine (isNormal_of_simplify x left) (isNormal_of_simplify y right) combined
  | .call f name args, h => by
    obtain ⟨es, all, settled⟩ := result_call.mp h
    exact isNormal_settle (allNormal_of_simplify args all) settled

theorem allNormal_of_simplify {es : List Expr} :
    ∀ args : List Expr, simplifyAll k args = (es, none) → AllEverywhere (¬ Reducible k ·) es
  | [], h => by
    cases h
    trivial
  | e :: rest, h => by
    obtain ⟨x, xs, first, others, rfl⟩ := simplifyAll_cons.mp h
    exact ⟨isNormal_of_simplify e first, allNormal_of_simplify rest others⟩

end

section Normal

theorem combine_of_isNormal (h : (Expr.binary op l r s).IsNormal k) :
    combine k op l r s = ⟨.binary op l r s, .ok none⟩ := by
  have irreducible := h.1
  have cases := combining k op l r s
  generalize combine k op l r s = simplified at cases ⊢
  cases cases with
  | computed a b => exact absurd (.operation rfl rfl) irreducible
  | kept => rfl
  | swapped b _ commutes => exact absurd (.order commutes rfl) irreducible
  | regrouped _ commutes =>
    have cases := regrouping k op l r
    generalize regroup k op l r = replacement at cases ⊢
    cases cases with
    | merged a b z => exact absurd (.chain commutes rfl) irreducible
    | rotated b z => exact absurd (.chain commutes rfl) irreducible
    | kept => rfl

theorem settle_of_isNormal {f : Function} {name : String} (h : (Expr.call f name es).IsNormal k) :
    settle k f name es = ⟨.call f name es, .ok none⟩ := by
  have irreducible := h.1
  have cases := settling k f name es
  generalize settle k f name es = simplified at cases ⊢
  cases cases with
  | kept => rfl
  | computed natural vs =>
    refine absurd (.call ?_ fun a member => ?_) irreducible
    · simp [Function.isNatural, natural]
    · obtain ⟨v, _, rfl⟩ := List.mem_map.mp member
      rfl

mutual

/-- Simplification keeps normal expressions as they are. -/
theorem simplify_of_isNormal : ∀ e : Expr, e.IsNormal k → e.simplify k = ⟨e, .ok none⟩
  | .constant v, _ => rfl
  | .reference v name, h => by
    have unknown : k.fixed v = none := by
      cases fixed : k.fixed v with
      | none => rfl
      | some x => exact absurd (.reference (by simp [fixed])) h
    simp only [simplify, unknown, Option.map_none]
  | .binary op l r s, h => by
    have left : (l.simplify k).result = .ok l := by rw [simplify_of_isNormal l h.2.1]; rfl
    have right : (r.simplify k).result = .ok r := by rw [simplify_of_isNormal r h.2.2]; rfl
    simp only [simplify, left, right]
    exact combine_of_isNormal h
  | .call f name args, h => by
    simp only [simplify, simplifyAll_of_isNormal args h.2]
    exact settle_of_isNormal h

theorem simplifyAll_of_isNormal :
    ∀ es : List Expr, AllEverywhere (¬ Reducible k ·) es → simplifyAll k es = (es, none)
  | [], _ => rfl
  | e :: rest, h => by
    have first : (e.simplify k).result = .ok e := by rw [simplify_of_isNormal e h.1]; rfl
    exact simplifyAll_cons.mpr ⟨e, rest, first, simplifyAll_of_isNormal rest h.2, rfl⟩

end

end Normal

/-- One simplification is enough: no part of its result can be simplified, and simplifying the
result again leaves the node itself in place. -/
theorem simplified_stays (h : (e.simplify k).result = .ok r) :
    r.IsNormal k ∧ r.simplify k = ⟨r, .ok none⟩ := by
  have normal := isNormal_of_simplify e h
  exact ⟨normal, simplify_of_isNormal r normal⟩

/-- In `y + (x + y * x)` with a constant `x`, constants come to the front of the sum and of the
product. -/
theorem simplified_stays_chain :
    let k : Knowledge := ⟨53, fun v => if v = 0 then some (.integer 7) else none⟩
    let x : Expr := .reference 0 "x"
    let y : Expr := .reference 1 "y"
    let e : Expr := .binary .add y (.binary .add x (.binary .multiply y x false) false) false
    let r : Expr := .binary .add (.constant (.integer 7))
      (.binary .add y (.binary .multiply (.constant (.integer 7)) y false) false) false
    (e.simplify k).result = .ok r ∧ r.IsNormal k ∧ r.simplify k = ⟨r, .ok none⟩ := by
  intro k x y e r
  have simplified : (e.simplify k).result = .ok r := rfl
  exact ⟨simplified, simplified_stays simplified⟩

end Formula.Expr
