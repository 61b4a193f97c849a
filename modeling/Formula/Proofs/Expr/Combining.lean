import Formula.Expr.Simplify

/-! The steps of simplification. Once the parts of a node are simplified there are few ways to go
on: an operation on two constants is computed, a sum or product that is not sealed is regrouped, and
every other operation stays. Each theorem about simplification goes through these cases. -/
namespace Formula.Expr

variable {k : Knowledge} {op : Operator} {l r e : Expr} {s : Bool}

theorem constant?_eq_none : e.constant? = none ↔ ∀ v, e ≠ .constant v := by
  cases e with
  | constant v => exact ⟨nofun, fun h => absurd rfl (h v)⟩
  | reference | binary | call => exact ⟨fun _ _ => nofun, fun _ => rfl⟩

/-- How a sum or product of simplified operands is regrouped. The right operand is no constant. -/
inductive Regrouping (k : Knowledge) (op : Operator) :
    Expr → Expr → Except Fault (Option Expr) → Prop
  | merged (a b : Value) (z : Expr) :
      Regrouping k op (.constant a) (.binary op (.constant b) z false)
        ((op.apply k.bits a b).map fun v => some (.binary op (.constant v) z false))
  | rotated {x : Expr} (b : Value) (z : Expr) (nonconstant : x.constant? = none) :
      Regrouping k op x (.binary op (.constant b) z false)
        (.ok (some (.binary op (.constant b) (.binary op x z false) false)))
  | kept {x y : Expr} (other : ∀ b z, y ≠ .binary op (.constant b) z false) :
      Regrouping k op x y (.ok none)

theorem regrouping (k : Knowledge) (op : Operator) (x y : Expr) :
    Regrouping k op x y (regroup k op x y) := by
  unfold regroup
  split
  · rename_i op' l' r'
    split
    · rename_i same
      subst same
      split
      · rename_i a b
        have result := @Regrouping.merged k op' a b r'
        cases merged : op'.apply k.bits a b <;> rw [merged] at result <;> exact result
      · rename_i b noConstant
        exact .rotated b r' (constant?_eq_none.mpr fun v same => noConstant v same)
      · rename_i noConstant _
        exact .kept fun b z same => noConstant b (by cases same; rfl)
    · rename_i different
      exact .kept fun b z same => different (by cases same; rfl)
  · rename_i noOperation
    exact .kept fun b z same => noOperation _ _ _ same

/-- How an operation of which the operands are simplified is simplified itself. -/
inductive Combining (k : Knowledge) (op : Operator) : Expr → Expr → Bool → Simplified → Prop
  | computed (a b : Value) (s : Bool) :
      Combining k op (.constant a) (.constant b) s
        ⟨.binary op (.constant a) (.constant b) s,
         (op.evaluate k.bits a b).map fun v => some (.constant v)⟩
  | kept {l r : Expr} {s : Bool} (nonconstant : l.constant? = none ∨ r.constant? = none)
      (stays : op.isCommutative = false ∨ s = true) :
      Combining k op l r s ⟨.binary op l r s, .ok none⟩
  | swapped {l : Expr} (b : Value) (nonconstant : l.constant? = none)
      (commutes : op.isCommutative = true) :
      Combining k op l (.constant b) false
        ⟨.binary op (.constant b) l false, regroup k op (.constant b) l⟩
  | regrouped {l r : Expr} (nonconstant : r.constant? = none) (commutes : op.isCommutative = true) :
      Combining k op l r false ⟨.binary op l r false, regroup k op l r⟩

theorem combining (k : Knowledge) (op : Operator) (l r : Expr) (s : Bool) :
    Combining k op l r s (combine k op l r s) := by
  unfold combine
  split
  · exact .computed _ _ s
  · rename_i notBoth
    have nonconstant : l.constant? = none ∨ r.constant? = none := by
      cases l with
      | constant a => exact .inr (constant?_eq_none.mpr fun b same => notBoth a b rfl same)
      | reference | binary | call => exact .inl rfl
    split
    · rename_i stays
      exact .kept nonconstant (by simpa using stays)
    · rename_i free
      obtain ⟨commutes, rfl⟩ : op.isCommutative = true ∧ s = false := by simpa using free
      split
      · rename_i b
        exact .swapped b (nonconstant.resolve_right nofun) commutes
      · rename_i noConstant
        exact .regrouped (constant?_eq_none.mpr fun v same => noConstant v same) commutes

theorem constants?_eq_some {es : List Expr} {vs : List Value} :
    constants? es = some vs ↔ es = vs.map .constant := by
  induction es generalizing vs with
  | nil => cases vs <;> simp [constants?]
  | cons e rest ih =>
    have others {ws : List Value} : rest.mapM constant? = some ws ↔ rest = ws.map .constant := ih
    have head {w : Value} : e.constant? = some w ↔ e = .constant w := by
      cases e <;> simp [constant?]
    cases vs <;> simp [constants?, List.mapM_cons, Option.bind_eq_some_iff, head, others]

theorem constants?_eq_none {es : List Expr} (h : constants? es = none) :
    ∃ a ∈ es, a.constant? = none := by
  induction es with
  | nil => cases h
  | cons e rest ih =>
    cases first : e.constant? with
    | none => exact ⟨e, List.mem_cons_self, first⟩
    | some v =>
      have others : constants? rest = none := by
        cases all : rest.mapM constant? with
        | none => exact all
        | some vs => simp [constants?, first, all] at h
      obtain ⟨a, member, none⟩ := ih others
      exact ⟨a, List.mem_cons_of_mem e member, none⟩

/-- How a call of which the arguments are simplified is simplified itself. -/
inductive Settling (k : Knowledge) (f : Function) (name : String) : List Expr → Simplified → Prop
  | computed {plan : Nat → Nat → Plan} (natural : f.behaviour = .natural plan) (vs : List Value) :
      Settling k f name (vs.map .constant) ⟨.call f name (vs.map .constant),
        ((plan k.bits vs.length).decide vs).map fun v => some (.constant v)⟩
  | kept {es : List Expr} (stays : f.isNatural → ∃ a ∈ es, a.constant? = none) :
      Settling k f name es ⟨.call f name es, .ok none⟩

theorem settling (k : Knowledge) (f : Function) (name : String) (es : List Expr) :
    Settling k f name es (settle k f name es) := by
  unfold settle
  split
  · rename_i plan vs natural all
    obtain rfl := constants?_eq_some.mp all
    exact .computed natural vs
  · rename_i other
    refine .kept fun natural => ?_
    cases behaviour : f.behaviour with
    | active run => simp [Function.isNatural, behaviour] at natural
    | natural plan =>
      apply constants?_eq_none
      exact Option.eq_none_iff_forall_ne_some.mpr fun vs all => other plan vs behaviour all

theorem result_binary : ((Expr.binary op l r s).simplify k).result = .ok e ↔
    ∃ l' r', (l.simplify k).result = .ok l' ∧ (r.simplify k).result = .ok r' ∧
      (combine k op l' r' s).result = .ok e := by
  simp only [simplify]
  cases left : (l.simplify k).result with
  | error f => simp [Simplified.result, Except.map]
  | ok l' =>
    cases right : (r.simplify k).result with
    | error f => simp [Simplified.result, Except.map]
    | ok r' => simp

theorem result_call {f : Function} {name : String} {args : List Expr} :
    ((Expr.call f name args).simplify k).result = .ok e ↔
      ∃ es, simplifyAll k args = (es, none) ∧ (settle k f name es).result = .ok e := by
  simp only [simplify]
  obtain ⟨es, fault⟩ := simplifyAll k args
  cases fault with
  | none => simp
  | some f => simp [Simplified.result, Except.map]

theorem simplifyAll_cons {es' : List Expr} {es : List Expr} :
    simplifyAll k (e :: es) = (es', none) ↔
      ∃ x xs, (e.simplify k).result = .ok x ∧ simplifyAll k es = (xs, none) ∧ es' = x :: xs := by
  simp only [simplifyAll]
  cases first : (e.simplify k).result with
  | error f => simp
  | ok x =>
    obtain ⟨xs, fault⟩ := simplifyAll k es
    cases fault with
    | none => simp [eq_comm]
    | some f => simp

end Formula.Expr
