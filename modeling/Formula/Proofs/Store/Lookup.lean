import Formula.Proofs.Store.Search
import Formula.Proofs.Value.Numbers

/-! Looking names up. A name that was found stays with its variable; a new name gets a new variable,
and no other name is touched. Variables keep their values, and none becomes constant. -/
namespace Formula.Store

variable {st st' : Store} {s t : ScopeId} {name other : String} {v w : VariableId}

theorem scope_putScope (st : Store) (s : ScopeId) (x : Scope) (t : ScopeId) :
    (st.putScope s x).scope t = if s = t ∧ s < st.scopes.length then x else st.scope t := by
  simp only [scope, putScope, List.getD_eq_getElem?_getD, List.getElem?_set]
  by_cases same : s = t
  · subst same
    by_cases inside : s < st.scopes.length <;> simp [inside]
  · simp [same]

theorem var_addVariable (st : Store) (x : Variable) (w : VariableId) :
    (st.addVariable x).2.var w = if w = st.vars.length then x else st.var w := by
  simp only [var, addVariable, List.getD_eq_getElem?_getD, List.getElem?_append]
  rcases Nat.lt_trichotomy w st.vars.length with less | same | more
  · simp [less, Nat.ne_of_lt less]
  · simp [same]
  · have beyond : ¬ w < st.vars.length := Nat.not_lt.mpr (Nat.le_of_lt more)
    have empty : [x][w - st.vars.length]? = none := by
      rw [List.getElem?_eq_none_iff]
      simp only [List.length_singleton]
      omega
    simp [beyond, Nat.ne_of_gt more, empty]

theorem fixed?_eq_some {x : Value} :
    st.fixed? v = some x ↔ (st.var v).isConstant = true ∧ (st.var v).value = x := by
  simp only [fixed?]
  split <;> simp [*]

theorem lookUp_cases (h : st.lookUp s name = .ok (v, st')) :
    (st.find? s name = .ok (some v) ∧ st' = st) ∨
    (st.find? s name = .ok none ∧ (st.scope s).isStrict = false ∧ st.create s name = (v, st')) := by
  unfold lookUp at h
  split at h
  · cases h
  · rename_i found
    obtain ⟨rfl, rfl⟩ := Prod.mk.inj (Except.ok.inj h)
    exact .inl ⟨found, rfl⟩
  · rename_i none
    split at h
    · cases h
    · rename_i free
      exact .inr ⟨none, by simpa using free, Except.ok.inj h⟩

theorem lookUp_fault {f : Fault} (h : st.lookUp s name = .error f) :
    (f = .endless ∧ st.find? s name = .error .endless) ∨
    (f = .unknownVariable name ∧ st.find? s name = .ok none ∧ (st.scope s).isStrict = true) := by
  unfold lookUp at h
  split at h
  · rename_i f' found
    obtain rfl := Except.error.inj h
    obtain ⟨rfl, -⟩ := find?_eq_error_iff.mp found
    exact .inl ⟨rfl, found⟩
  · cases h
  · rename_i none
    split at h
    · rename_i strict
      exact .inr ⟨(Except.error.inj h).symm, none, strict⟩
    · cases h

theorem lookUp_isOk (st : Store) (s : ScopeId) (name : String) :
    (∃ v st', st.lookUp s name = .ok (v, st')) ↔
      ∃ w, st.find? s name = .ok w ∧ ((st.scope s).isStrict → w.isSome) := by
  unfold lookUp
  cases found : st.find? s name with
  | error f => simp
  | ok w =>
    cases w with
    | some v => simp
    | none =>
      cases strict : (st.scope s).isStrict with
      | false => exact iff_of_true ⟨_, _, rfl⟩ (by simp)
      | true => simp

def extended (st : Store) (s : ScopeId) (name : String) : Store :=
  (st.addVariable { name := name, value := .zero (st.scope s).mode }).2.putScope s
    { st.scope s with entries := (st.scope s).entries ++ [(name, st.vars.length)] }

theorem create_eq (h : (st.scope s).local? name = none) :
    st.create s name = (st.vars.length, st.extended s name) := by
  simp only [create, h]
  rfl

section Extended

theorem var_extended (st : Store) (s : ScopeId) (name : String) (w : VariableId) :
    (st.extended s name).var w
      = if w = st.vars.length then { name := name, value := .zero (st.scope s).mode }
        else st.var w := var_addVariable st _ w

theorem scope_extended (st : Store) (s : ScopeId) (name : String) (t : ScopeId) :
    (st.extended s name).scope t = if s = t ∧ s < st.scopes.length then
      { st.scope s with entries := (st.scope s).entries ++ [(name, st.vars.length)] }
    else st.scope t := scope_putScope _ s _ t

theorem part_extended {α : Type} (part : Scope → α)
    (apart : ∀ x es, part { x with entries := es } = part x) :
    part ((st.extended s name).scope t) = part (st.scope t) := by
  rw [scope_extended]
  split
  · rename_i same
    rw [apart, same.1]
  · rfl

theorem isStrict_extended : ((st.extended s name).scope t).isStrict = (st.scope t).isStrict :=
  part_extended Scope.isStrict fun _ _ => rfl

theorem parent_extended : ((st.extended s name).scope t).parent = (st.scope t).parent :=
  part_extended Scope.parent fun _ _ => rfl

theorem length_extended : (st.extended s name).scopes.length = st.scopes.length := List.length_set

theorem ends_extended : (st.extended s name).Ends t ↔ st.Ends t :=
  ⟨fun h => h.congr fun _ => parent_extended.symm, fun h => h.congr fun _ => parent_extended⟩

theorem local?_extended (exist : s < st.scopes.length) (new : (st.scope s).local? name = none) :
    ((st.extended s name).scope s).local? name = some st.vars.length := by
  have absent : (st.scope s).entries.lookup name = none := new
  rw [scope_extended, if_pos ⟨rfl, exist⟩]
  simp [Scope.local?, List.lookup_append, absent]

theorem local?_extended_other (different : other ≠ name) :
    ((st.extended s name).scope t).local? other = (st.scope t).local? other := by
  rw [scope_extended]
  split
  · rename_i same
    simp [Scope.local?, ← same.1, List.lookup_append, List.lookup_cons, beq_false_of_ne different]
  · rfl

theorem find?_extended_other (different : other ≠ name) :
    (st.extended s name).find? t other = st.find? t other :=
  find?_congr (fun _ => parent_extended) fun _ => local?_extended_other different

theorem find?_extended (exist : s < st.scopes.length) (new : st.find? s name = .ok none) :
    (st.extended s name).find? s name = .ok (some st.vars.length) :=
  find?_of_local? (local?_extended exist (local?_eq_none new))

theorem eq_of_find?_extended (new : st.find? s name = .ok none)
    (found : (st.extended s name).find? s name = .ok (some v)) : v = st.vars.length := by
  by_cases exist : s < st.scopes.length
  · rw [find?_extended exist new] at found
    exact (Option.some.inj (Except.ok.inj found)).symm
  · -- a scope that is none of the store gains no name
    have same : (st.extended s name).find? s name = st.find? s name := by
      refine find?_congr (fun _ => parent_extended) fun u => ?_
      rw [scope_extended, if_neg fun here => exist here.2]
    rw [same, new] at found
    cases found

end Extended

/-- What is preserved while names are looked up in a scope: in a strict scope everything is, and in
other scopes no variable becomes constant. -/
structure Follows (s : ScopeId) (st st' : Store) : Prop where
  ends : st.Ends s → st'.Ends s
  isStrict : (st'.scope s).isStrict = (st.scope s).isStrict
  strict : (st.scope s).isStrict → st' = st
  fixed : ∀ v x, st'.fixed? v = some x → st.fixed? v = some x

namespace Follows

theorem refl (s : ScopeId) (st : Store) : Follows s st st :=
  ⟨id, rfl, fun _ => rfl, fun _ _ h => h⟩

theorem trans {st'' : Store} (h : Follows s st st') (h' : Follows s st' st'') :
    Follows s st st'' where
  ends ends := h'.ends (h.ends ends)
  isStrict := h'.isStrict.trans h.isStrict
  strict strict := (h'.strict (h.isStrict.trans strict)).trans (h.strict strict)
  fixed v x fixed := h.fixed v x (h'.fixed v x fixed)

end Follows

theorem follows_lookUp (h : st.lookUp s name = .ok (v, st')) : Follows s st st' := by
  rcases lookUp_cases h with ⟨_, rfl⟩ | ⟨new, free, made⟩
  · exact .refl s st'
  · rw [create_eq (local?_eq_none new)] at made
    obtain ⟨_, rfl⟩ := Prod.mk.inj made
    refine ⟨ends_extended.mpr, isStrict_extended, fun strict => by simp [free] at strict, ?_⟩
    intro w x fixed
    simp only [fixed?, var_extended] at fixed ⊢
    split at fixed
    · cases fixed
    · exact fixed

/-- All names that are visible in a scope stand for numbers. -/
def HoldsNumbers (st : Store) (s : ScopeId) : Prop :=
  ∀ name v, st.find? s name = .ok (some v) → (st.value v).IsNumber

theorem isNumber_zero (m : Mode) : (Value.zero m).IsNumber := by
  cases m
  · exact .float _
  · exact .precise _

theorem holdsNumbers_of_vars (h : ∀ x ∈ st.vars, x.value.IsNumber) (s : ScopeId) :
    st.HoldsNumbers s := by
  intro name v _
  simp only [value, var, List.getD_eq_getElem?_getD]
  cases found : st.vars[v]? with
  | none => exact .float _
  | some x => exact h x (List.mem_of_getElem? found)

end Formula.Store
