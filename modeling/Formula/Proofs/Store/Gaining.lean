import Mathlib.Data.List.Induction
import Formula.Proofs.Store.Visibility

/-! Gaining variables. When names are looked up one after another in a scope, the scope gains a
variable for each name that was unknown, in the order of their first appearance, and nothing else
changes. A strict scope gains none. -/
namespace Formula.Store

variable {st st' st'' : Store} {s t : ScopeId} {names : List String} {name : String}
  {v : VariableId}
  {asked asked' : String → Prop}

/-- The store in which the scope has a new variable for each of the names: it stands for zero and
may change. -/
def gained (st : Store) (s : ScopeId) (names : List String) : Store :=
  { st with
    vars := st.vars ++ names.map fun name => { name := name, value := .zero (st.scope s).mode }
    scopes := st.scopes.set s
      { st.scope s with entries := (st.scope s).entries ++ names.zipIdx st.vars.length } }

/-- What the scope gains when these names are asked for: the unknown ones, each once, unless it is
strict. -/
structure Gains (s : ScopeId) (asked : String → Prop) (st : Store) (names : List String)
    (st' : Store) : Prop where
  distinct : names.Nodup
  exactly : ∀ name, name ∈ names ↔ (st.scope s).isStrict = false ∧
    st.find? s name = .ok none ∧ asked name
  store : st' = st.gained s names

section Gained

theorem scope_gained (exist : s < st.scopes.length) (t : ScopeId) : (st.gained s names).scope t =
    if s = t then { st.scope s with entries := (st.scope s).entries ++ names.zipIdx st.vars.length }
    else st.scope t := by
  rw [show (st.gained s names).scope t = (st.putScope s _).scope t from rfl, scope_putScope]
  simp only [exist, and_true]

theorem var_gained (old : v < st.vars.length) : (st.gained s names).var v = st.var v := by
  simp only [var, gained, List.getD_eq_getElem?_getD, List.getElem?_append_left old]

theorem length_gained : (st.gained s names).scopes.length = st.scopes.length := List.length_set

theorem gained_nil (exist : s < st.scopes.length) : st.gained s [] = st := by
  have here : st.scope s = st.scopes[s] := by
    simp [scope, List.getD_eq_getElem?_getD, exist]
  have same : st.scopes.set s (st.scope s) = st.scopes := by rw [here, List.set_getElem_self]
  simp [gained, same]

theorem gained_append (exist : s < st.scopes.length) (names : List String) (name : String) :
    st.gained s (names ++ [name]) = (st.gained s names).extended s name := by
  have here : (st.gained s names).scope s = _ := scope_gained exist s
  rw [if_pos rfl] at here
  unfold extended
  rw [here]
  simp [gained, putScope, addVariable, List.zipIdx_append, List.append_assoc]

theorem find?_gained (exist : s < st.scopes.length) (other : name ∉ names) (t : ScopeId) :
    (st.gained s names).find? t name = st.find? t name := by
  induction names using List.reverseRecOn with
  | nil => rw [gained_nil exist]
  | append_singleton names last ih =>
    rw [List.mem_append, List.mem_singleton, not_or] at other
    rw [gained_append exist, find?_extended_other other.2, ih other.1]

theorem isStrict_gained (exist : s < st.scopes.length) (names : List String) :
    ((st.gained s names).scope s).isStrict = (st.scope s).isStrict := by
  rw [scope_gained exist, if_pos rfl]

theorem local?_gained (exist : s < st.scopes.length) (names : List String) (name : String) :
    ((st.gained s names).scope s).local? name =
      ((st.scope s).local? name).or ((names.zipIdx st.vars.length).lookup name) := by
  rw [scope_gained exist, if_pos rfl]
  simp [Scope.local?, List.lookup_append]

theorem local?_gained_ne_none (exist : s < st.scopes.length) (member : name ∈ names) :
    ((st.gained s names).scope s).local? name ≠ none := by
  have known : ((names.zipIdx st.vars.length).lookup name).isSome := by
    rwa [lookup_isSome_eq, List.zipIdx_map_fst]
  rw [local?_gained exist, ← Option.isSome_iff_ne_none, Option.isSome_or, known, Bool.or_true]

end Gained

namespace Gains

theorem none (exist : s < st.scopes.length) (never : ∀ name, ¬ asked name) :
    Gains s asked st [] st where
  distinct := List.nodup_nil
  exactly name := ⟨nofun, fun h => absurd h.2.2 (never name)⟩
  store := (gained_nil exist).symm

theorem congr (h : Gains s asked st names st') (same : ∀ name, asked' name ↔ asked name) :
    Gains s asked' st names st' where
  distinct := h.distinct
  exactly name := by rw [same, h.exactly]
  store := h.store

theorem lookUp (h : Gains s asked st names st') (exist : s < st.scopes.length)
    (found : st'.lookUp s name = .ok (v, st'')) :
    ∃ names', Gains s (fun other => asked other ∨ other = name) st names' st'' := by
  obtain ⟨distinct, exactly, rfl⟩ := h
  rcases lookUp_cases found with ⟨known, rfl⟩ | ⟨new, free, made⟩
  · refine ⟨names, distinct, fun other => ?_, rfl⟩
    rw [exactly]
    refine ⟨fun ⟨free, unknown, was⟩ => ⟨free, unknown, .inl was⟩, ?_⟩
    rintro ⟨free, unknown, was | rfl⟩
    · exact ⟨free, unknown, was⟩
    · -- it is known by now, and so it is one of those that were gained
      refine (exactly other).mp ?_
      by_contra apart
      rw [find?_gained exist apart, unknown] at known
      cases known
  · have absent := local?_eq_none new
    rw [create_eq absent] at made
    obtain ⟨_, rfl⟩ := Prod.mk.inj made
    have apart : name ∉ names := fun member => local?_gained_ne_none exist member absent
    rw [find?_gained exist apart] at new
    rw [isStrict_gained exist names] at free
    refine ⟨names ++ [name], ?_, fun other => ?_, (gained_append exist names name).symm⟩
    · exact List.nodup_append.mpr ⟨distinct, List.nodup_singleton name,
        fun a ha b hb same => apart (List.mem_singleton.mp hb ▸ same ▸ ha)⟩
    · rw [List.mem_append, List.mem_singleton, exactly]
      constructor
      · rintro (⟨free, unknown, was⟩ | rfl)
        · exact ⟨free, unknown, .inl was⟩
        · exact ⟨free, new, .inr rfl⟩
      · rintro ⟨free, unknown, was | rfl⟩
        · exact .inl ⟨free, unknown, was⟩
        · exact .inr rfl

theorem refuse {f : Fault} (h : Gains s asked st names st') (exist : s < st.scopes.length)
    (refused : st'.lookUp s name = .error f) :
    Gains s (fun other => asked other ∨ other = name) st names st' := by
  obtain ⟨distinct, exactly, rfl⟩ := h
  -- The scope is strict, or the search for the name has no end, so that the name is not found to be
  -- unknown.
  have barred (free : (st.scope s).isStrict = false) (unknown : st.find? s name = .ok .none)
      (apart : name ∉ names) : False := by
    rw [← find?_gained exist apart] at unknown
    rw [← isStrict_gained exist names] at free
    rcases lookUp_fault refused with ⟨-, endless⟩ | ⟨-, -, strict⟩
    · cases unknown.symm.trans endless
    · cases free.symm.trans strict
  refine ⟨distinct, fun other => ?_, rfl⟩
  rw [exactly]
  refine ⟨fun ⟨free, unknown, was⟩ => ⟨free, unknown, .inl was⟩, ?_⟩
  rintro ⟨free, unknown, was | rfl⟩
  · exact ⟨free, unknown, was⟩
  · refine (exactly other).mp ?_
    by_contra apart
    exact barred free unknown apart

end Gains

/-- All that a scope may come to by gaining variables: what there was stays as it was, and each name
that is new in the scope was asked for, was unknown, and has a variable of its own that stands for
zero and may change. -/
structure OnlyGains (s : ScopeId) (asked : String → Prop) (st st' : Store) : Prop where
  kept : ∀ t name v, (st.scope t).local? name = some v → (st'.scope t).local? name = some v ∧
    st'.var v = st.var v
  elsewhere : ∀ t, t ≠ s → st'.scope t = st.scope t
  strict : (st.scope s).isStrict = true → st' = st
  exactly : ∀ name, (st.scope s).local? name = none → ((st'.scope s).local? name ≠ none ↔
    (st.scope s).isStrict = false ∧ st.find? s name = .ok none ∧ asked name)
  new : ∀ name v, (st.scope s).local? name = none → (st'.scope s).local? name = some v →
    st.vars.length ≤ v ∧
      st'.var v = { name := name, value := .zero (st.scope s).mode, isConstant := false }

theorem Gains.only (h : Gains s asked st names st') (exist : s < st.scopes.length)
    (named : st.IsNamed) :
    OnlyGains s asked st st' := by
  obtain ⟨_, exactly, rfl⟩ := h
  constructor
  case kept =>
    intro t name v found
    refine ⟨?_, var_gained (named.lt_of_local? found)⟩
    by_cases here : s = t
    · subst here
      rw [local?_gained exist, found]
      rfl
    · rwa [scope_gained exist, if_neg here]
  case elsewhere =>
    intro t other
    rw [scope_gained exist, if_neg (Ne.symm other)]
  case strict =>
    intro strict
    have none : names = [] := by
      apply List.eq_nil_iff_forall_not_mem.mpr
      intro name member
      exact nomatch strict.symm.trans ((exactly name).mp member).1
    rw [none, gained_nil exist]
  case exactly =>
    intro name absent
    rw [← exactly, local?_gained exist, absent, Option.none_or, ← Option.isSome_iff_ne_none,
      lookup_isSome_eq, List.zipIdx_map_fst]
  case new =>
    intro name v absent found
    rw [local?_gained exist, absent, Option.none_or] at found
    obtain ⟨from_, here⟩ := List.mem_zipIdx_iff_le_and_getElem?_sub.mp (mem_of_lookup found)
    refine ⟨from_, ?_⟩
    simp only [var, gained, List.getD_eq_getElem?_getD, List.getElem?_append_right from_,
      List.getElem?_map, here]
    rfl

end Formula.Store
