import Mathlib.Data.List.Perm.Subperm
import Formula.Store

/-! Following parents. A chain of parents either ends or comes back to one of its scopes, and so
does the search for a name, which stops earlier where the name is defined. Both are given as many
steps as there are scopes, and one more: what has not ended by then has no end. -/
namespace Formula.Store

variable {st st' : Store} {s t u : ScopeId} {c c' : List ScopeId} {name : String} {v : VariableId}
  {w : Option VariableId}

/-- These scopes lead from the scope, each to its parent, up to one that has none. -/
inductive Ascends (st : Store) : ScopeId → List ScopeId → Prop
  | top {s : ScopeId} (alone : (st.scope s).parent = none) : Ascends st s [s]
  | up {s t : ScopeId} {c : List ScopeId} (above : (st.scope s).parent = some t)
      (more : Ascends st t c) : Ascends st s (s :: c)

/-- The search for a name, from parent to parent, comes to an end with this variable or with
none. -/
inductive Searches (st : Store) (name : String) : ScopeId → Option VariableId → Prop
  | here {s : ScopeId} {v : VariableId} (found : (st.scope s).local? name = some v) :
      Searches st name s (some v)
  | nowhere {s : ScopeId} (absent : (st.scope s).local? name = none)
      (alone : (st.scope s).parent = none) : Searches st name s none
  | above {s t : ScopeId} {v : Option VariableId} (absent : (st.scope s).local? name = none)
      (above : (st.scope s).parent = some t) (more : Searches st name t v) : Searches st name s v

namespace Ascends

theorem unique (h : st.Ascends s c) (h' : st.Ascends s c') : c = c' := by
  induction h generalizing c' with
  | top alone =>
    cases h' with
    | top => rfl
    | up above => simp [alone] at above
  | up above more ih =>
    cases h' with
    | top alone => simp [alone] at above
    | up above' more' =>
      obtain rfl := Option.some.inj (above.symm.trans above')
      rw [ih more']

theorem parent (h : st.Ascends s (s :: c)) (above : (st.scope s).parent = some t) :
    st.Ascends t c := by
  cases h with
  | top alone => simp [alone] at above
  | up above' more =>
    obtain rfl := Option.some.inj (above.symm.trans above')
    exact more

theorem cons (h : st.Ascends s c) : ∃ rest, c = s :: rest := by
  cases h with
  | top => exact ⟨[], rfl⟩
  | up => exact ⟨_, rfl⟩

theorem of_mem (h : st.Ascends s c) (member : t ∈ c) :
    ∃ c', st.Ascends t c' ∧ c'.length ≤ c.length := by
  induction h with
  | top alone =>
    obtain rfl := List.mem_singleton.mp member
    exact ⟨_, .top alone, Nat.le_refl _⟩
  | up above more ih =>
    rcases List.mem_cons.mp member with rfl | member
    · exact ⟨_, .up above more, Nat.le_refl _⟩
    · obtain ⟨c', rest, short⟩ := ih member
      exact ⟨c', rest, Nat.le_succ_of_le short⟩

theorem nodup (h : st.Ascends s c) : c.Nodup := by
  induction h with
  | top => simp
  | up above more ih =>
    refine List.nodup_cons.mpr ⟨?_, ih⟩
    -- a scope that came back would have the whole chain above it once more
    intro again
    obtain ⟨c', rest, short⟩ := more.of_mem again
    rw [← unique (.up above more) rest, List.length_cons] at short
    omega

theorem congr (h : st.Ascends s c) (same : ∀ u ∈ c, (st'.scope u).parent = (st.scope u).parent) :
    st'.Ascends s c := by
  induction h with
  | top alone =>
    apply top
    rw [same _ List.mem_cons_self, alone]
  | up above more ih =>
    apply up
    · rw [same _ List.mem_cons_self, above]
    · exact ih fun u member => same u (List.mem_cons_of_mem _ member)

theorem searches (h : st.Ascends s c) (name : String) :
    st.Searches name s (c.findSome? fun t => (st.scope t).local? name) := by
  induction h with
  | @top s alone =>
    cases found : (st.scope s).local? name with
    | some v => simpa [found] using Searches.here found
    | none => simpa [found] using Searches.nowhere found alone
  | @up s t c above more ih =>
    cases found : (st.scope s).local? name with
    | some v => simpa [found] using Searches.here found
    | none => simpa [found] using Searches.above found above ih

end Ascends

theorem inside_of_parent (above : (st.scope s).parent = some t) : s < st.scopes.length := by
  apply Nat.lt_of_not_le
  intro beyond
  have unknown : st.scope s = default := by
    rw [scope, List.getD_eq_getElem?_getD, List.getElem?_eq_none_iff.mpr beyond]
    rfl
  rw [unknown] at above
  cases above

/-- Only the last scope of a chain may be none of the store. -/
theorem Ascends.length_le (h : st.Ascends s c) : c.length ≤ st.scopes.length + 1 := by
  have inside : ∀ u ∈ c.dropLast, u < st.scopes.length := by
    induction h with
    | top => simp
    | @up s t c above more ih =>
      obtain ⟨rest, rfl⟩ := more.cons
      rw [List.dropLast_cons_of_ne_nil (List.cons_ne_nil t rest)]
      exact List.forall_mem_cons.mpr ⟨inside_of_parent above, ih⟩
  have among : c.dropLast ⊆ List.range st.scopes.length :=
    fun u member => List.mem_range.mpr (inside u member)
  have short := (List.subperm_of_subset (h.nodup.sublist (List.dropLast_sublist c)) among).length_le
  rw [List.length_dropLast, List.length_range] at short
  omega

theorem chainWithin_eq_some_iff {fuel : Nat} :
    st.chainWithin fuel s = some c ↔ st.Ascends s c ∧ c.length ≤ fuel := by
  induction fuel generalizing s c with
  | zero =>
    simp only [chainWithin, reduceCtorEq, false_iff, not_and, Nat.le_zero]
    intro chain empty
    obtain ⟨rest, rfl⟩ := chain.cons
    cases empty
  | succ fuel ih =>
    cases above : (st.scope s).parent with
    | none =>
      simp only [chainWithin, above, Option.some.injEq]
      constructor
      · rintro rfl
        exact ⟨.top above, Nat.le_add_left 1 fuel⟩
      · intro h
        exact (h.1.unique (.top above)).symm
    | some t =>
      simp only [chainWithin, above, Option.map_eq_some_iff, ih]
      constructor
      · rintro ⟨c, ⟨chain, short⟩, rfl⟩
        exact ⟨.up above chain, Nat.succ_le_succ short⟩
      · rintro ⟨chain, short⟩
        obtain ⟨rest, rfl⟩ := chain.cons
        exact ⟨rest, ⟨chain.parent above, Nat.le_of_succ_le_succ short⟩, rfl⟩

theorem chain?_eq_some_iff : st.chain? s = some c ↔ st.Ascends s c :=
  chainWithin_eq_some_iff.trans ⟨And.left, fun h => ⟨h, h.length_le⟩⟩

/-- The chain of parents comes to an end. -/
def Ends (st : Store) (s : ScopeId) : Prop := ∃ c, st.Ascends s c

theorem ends_iff_isSome : st.Ends s ↔ (st.chain? s).isSome := by
  simp only [Ends, Option.isSome_iff_exists, chain?_eq_some_iff]

instance (st : Store) (s : ScopeId) : Decidable (st.Ends s) :=
  decidable_of_iff _ ends_iff_isSome.symm

theorem Ends.congr (h : st.Ends s) (same : ∀ u, (st'.scope u).parent = (st.scope u).parent) :
    st'.Ends s := by
  obtain ⟨c, chain⟩ := h
  exact ⟨c, chain.congr fun u _ => same u⟩

theorem Searches.congr (h : st.Searches name s w)
    (parents : ∀ u, (st'.scope u).parent = (st.scope u).parent)
    (locals : ∀ u, (st'.scope u).local? name = (st.scope u).local? name) :
    st'.Searches name s w := by
  induction h with
  | here found => exact .here ((locals _).trans found)
  | nowhere absent alone => exact .nowhere ((locals _).trans absent) ((parents _).trans alone)
  | above absent above _ ih => exact .above ((locals _).trans absent) ((parents _).trans above) ih

/-- The store in which no scope that defines the name has a parent, so that chains end where the
search for the name does. -/
def cutAt (st : Store) (name : String) : Store :=
  { st with scopes := st.scopes.map fun x =>
      if (x.local? name).isSome then { x with parent := none } else x }

theorem parent_cutAt (st : Store) (name : String) (s : ScopeId) : ((st.cutAt name).scope s).parent =
    if ((st.scope s).local? name).isSome then none else (st.scope s).parent := by
  simp only [scope, cutAt, List.getD_eq_getElem?_getD, List.getElem?_map]
  cases st.scopes[s]? with
  | none => rfl
  | some x =>
    simp only [Option.map_some, Option.getD_some]
    split <;> rfl

theorem Searches.findWithin (h : st.Searches name s w) : ∃ c, (st.cutAt name).Ascends s c ∧
    ∀ fuel, c.length ≤ fuel → st.findWithin name fuel s = .ok w := by
  induction h with
  | @here s v found =>
    refine ⟨[s], .top (by rw [parent_cutAt, found]; rfl), fun fuel enough => ?_⟩
    cases fuel with
    | zero => cases enough
    | succ n => rw [Store.findWithin, found]
  | @nowhere s absent alone =>
    refine ⟨[s], .top (by rw [parent_cutAt, absent, alone]; rfl), fun fuel enough => ?_⟩
    cases fuel with
    | zero => cases enough
    | succ n => simp only [Store.findWithin, absent, alone]
  | @above s t v absent above more ih =>
    obtain ⟨c, chain, finds⟩ := ih
    refine ⟨s :: c, .up (by rw [parent_cutAt, absent, above]; rfl) chain, fun fuel enough => ?_⟩
    cases fuel with
    | zero => cases enough
    | succ n => simp only [Store.findWithin, absent, above, finds n (Nat.le_of_succ_le_succ enough)]

theorem searches_of_findWithin {fuel : Nat} (h : st.findWithin name fuel s = .ok w) :
    st.Searches name s w := by
  induction fuel generalizing s with
  | zero => cases h
  | succ fuel ih =>
    rw [findWithin] at h
    cases found : (st.scope s).local? name with
    | some v =>
      rw [found] at h
      exact Except.ok.inj h ▸ .here found
    | none =>
      cases above : (st.scope s).parent with
      | none =>
        simp only [found, above] at h
        exact Except.ok.inj h ▸ .nowhere found above
      | some t =>
        simp only [found, above] at h
        exact .above found above (ih h)

theorem findWithin_fault {fuel : Nat} {f : Fault} (h : st.findWithin name fuel s = .error f) :
    f = .endless := by
  induction fuel generalizing s with
  | zero => exact (Except.error.inj h).symm
  | succ fuel ih =>
    rw [findWithin] at h
    split at h
    · cases h
    · split at h
      · exact ih h
      · cases h

/-- The search is given enough steps: it has an outcome exactly if it comes to an end. -/
theorem find?_eq_ok_iff : st.find? s name = .ok w ↔ st.Searches name s w := by
  constructor
  · exact searches_of_findWithin
  · intro search
    obtain ⟨c, chain, finds⟩ := search.findWithin
    apply finds
    simpa [cutAt] using chain.length_le

theorem find?_eq_error_iff {f : Fault} :
    st.find? s name = .error f ↔ f = .endless ∧ ∀ w, ¬ st.Searches name s w := by
  constructor
  · intro h
    refine ⟨findWithin_fault h, fun w search => ?_⟩
    cases h.symm.trans (find?_eq_ok_iff.mpr search)
  · rintro ⟨rfl, endless⟩
    cases found : st.find? s name with
    | ok w => exact absurd (find?_eq_ok_iff.mp found) (endless w)
    | error f => rw [findWithin_fault found]

theorem Ascends.find? (h : st.Ascends s c) (name : String) :
    st.find? s name = .ok (c.findSome? fun t => (st.scope t).local? name) :=
  find?_eq_ok_iff.mpr (h.searches name)

theorem Ends.find? (h : st.Ends s) (name : String) : ∃ w, st.find? s name = .ok w := by
  obtain ⟨c, chain⟩ := h
  exact ⟨_, chain.find? name⟩

theorem find?_congr (parents : ∀ u, (st'.scope u).parent = (st.scope u).parent)
    (locals : ∀ u, (st'.scope u).local? name = (st.scope u).local? name) :
    st'.find? s name = st.find? s name := by
  cases found : st.find? s name with
  | ok w => exact find?_eq_ok_iff.mpr ((find?_eq_ok_iff.mp found).congr parents locals)
  | error f =>
    obtain ⟨rfl, endless⟩ := find?_eq_error_iff.mp found
    refine find?_eq_error_iff.mpr ⟨rfl, fun w search => ?_⟩
    exact endless w (search.congr (fun u => (parents u).symm) fun u => (locals u).symm)

theorem local?_eq_none (h : st.find? s name = .ok none) : (st.scope s).local? name = none := by
  cases find?_eq_ok_iff.mp h with
  | nowhere absent | above absent => exact absent

theorem find?_of_local? (here : (st.scope s).local? name = some v) :
    st.find? s name = .ok (some v) := find?_eq_ok_iff.mpr (.here here)

theorem exists_local? (h : st.find? s name = .ok (some v)) :
    ∃ t, (st.scope t).local? name = some v := by
  have search := find?_eq_ok_iff.mp h
  generalize target : some v = w at search
  induction search with
  | @here s v' found =>
    obtain rfl := Option.some.inj target
    exact ⟨s, found⟩
  | nowhere => cases target
  | above absent above more ih => exact ih (find?_eq_ok_iff.mpr (target ▸ more)) target

end Formula.Store
