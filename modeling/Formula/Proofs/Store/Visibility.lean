import Mathlib.Data.List.Nodup
import Formula.Proofs.Entries
import Formula.Proofs.Store.Chains

/-! What can be seen from a scope. Names are looked up from the scope upwards, and collected from
the root downwards; both agree on the variable for each name, however the scopes came about. -/
namespace Formula

section Entries

variable {β : Type} {entries own : List (String × β)} {name other : String} {value : β}

theorem keys_putEntry (entries : List (String × β)) (name : String) (value : β) :
    (putEntry entries name value).map (·.1) =
      if name ∈ entries.map (·.1) then entries.map (·.1) else entries.map (·.1) ++ [name] := by
  have known : entries.any (·.1 == name) = true ↔ name ∈ entries.map (·.1) := by
    simp [List.any_eq_true, List.mem_map]
  unfold putEntry
  split
  · rename_i present
    rw [if_pos (known.mp present), List.map_map]
    apply List.map_congr_left
    intro e _
    by_cases same : e.1 = name <;> simp [same]
  · rename_i absent
    rw [if_neg (mt known.mpr absent), List.map_append, List.map_singleton]

theorem lookup_putEntry (entries : List (String × β)) (name : String) (value : β) (other : String) :
    (putEntry entries name value).lookup other =
      if other = name then some value else entries.lookup other := by
  -- A known name is replaced where it stands, and a new one is put behind all others.
  by_cases asked : other = name
  · subst asked
    rw [if_pos rfl]
    unfold putEntry
    split
    · rename_i known
      induction entries with
      | nil => cases known
      | cons e entries ih =>
        rw [List.map_cons, lookup_cons_eq]
        by_cases here : e.1 = other
        · simp [here]
        · rw [if_neg (by simpa [here] using Ne.symm here)]
          exact ih (by simpa [here] using known)
    · rename_i absent
      have none : entries.lookup other = none := by
        apply Option.not_isSome_iff_eq_none.mp
        rw [lookup_isSome_eq]
        simpa [List.any_eq_true, List.mem_map] using absent
      simp [List.lookup_append, none]
  · rw [if_neg asked]
    unfold putEntry
    split
    · clear * - asked
      induction entries with
      | nil => rfl
      | cons e entries ih =>
        rw [List.map_cons, lookup_cons_eq, lookup_cons_eq, ih]
        by_cases here : e.1 = name
        · simp [here, asked]
        · simp [here]
    · simp [List.lookup_append, lookup_cons_eq, asked]

theorem nodup_putEntry (distinct : (entries.map (·.1)).Nodup) (name : String) (value : β) :
    ((putEntry entries name value).map (·.1)).Nodup := by
  rw [keys_putEntry]
  split
  · exact distinct
  · rename_i absent
    apply List.nodup_append.mpr
    refine ⟨distinct, by simp, ?_⟩
    rintro a ha b hb rfl
    exact absent (List.mem_singleton.mp hb ▸ ha)

theorem lookup_putEntries (distinct : (own.map (·.1)).Nodup) (entries : List (String × β))
    (name : String) : (own.foldl (fun es e => putEntry es e.1 e.2) entries).lookup name =
      (own.lookup name).or (entries.lookup name) := by
  induction own generalizing entries with
  | nil => rfl
  | cons e own ih =>
    obtain ⟨absent, rest⟩ := List.nodup_cons.mp distinct
    rw [List.foldl_cons, ih rest, lookup_putEntry, lookup_cons_eq]
    by_cases same : name = e.1
    · have none : own.lookup name = none := by
        apply Option.not_isSome_iff_eq_none.mp
        rw [lookup_isSome_eq, same]
        exact absent
      rw [if_pos same, if_pos same, none]
      rfl
    · rw [if_neg same, if_neg same]

theorem nodup_putEntries (distinct : (entries.map (·.1)).Nodup) (own : List (String × β)) :
    ((own.foldl (fun es e => putEntry es e.1 e.2) entries).map (·.1)).Nodup := by
  induction own generalizing entries with
  | nil => exact distinct
  | cons e own ih => exact ih (nodup_putEntry distinct e.1 e.2)

end Entries

namespace Store

variable {p : Nat} {st st' : Store} {s t : ScopeId} {c : List ScopeId} {name : String}
  {v : VariableId} {x : Scope}

def IsDistinct (st : Store) : Prop := ∀ x ∈ st.scopes, x.names.Nodup

theorem isDistinct_empty : IsDistinct {} := fun _ h => nomatch h

namespace IsDistinct

theorem scope (distinct : st.IsDistinct) (s : ScopeId) : (st.scope s).names.Nodup := by
  unfold Store.scope
  rw [List.getD_eq_getElem?_getD]
  cases found : st.scopes[s]? with
  | none => exact List.nodup_nil
  | some x => exact distinct x (List.mem_of_getElem? found)

theorem putScope (distinct : st.IsDistinct) (names : x.names.Nodup) (s : ScopeId) :
    (st.putScope s x).IsDistinct := by
  intro y hy
  rcases List.mem_or_eq_of_mem_set hy with old | rfl
  · exact distinct y old
  · exact names

theorem addScope (distinct : st.IsDistinct) (names : x.names.Nodup) :
    (st.addScope x).2.IsDistinct := by
  intro y hy
  rcases List.mem_append.mp hy with old | new
  · exact distinct y old
  · exact List.mem_singleton.mp new ▸ names

theorem putRoot (distinct : st.IsDistinct) (m : Mode) (s : ScopeId) :
    (st.putRoot m s).IsDistinct := by
  cases m <;> exact distinct

theorem root (distinct : st.IsDistinct) (p : Nat) (m : Mode) : (st.root p m).2.IsDistinct := by
  unfold Store.root
  split
  · exact distinct
  · have constants : ((st.addVariable ⟨"pi", rootConstant p .pi m, true⟩).2.addVariable
        ⟨"euler", rootConstant p .e m, true⟩).2.IsDistinct := distinct
    apply putRoot
    apply constants.addScope
    simp [Scope.names]

theorem newScope (distinct : st.IsDistinct) (p : Nat) (parent : Option ScopeId) (m : Mode) :
    (st.newScope p parent m).2.IsDistinct := by
  cases parent with
  | some t => exact distinct.addScope List.nodup_nil
  | none => exact (distinct.root p m).addScope List.nodup_nil

theorem create (distinct : st.IsDistinct) (s : ScopeId) (name : String) :
    (st.create s name).2.IsDistinct := by
  cases found : (st.scope s).local? name with
  | some v =>
    simp only [Store.create, found]
    exact distinct
  | none =>
    rw [create_eq found]
    have grown : (st.addVariable { name := name, value := .zero (st.scope s).mode }).2.IsDistinct :=
      distinct
    apply grown.putScope
    have absent : name ∉ (st.scope s).names := by
      rw [Scope.names, ← lookup_isSome_eq]
      exact Option.not_isSome_iff_eq_none.mpr found
    rw [Scope.names, List.map_append, List.map_singleton]
    apply List.nodup_append.mpr
    refine ⟨distinct.scope s, by simp, ?_⟩
    rintro a ha b hb rfl
    obtain rfl := List.mem_singleton.mp hb
    exact absent ha

theorem setParent (distinct : st.IsDistinct) {parent : Option ScopeId}
    (h : st.setParent p s parent = .ok st') :
    st'.IsDistinct := by
  obtain ⟨_, rfl⟩ := setParent_eq_ok h
  have taken : (st.taken p s parent).2.IsDistinct := by
    cases parent with
    | some t => exact distinct
    | none => exact distinct.root p _
  apply taken.putScope
  exact taken.scope s

theorem change (distinct : st.IsDistinct) (h : Changes p st st') : st'.IsDistinct := by
  cases h with
  | root m => exact distinct.root p m
  | newScope parent m => exact distinct.newScope p parent m
  | create s name => exact distinct.create s name
  | lookUp found =>
    rcases lookUp_cases found with ⟨_, rfl⟩ | ⟨_, _, made⟩
    · exact distinct
    · exact (Prod.mk.inj made).2 ▸ distinct.create _ _
  | remove s name =>
    apply distinct.putScope
    exact (List.filter_sublist.map _).nodup (distinct.scope s)
  | setStrict s strict =>
    apply IsDistinct.putScope distinct
    exact distinct.scope s
  | setParent set => exact distinct.setParent set
  | setValue set | fix set =>
    obtain ⟨x, _, rfl⟩ := ok_of_map set
    exact distinct

end IsDistinct

/-- The stores that operations lead to, whatever they do to the chains. -/
inductive Reached (p : Nat) : Store → Prop
  | empty : Reached p {}
  | step {st : Store} {o : Operation} (reached : Reached p st) (known : o.IsKnown st) :
      Reached p (st.after p o)

structure IsSound (st : Store) : Prop where
  linked : st.IsLinked
  distinct : st.IsDistinct
  named : st.IsNamed

theorem Reached.isSound (h : Reached p st) : st.IsSound := by
  induction h with
  | empty => exact ⟨.empty, isDistinct_empty, isNamed_empty⟩
  | @step st o _ known ih =>
    obtain ⟨linked, distinct, named⟩ := ih
    have linked' : (st.after p o).IsLinked := linked.after known
    rcases changes_after p st o with changes | same
    · exact ⟨linked', distinct.change changes, named.change changes⟩
    · rw [same]
      exact ⟨linked, distinct, named⟩

section Chains

/-- Collecting from the top down and searching from the bottom up find the same variables. -/
theorem lookup_visibleIn (distinct : st.IsDistinct) (c : List ScopeId) (name : String) :
    (st.visibleIn c).lookup name = c.findSome? fun t => (st.scope t).local? name := by
  induction c with
  | nil => rfl
  | cons s c ih =>
    rw [visibleIn, lookup_putEntries (distinct.scope s), ih, List.findSome?_cons]
    change ((st.scope s).local? name).or _ = _
    cases (st.scope s).local? name <;> rfl

theorem nodup_visibleIn (st : Store) (c : List ScopeId) : ((st.visibleIn c).map (·.1)).Nodup := by
  induction c with
  | nil => exact List.nodup_nil
  | cons s c ih => exact nodup_putEntries ih _

theorem mem_visibleIn (distinct : st.IsDistinct) (c : List ScopeId) (name : String)
    (v : VariableId) :
    (name, v) ∈ st.visibleIn c ↔ (c.findSome? fun t => (st.scope t).local? name) = some v := by
  rw [← lookup_visibleIn distinct]
  exact ⟨lookup_of_mem (nodup_visibleIn st c), mem_of_lookup⟩

theorem mem_namesIn (st : Store) (c : List ScopeId) (name : String) :
    name ∈ st.namesIn c ↔ (c.findSome? fun t => (st.scope t).local? name).isSome := by
  induction c with
  | nil => simp [namesIn]
  | cons s c ih =>
    have here : name ∈ (st.scope s).names ↔ ((st.scope s).local? name).isSome :=
      (lookup_isSome_eq _ name).symm
    rw [namesIn, mem_distinct, List.mem_append, ih, here, List.findSome?_cons]
    cases (st.scope s).local? name with
    | some v => simp
    | none => simp

theorem nodup_variables (distinct : st.IsDistinct) (named : st.IsNamed) (c : List ScopeId) :
    ((st.visibleIn c).map (·.2)).Nodup := by
  have names : ∀ e ∈ st.visibleIn c, st.Names e := by
    intro e he
    obtain ⟨t, _, found⟩ :=
      List.exists_of_findSome?_eq_some ((mem_visibleIn distinct c e.1 e.2).mp he)
    exact named.scope t e (mem_of_lookup found)
  apply List.Nodup.map_on _ (List.Nodup.of_map _ (nodup_visibleIn st c))
  intro e he e' he' same
  obtain ⟨w, known, name⟩ := names e he
  obtain ⟨w', known', name'⟩ := names e' he'
  rw [same, known'] at known
  obtain rfl := Option.some.inj known
  exact Prod.ext (name.symm.trans name') same

end Chains

/-- Looking names up and collecting them agree. From a scope with a chain of parents that ends, a
name stands for the variable that it has in the nearest scope which defines it; the names that can
be seen are those that are found, and the variables that can be seen are the ones that are found
under them, each of them once. -/
theorem lookup_agrees (reached : Reached p st) (chain : st.Ascends s c) :
    (∀ name v, st.find? s name = .ok (some v) ↔ ∃ lower t upper, c = lower ++ t :: upper ∧
        (st.scope t).local? name = some v ∧ ∀ u ∈ lower, (st.scope u).local? name = none) ∧
      (∀ name, st.find? s name = .ok none ↔ ∀ t ∈ c, (st.scope t).local? name = none) ∧
      ∃ names vars, st.names s = .ok names ∧ st.visibleVariables s = .ok vars ∧
        (∀ name, (name ∈ names ↔ ∃ v, st.find? s name = .ok (some v)) ∧
          st.contains s name = .ok (decide (name ∈ names))) ∧
        vars.Nodup ∧ ∀ v, v ∈ vars ↔ ∃ name ∈ names, st.find? s name = .ok (some v) := by
  obtain ⟨-, distinct, named⟩ := reached.isSound
  have find (name : String) (w : Option VariableId) :
      st.find? s name = .ok w ↔ (c.findSome? fun t => (st.scope t).local? name) = w := by
    rw [chain.find? name, Except.ok.injEq]
  have known (name : String) : name ∈ st.namesIn c ↔ ∃ v, st.find? s name = .ok (some v) := by
    simp only [find, mem_namesIn, Option.isSome_iff_exists]
  refine ⟨?nearest, ?nowhere, st.namesIn c, (st.visibleIn c).map (·.2), ?_, ?_, ?_, ?_, ?_⟩
  case nearest =>
    intro name v
    rw [find, List.findSome?_eq_some_iff]
  case nowhere =>
    intro name
    rw [find, List.findSome?_eq_none_iff]
  · rw [names, chain?_eq_some_iff.mpr chain]
  · rw [Store.visibleVariables, chain.visible]
    rfl
  · intro name
    refine ⟨known name, ?_⟩
    rw [contains, chain.find? name]
    refine congrArg Except.ok (Bool.eq_iff_iff.mpr ?_)
    rw [decide_eq_true_iff, mem_namesIn]
  · exact nodup_variables distinct named c
  · intro v
    rw [List.mem_map]
    constructor
    · rintro ⟨⟨name, w⟩, member, rfl⟩
      have found := (find name (some w)).mpr ((mem_visibleIn distinct c name w).mp member)
      exact ⟨name, (known name).mpr ⟨w, found⟩, found⟩
    · rintro ⟨name, _, found⟩
      exact ⟨(name, v), (mem_visibleIn distinct c name v).mpr ((find name (some v)).mp found), rfl⟩

/-- Three scopes, of which the lower two define one name, and the lowest one defined another one for
a while. -/
def shadowed : Store :=
  ({} : Store).afterAll 53 [.newScope none .float, .newScope none .float,
    .setParent 2 (some 1), .create 1 "x",
    .create 2 "x", .create 2 "y", .remove 2 "y"]

theorem lookup_agrees_shadowed : Reached 53 shadowed ∧ shadowed.Ascends 2 [2, 1, 0] ∧
    shadowed.find? 1 "x" = .ok (some 2) ∧ shadowed.find? 2 "x" = .ok (some 3) ∧
    ∃ names vars, shadowed.names 2 = .ok names ∧ shadowed.visibleVariables 2 = .ok vars ∧
      "x" ∈ names ∧ "y" ∉ names ∧
      3 ∈ vars := by
  have first := Reached.empty.step (p := 53) (o := .newScope none .float) (by decide)
  have second := first.step (o := .newScope none .float) (by decide)
  have below := second.step (o := .setParent 2 (some 1)) (by decide)
  have upper := below.step (o := .create 1 "x") (by decide)
  have lower := upper.step (o := .create 2 "x") (by decide)
  have more := lower.step (o := .create 2 "y") (by decide)
  have reached : Reached 53 shadowed := more.step (o := .remove 2 "y") (by decide)
  have chain : shadowed.Ascends 2 [2, 1, 0] := .up (by decide) (.up (by decide) (.top (by decide)))
  obtain ⟨_, _, names, vars, hasNames, hasVars, found, _, exactly⟩ := lookup_agrees reached chain
  have known := (found "x").1.mpr ⟨3, by decide⟩
  have absent : shadowed.find? 2 "y" = .ok none := by decide
  have unknown := (found "y").1.not.mpr fun ⟨v, other⟩ => by cases absent.symm.trans other
  exact ⟨reached, chain, by decide, by decide, names, vars, hasNames, hasVars, known, unknown,
    (exactly 3).mpr ⟨"x", known, by decide⟩⟩

end Store

end Formula
