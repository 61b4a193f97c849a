import Mathlib.Logic.Relation
import Formula.Proofs.Entries
import Formula.Proofs.Store.Lookup

/-! Names of variables. In every store that the operations on stores lead to, a name stands for a
variable that carries it. A name that was found once stays with its variable while other names are
looked up. -/
namespace Formula.Store

variable {st st' : Store} {s : ScopeId} {x : Scope}

def Names (st : Store) (e : String × VariableId) : Prop :=
  ∃ w, st.vars[e.2]? = some w ∧ w.name = e.1

/-- All names in all scopes are those of their variables. -/
def IsNamed (st : Store) : Prop := ∀ x ∈ st.scopes, ∀ e ∈ x.entries, st.Names e

theorem isNamed_empty : IsNamed {} := fun _ h => nomatch h

theorem IsNamed.scope (named : st.IsNamed) (s : ScopeId) :
    ∀ e ∈ (st.scope s).entries, st.Names e := by
  unfold Store.scope
  rw [List.getD_eq_getElem?_getD]
  cases found : st.scopes[s]? with
  | none => exact fun _ h => nomatch h
  | some x => exact named x (List.mem_of_getElem? found)

theorem IsNamed.find (named : st.IsNamed) {name : String} {v : VariableId}
    (found : st.find? s name = .ok (some v)) : (st.var v).name = name := by
  obtain ⟨t, here⟩ := exists_local? found
  obtain ⟨w, known, same⟩ := named.scope t (name, v) (mem_of_lookup here)
  simpa [var, List.getD_eq_getElem?_getD, known] using same

namespace IsNamed

theorem lt_of_local? (named : st.IsNamed) {name : String} {v : VariableId}
    (h : (st.scope s).local? name = some v) :
    v < st.vars.length := by
  obtain ⟨w, known, _⟩ := named.scope s (name, v) (mem_of_lookup h)
  exact (List.getElem?_eq_some_iff.mp known).1

theorem addVariable (named : st.IsNamed) (w : Variable) : (st.addVariable w).2.IsNamed := by
  intro x hx e he
  obtain ⟨u, known, same⟩ := named x hx e he
  have inside := (List.getElem?_eq_some_iff.mp known).1
  exact ⟨u, (List.getElem?_append_left inside).trans known, same⟩

theorem putVariable (named : st.IsNamed) {v : VariableId} {w : Variable}
    (same : w.name = (st.var v).name) : (st.putVariable v w).IsNamed := by
  intro x hx e he
  obtain ⟨u, known, carried⟩ := named x hx e he
  by_cases here : v = e.2
  · have inside := (List.getElem?_eq_some_iff.mp known).1
    refine ⟨w, ?_, ?_⟩
    · simp [Store.putVariable, here, inside]
    · rw [same, var, here, List.getD_eq_getElem?_getD, known]
      exact carried
  · exact ⟨u, by simpa [Store.putVariable, List.getElem?_set_ne here] using known, carried⟩

theorem putScope (named : st.IsNamed) (entries : ∀ e ∈ x.entries, st.Names e) (s : ScopeId) :
    (st.putScope s x).IsNamed := by
  intro y hy
  rcases List.mem_or_eq_of_mem_set hy with old | rfl
  · exact named y old
  · exact entries

theorem addScope (named : st.IsNamed) (entries : ∀ e ∈ x.entries, st.Names e) :
    (st.addScope x).2.IsNamed := by
  intro y hy
  rcases List.mem_append.mp hy with old | new
  · exact named y old
  · exact List.mem_singleton.mp new ▸ entries

theorem putRoot (named : st.IsNamed) (m : Mode) (s : ScopeId) : (st.putRoot m s).IsNamed := by
  cases m <;> exact named

theorem root (named : st.IsNamed) (p : Nat) (m : Mode) : (st.root p m).2.IsNamed := by
  unfold Store.root
  split
  · exact named
  · have first := named.addVariable ⟨"pi", rootConstant p .pi m, true⟩
    have second := first.addVariable ⟨"euler", rootConstant p .e m, true⟩
    refine (second.addScope ?_).putRoot m _
    refine List.forall_mem_cons.mpr ⟨⟨⟨"pi", rootConstant p .pi m, true⟩, ?_, rfl⟩, ?_⟩
    · simp [Store.addVariable]
    · refine List.forall_mem_singleton.mpr ⟨⟨"euler", rootConstant p .e m, true⟩, ?_, rfl⟩
      simp [Store.addVariable]

theorem newScope (named : st.IsNamed) (p : Nat) (parent : Option ScopeId) (m : Mode) :
    (st.newScope p parent m).2.IsNamed := by
  cases parent with
  | some t => exact named.addScope fun _ h => nomatch h
  | none => exact (named.root p m).addScope fun _ h => nomatch h

theorem create (named : st.IsNamed) (s : ScopeId) (name : String) :
    (st.create s name).2.IsNamed := by
  cases found : (st.scope s).local? name with
  | some v =>
    simp only [Store.create, found]
    exact named
  | none =>
    rw [create_eq found]
    have more := named.addVariable { name := name, value := .zero (st.scope s).mode }
    refine more.putScope (fun e he => ?_) s
    rcases List.mem_append.mp he with old | new
    · exact more.scope s e old
    · obtain rfl := List.mem_singleton.mp new
      exact ⟨{ name := name, value := .zero (st.scope s).mode }, by simp [Store.addVariable], rfl⟩

theorem lookUp (named : st.IsNamed) {name : String} {v : VariableId}
    (h : st.lookUp s name = .ok (v, st')) : st'.IsNamed := by
  rcases lookUp_cases h with ⟨_, rfl⟩ | ⟨_, _, made⟩
  · exact named
  · exact (Prod.mk.inj made.symm).2 ▸ named.create s name

theorem remove (named : st.IsNamed) (s : ScopeId) (name : String) : (st.remove s name).2.IsNamed :=
  named.putScope (fun e he => named.scope s e (List.mem_filter.mp he).1) s

theorem setStrict (named : st.IsNamed) (s : ScopeId) (strict : Bool) :
    (st.setStrict s strict).IsNamed := by
  refine putScope named ?_ s
  exact named.scope s

theorem setParent (named : st.IsNamed) {p : Nat} {parent : Option ScopeId}
    (h : st.setParent p s parent = .ok st') : st'.IsNamed := by
  have kept {t : ScopeId} {st₁ : Store} (named₁ : st₁.IsNamed)
      (h : (if t = s then .error .ownParent
        else if (st₁.scope t).mode ≠ (st.scope s).mode then
          .error (.mixedModes (st₁.scope t).mode (st.scope s).mode)
        else .ok (st₁.putScope s { st₁.scope s with parent := some t }) : Except Fault Store) =
          .ok st') :
      st'.IsNamed := by
    split at h
    · cases h
    · split at h
      · cases h
      · cases h
        refine putScope named₁ ?_ s
        exact named₁.scope s
  cases parent with
  | some t => exact kept named h
  | none => exact kept (named.root p (st.scope s).mode) h

theorem setValue (named : st.IsNamed) {v : VariableId} {a : Value} (h : st.setValue v a = .ok st') :
    st'.IsNamed := by
  unfold Store.setValue Variable.setValue at h
  split at h
  · cases h
  · cases h
    exact named.putVariable rfl

theorem fix (named : st.IsNamed) {v : VariableId} {a : Value} (h : st.fix v a = .ok st') :
    st'.IsNamed := by
  unfold Store.fix Variable.fix Variable.setValue at h
  split at h
  · cases h
  · cases h
    exact named.putVariable rfl

end IsNamed

/-- One operation takes the first store to the second. -/
inductive Changes (p : Nat) (st : Store) : Store → Prop
  | root (m : Mode) : Changes p st (st.root p m).2
  | newScope (parent : Option ScopeId) (m : Mode) : Changes p st (st.newScope p parent m).2
  | create (s : ScopeId) (name : String) : Changes p st (st.create s name).2
  | lookUp {s : ScopeId} {name : String} {v : VariableId} {st' : Store}
      (found : st.lookUp s name = .ok (v, st')) : Changes p st st'
  | remove (s : ScopeId) (name : String) : Changes p st (st.remove s name).2
  | setStrict (s : ScopeId) (strict : Bool) : Changes p st (st.setStrict s strict)
  | setParent {s : ScopeId} {parent : Option ScopeId} {st' : Store}
      (set : st.setParent p s parent = .ok st') : Changes p st st'
  | setValue {v : VariableId} {a : Value} {st' : Store} (set : st.setValue v a = .ok st') :
      Changes p st st'
  | fix {v : VariableId} {a : Value} {st' : Store} (set : st.fix v a = .ok st') : Changes p st st'

theorem IsNamed.change {p : Nat} (named : st.IsNamed) (h : Changes p st st') : st'.IsNamed := by
  cases h with
  | root m => exact named.root p m
  | newScope parent m => exact named.newScope p parent m
  | create s name => exact named.create s name
  | lookUp found => exact named.lookUp found
  | remove s name => exact named.remove s name
  | setStrict s strict => exact named.setStrict s strict
  | setParent set => exact named.setParent set
  | setValue set => exact named.setValue set
  | fix set => exact named.fix set

theorem isNamed_of_changes {p : Nat} (h : Relation.ReflTransGen (Changes p) {} st) :
    st.IsNamed := by
  induction h with
  | refl => exact isNamed_empty
  | tail _ last ih => exact ih.change last

def Keeps (s : ScopeId) (st st' : Store) : Prop :=
  ∀ name v, st.find? s name = .ok (some v) → st'.find? s name = .ok (some v)

theorem keeps_lookUp {name : String} {v : VariableId} (h : st.lookUp s name = .ok (v, st')) :
    Keeps s st st' := by
  rcases lookUp_cases h with ⟨_, rfl⟩ | ⟨new, _, made⟩
  · exact fun _ _ found => found
  · rw [create_eq (local?_eq_none new)] at made
    obtain ⟨_, rfl⟩ := Prod.mk.inj made
    intro other w found
    have different : other ≠ name := by
      rintro rfl
      cases new.symm.trans found
    exact (find?_extended_other different).trans found

theorem find?_lookUp {name : String} {v : VariableId} (exist : s < st.scopes.length)
    (h : st.lookUp s name = .ok (v, st')) : st'.find? s name = .ok (some v) := by
  rcases lookUp_cases h with ⟨found, rfl⟩ | ⟨new, _, made⟩
  · exact found
  · rw [create_eq (local?_eq_none new)] at made
    obtain ⟨rfl, rfl⟩ := Prod.mk.inj made
    exact find?_extended exist new

/-- A store in which every name may be looked up in the scope, known or not. -/
structure IsOpen (st : Store) (s : ScopeId) : Prop where
  exist : s < st.scopes.length
  ends : st.Ends s
  free : (st.scope s).isStrict = false
  named : st.IsNamed

theorem IsOpen.lookUp (isOpen : st.IsOpen s) (name : String) :
    ∃ v st', st.lookUp s name = .ok (v, st') ∧ st'.find? s name = .ok (some v) ∧
      (st'.var v).name = name ∧ Keeps s st st' ∧ st'.IsOpen s := by
  obtain ⟨w, search⟩ := isOpen.ends.find? name
  obtain ⟨v, st', found⟩ := (lookUp_isOk st s name).mpr
    ⟨w, search, fun strict => by simp [isOpen.free] at strict⟩
  have known := find?_lookUp isOpen.exist found
  have named := isOpen.named.lookUp found
  have exist : s < st'.scopes.length := by
    rcases lookUp_cases found with ⟨_, rfl⟩ | ⟨new, _, made⟩
    · exact isOpen.exist
    · rw [create_eq (local?_eq_none new)] at made
      obtain ⟨_, rfl⟩ := Prod.mk.inj made
      exact length_extended.symm ▸ isOpen.exist
  have follows := follows_lookUp found
  exact ⟨v, st', found, known, named.find known, keeps_lookUp found, exist,
    follows.ends isOpen.ends,
    follows.isStrict.trans isOpen.free, named⟩

end Formula.Store
