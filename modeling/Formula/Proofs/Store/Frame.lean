import Formula.Proofs.Store.Visibility

/-! What an operation on a name of a scope changes. Creating, looking up and removing a name are
seen from the scopes whose chains come to this scope before any other one that defines the name, and
under no other name. -/
namespace Formula.Store

variable {p : Nat} {st st' st₁ : Store} {s t : ScopeId} {name : String} {v : VariableId} {x : Scope}

/-- The chain of the scope comes to the other one before any scope in between that defines the
name. -/
def ComesTo (st : Store) (t s : ScopeId) (name : String) : Prop :=
  ∃ lower upper, st.Ascends t (lower ++ s :: upper) ∧ ∀ u ∈ lower, (st.scope u).local? name = none

/-- The stores differ in what the name means in the scope itself, if at all. -/
structure Local (s : ScopeId) (name : String) (st st' : Store) : Prop where
  count : st'.scopes.length = st.scopes.length
  parent : ∀ t, (st'.scope t).parent = (st.scope t).parent
  elsewhere : ∀ t other, t ≠ s ∨ other ≠ name →
    (st'.scope t).local? other = (st.scope t).local? other

namespace Local

theorem refl (s : ScopeId) (name : String) (st : Store) : Local s name st st :=
  ⟨rfl, fun _ => rfl, fun _ _ _ => rfl⟩

theorem trans (h : Local s name st st₁) (h' : Local s name st₁ st') : Local s name st st' where
  count := h'.count.trans h.count
  parent t := (h'.parent t).trans (h.parent t)
  elsewhere t other apart := (h'.elsewhere t other apart).trans (h.elsewhere t other apart)

theorem find?_eq (h : Local s name st st')
    (here : (st'.scope s).local? name = (st.scope s).local? name) (t : ScopeId)
    (other : String) : st'.find? t other = st.find? t other := by
  apply find?_congr h.parent
  intro u
  by_cases apart : u ≠ s ∨ other ≠ name
  · exact h.elsewhere u other apart
  · obtain ⟨rfl, rfl⟩ : u = s ∧ other = name := by simpa only [not_or, not_not] using apart
    exact here

end Local

theorem exists_append_of_findSome?_ne {f g : ScopeId → Option VariableId} {c : List ScopeId}
    (same : ∀ u, u ≠ s → f u = g u) (differ : c.findSome? f ≠ c.findSome? g) :
    ∃ lower upper, c = lower ++ s :: upper ∧ ∀ u ∈ lower, g u = none := by
  induction c with
  | nil => exact absurd rfl differ
  | cons u c ih =>
    by_cases here : u = s
    · exact ⟨[], c, by rw [here]; rfl, List.forall_mem_nil _⟩
    · rw [List.findSome?_cons, List.findSome?_cons, same u here] at differ
      cases found : g u with
      | some v => simp [found] at differ
      | none =>
        rw [found] at differ
        obtain ⟨lower, upper, rfl, none⟩ := ih differ
        exact ⟨u :: lower, upper, rfl, List.forall_mem_cons.mpr ⟨found, none⟩⟩

/-- Only look-ups of the name change, and only from scopes whose chains come to the scope. -/
def Frames (s : ScopeId) (name : String) (st st' : Store) : Prop :=
  ∀ t other, st'.find? t other ≠ st.find? t other → other = name ∧ st.ComesTo t s name

theorem Local.frames (h : Local s name st st') (ends : ∀ t, st.Ends t) : Frames s name st st' := by
  intro t other differ
  have named : other = name := by
    by_contra apart
    exact differ (find?_congr h.parent fun u => h.elsewhere u other (.inr apart))
  subst named
  -- the chain is as before, and the searches along it can only part at the scope itself
  obtain ⟨c, chain⟩ := ends t
  have chain' : st'.Ascends t c := chain.congr fun u _ => h.parent u
  rw [chain.find?, chain'.find?, ne_eq, Except.ok.injEq] at differ
  have away (u : ScopeId) (apart : u ≠ s) := h.elsewhere u other (.inl apart)
  obtain ⟨lower, upper, rfl, none⟩ := exists_append_of_findSome?_ne away differ
  exact ⟨rfl, lower, upper, chain, none⟩

section Operations

theorem create_of_local? (here : (st.scope s).local? name = some v) :
    st.create s name = (v, st) := by
  simp only [create, here]

theorem lookUp_of_find? (found : st.find? s name = .ok (some v)) :
    st.lookUp s name = .ok (v, st) := by
  simp only [lookUp, found]

theorem local_putScope (parent : x.parent = (st.scope s).parent)
    (others : ∀ other, other ≠ name → x.local? other = (st.scope s).local? other) :
    Local s name st (st.putScope s x) := by
  refine ⟨List.length_set, fun t => ?_, fun t other apart => ?_⟩
  · rw [scope_putScope]
    split
    · rename_i here
      rw [parent, here.1]
    · rfl
  · rw [scope_putScope]
    split
    · rename_i here
      obtain ⟨rfl, _⟩ := here
      exact others other (apart.resolve_left fun away => away rfl)
    · rfl

theorem local_extended (st : Store) (s : ScopeId) (name : String) :
    Local s name st (st.extended s name) := by
  refine ⟨length_extended, fun t => parent_extended, fun t other apart => ?_⟩
  rcases apart with away | different
  · rw [scope_extended, if_neg fun here => away here.1.symm]
  · exact local?_extended_other different

theorem local_create (st : Store) (s : ScopeId) (name : String) :
    Local s name st (st.create s name).2 := by
  cases here : (st.scope s).local? name with
  | some v => exact create_of_local? here ▸ .refl s name st
  | none => exact create_eq here ▸ local_extended st s name

theorem local_lookUp (h : st.lookUp s name = .ok (v, st')) : Local s name st st' := by
  rcases lookUp_cases h with ⟨_, rfl⟩ | ⟨_, _, made⟩
  · exact .refl s name st'
  · have edit := local_create st s name
    rwa [made] at edit

theorem lookup_filter (entries : List (String × VariableId)) (name other : String) :
    (entries.filter (·.1 ≠ name)).lookup other =
      if other = name then none else entries.lookup other := by
  induction entries with
  | nil => simp
  | cons e entries ih =>
    rw [List.filter_cons, lookup_cons_eq]
    by_cases removed : e.1 = name
    · rw [if_neg (by simp [removed]), ih]
      by_cases asked : other = name
      · simp [asked]
      · simp [asked, removed]
    · rw [if_pos (by simpa using removed), lookup_cons_eq, ih]
      by_cases here : other = e.1
      · simp [here, removed]
      · simp [here]

theorem local_remove (st : Store) (s : ScopeId) (name : String) :
    Local s name st (st.remove s name).2 := by
  have others (other : String) (different : other ≠ name) :
      ((st.scope s).entries.filter (·.1 ≠ name)).lookup other = (st.scope s).local? other :=
    (lookup_filter _ name other).trans (if_neg different)
  exact local_putScope rfl others

theorem local?_remove (exist : s < st.scopes.length) :
    ((st.remove s name).2.scope s).local? name = none := by
  rw [remove, scope_putScope, if_pos ⟨rfl, exist⟩]
  exact (lookup_filter _ name name).trans (if_pos rfl)

theorem create_again (exist : s < st.scopes.length) (made : st.create s name = (v, st')) :
    st'.find? s name = .ok (some v) ∧ st'.create s name = (v, st') := by
  have here : (st'.scope s).local? name = some v := by
    cases known : (st.scope s).local? name with
    | some w =>
      rw [create_of_local? known] at made
      obtain ⟨rfl, rfl⟩ := Prod.mk.inj made
      exact known
    | none =>
      rw [create_eq known] at made
      obtain ⟨rfl, rfl⟩ := Prod.mk.inj made
      exact local?_extended exist known
  exact ⟨find?_of_local? here, create_of_local? here⟩

theorem find?_remove_create (exist : s < st.scopes.length)
    (new : (st.scope s).local? name = none) (t : ScopeId)
    (other : String) : ((st.create s name).2.remove s name).2.find? t other = st.find? t other := by
  have made := local_create st s name
  apply (made.trans (local_remove _ s name)).find?_eq
  rw [local?_remove (made.count ▸ exist), new]

theorem IsNamed.not_found (named : st.IsNamed) (t : ScopeId) (other : String) :
    st.find? t other ≠ .ok (some st.vars.length) := by
  intro found
  obtain ⟨u, here⟩ := exists_local? found
  exact Nat.lt_irrefl _ (named.lt_of_local? here)

end Operations

/-- What creating a name in a scope does. Only what the scope itself defines matters. -/
structure Creates (s : ScopeId) (name : String) (st : Store) (v : VariableId) (st' : Store) :
    Prop where
  found : st'.find? s name = .ok (some v)
  again : st'.create s name = (v, st')
  frames : Frames s name st st'
  known : ∀ w, (st.scope s).local? name = some w → v = w ∧ st' = st
  new : (st.scope s).local? name = none → v = st.vars.length ∧
    (∀ t other, st.find? t other ≠ .ok (some v))
    ∧ st'.vars = st.vars ++ [{ name := name, value := .zero (st.scope s).mode }]
  restored : (st.scope s).local? name = none →
    (st'.remove s name).1 = some v ∧ ∀ t other, (st'.remove s name).2.find? t other =
      st.find? t other

structure Finds (s : ScopeId) (name : String) (st : Store) (v : VariableId) (st' : Store) :
    Prop where
  found : st'.find? s name = .ok (some v)
  again : st'.lookUp s name = .ok (v, st')
  frames : Frames s name st st'
  known : ∀ w, st.find? s name = .ok (some w) → v = w ∧ st' = st
  new : st' ≠ st →
    (∀ c, st.Ascends s c → ∀ t ∈ c, (st.scope t).local? name = none) ∧ st.create s name = (v, st')

theorem creates_create (ends : ∀ t, st.Ends t) (named : st.IsNamed) (exist : s < st.scopes.length)
    (made : st.create s name = (v, st')) : Creates s name st v st' := by
  obtain ⟨found, again⟩ := create_again exist made
  have edit := local_create st s name
  rw [made] at edit
  refine ⟨found, again, edit.frames ends, fun w known => ?_, fun new => ?_, fun new => ⟨?_, ?_⟩⟩
  · rw [create_of_local? known] at made
    obtain ⟨rfl, rfl⟩ := Prod.mk.inj made
    exact ⟨rfl, rfl⟩
  · rw [create_eq new] at made
    obtain ⟨rfl, rfl⟩ := Prod.mk.inj made
    exact ⟨rfl, named.not_found, rfl⟩
  · rw [create_eq new] at made
    obtain ⟨rfl, rfl⟩ := Prod.mk.inj made
    exact local?_extended exist new
  · have restored := find?_remove_create exist new
    rwa [made] at restored

theorem finds_lookUp (ends : ∀ t, st.Ends t) (exist : s < st.scopes.length)
    (h : st.lookUp s name = .ok (v, st')) : Finds s name st v st' := by
  have found := find?_lookUp exist h
  refine ⟨found, lookUp_of_find? found, (local_lookUp h).frames ends, fun w known => ?_,
    fun changed => ?_⟩
  · rw [lookUp_of_find? known] at h
    obtain ⟨rfl, rfl⟩ := Prod.mk.inj (Except.ok.inj h)
    exact ⟨rfl, rfl⟩
  · rcases lookUp_cases h with ⟨_, same⟩ | ⟨new, _, made⟩
    · exact absurd same changed
    · refine ⟨fun c chain => ?_, made⟩
      rw [chain.find?, Except.ok.injEq, List.findSome?_eq_none_iff] at new
      exact new

/-- The frame of the operations on names. Creating a name and looking it up give the variable that
is found afterwards, and change nothing when repeated; creating looks at the scope alone, and
looking up creates only what no scope of the chain defines. A strict scope that lacks the name
changes nothing. No operation changes what a name means in a scope unless it is the name that was
asked for, and the scope sees it in the scope that was asked. -/
theorem frames_operations (reached : Reached p st) (ends : ∀ t, ∃ c, st.Ascends t c)
    (exist : s < st.scopes.length) (name : String) :
    (∃ v st', st.create s name = (v, st') ∧ Creates s name st v st')
    ∧ (((st.scope s).isStrict = false ∨ ∃ w, st.find? s name = .ok (some w)) →
        ∃ v st', st.lookUp s name = .ok (v, st') ∧ Finds s name st v st')
    ∧ ((st.scope s).isStrict = true → (∀ w, st.find? s name ≠ .ok (some w)) →
        st.lookUp s name = .error (.unknownVariable name) ∧ st.after p (.lookUp s name) = st)
    ∧ (st.remove s name).1 = (st.scope s).local? name ∧ Frames s name st (st.remove s name).2 := by
  obtain ⟨-, -, named⟩ := reached.isSound
  obtain ⟨w, search⟩ := Ends.find? (ends s) name
  refine ⟨⟨_, _, rfl, creates_create ends named exist rfl⟩, fun allowed => ?_,
    fun strict unknown => ?_, rfl, ?_⟩
  · obtain ⟨v, st', found⟩ := (lookUp_isOk st s name).mpr ⟨w, search, fun strict => by
      obtain ⟨u, found⟩ := allowed.resolve_left (by simp [strict])
      rw [Except.ok.inj (search.symm.trans found)]
      rfl⟩
    exact ⟨v, st', found, finds_lookUp ends exist found⟩
  · have absent : w = none :=
      Option.eq_none_iff_forall_ne_some.mpr fun u here => unknown u (here ▸ search)
    have fails : st.lookUp s name = .error (.unknownVariable name) := by
      simp only [lookUp, search, absent, strict, if_true]
    have ran : (Operation.lookUp s name).run? p st = .error (.unknownVariable name) := by
      rw [Operation.run?, fails]
      rfl
    exact ⟨fails, after_eq_error ran⟩
  · exact (local_remove st s name).frames ends

theorem Arises.reached (h : Arises p st) : Reached p st := by
  induction h with
  | empty => exact .empty
  | step _ known _ ih => exact ih.step known

/-- Three scopes in a chain, of which the lower two define one name. A new name in the middle one is
seen from the lowest one, which does not notice that the other name is removed there. -/
theorem frames_operations_shadowed : Reached 53 shadowed ∧ (∀ t, ∃ c, shadowed.Ascends t c) ∧
    1 < shadowed.scopes.length ∧
    (∃ v st', shadowed.create 1 "z" = (v, st') ∧ Creates 1 "z" shadowed v st' ∧
      st'.find? 2 "z" = .ok (some v)) ∧
    (∃ v st', shadowed.lookUp 1 "x" = .ok (v, st') ∧ Finds 1 "x" shadowed v st') ∧
    Frames 1 "x" shadowed (shadowed.remove 1 "x").2 ∧ (shadowed.remove 1 "x").2.find? 1 "x" =
      .ok none ∧
    (shadowed.remove 1 "x").2.find? 2 "x" = shadowed.find? 2 "x" := by
  have first := Arises.empty.step (p := 53) (o := .newScope none .float) (by decide) (by decide)
  have second := first.step (o := .newScope none .float) (by decide) (by decide)
  have below := second.step (o := .setParent 2 (some 1)) (by decide) (by decide)
  have upper := below.step (o := .create 1 "x") (by decide) (by decide)
  have lower := upper.step (o := .create 2 "x") (by decide) (by decide)
  have more := lower.step (o := .create 2 "y") (by decide) (by decide)
  have arises : Arises 53 shadowed := more.step (o := .remove 2 "y") (by decide) (by decide)
  have ends := arises.isForest.ends
  obtain ⟨⟨v, st', made, creates⟩, -⟩ :=
    frames_operations arises.reached ends (by decide : 1 < shadowed.scopes.length) "z"
  obtain ⟨-, finds, -, -, frames⟩ :=
    frames_operations arises.reached ends (by decide : 1 < shadowed.scopes.length) "x"
  have seen : (shadowed.create 1 "z").2.find? 2 "z" = .ok (some (shadowed.create 1 "z").1) := by
    decide
  rw [made] at seen
  exact ⟨arises.reached, ends,
    by decide, ⟨v, st', made, creates, seen⟩, finds (.inl (by decide)), frames, by decide,
    by decide⟩

end Formula.Store
