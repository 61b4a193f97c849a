import Formula.Proofs.Store.Constants

/-! Chains of scopes. A scope may be put below any other scope but itself, also below one that lies
below it. As long as that does not happen, every chain of parents ends at a scope without a parent,
so that looking up a name comes to an end, and so does collecting all names that can be seen. -/
namespace Formula.Store

variable {p : Nat} {st st' : Store} {s t u : ScopeId} {c c' : List ScopeId} {name : String}

structure IsLinked (st : Store) : Prop where
  within : ∀ s t, (st.scope s).parent = some t → t < st.scopes.length
  roots : ∀ m r, st.root? m = some r → r < st.scopes.length

/-- Parents and root scopes are scopes of the store, and all chains end. -/
structure IsForest (st : Store) : Prop extends IsLinked st where
  ends : ∀ s, st.Ends s

theorem scope_addScope (st : Store) (x : Scope) (u : ScopeId) :
    (st.addScope x).2.scope u = if u = st.scopes.length then x else st.scope u := by
  simp only [scope, addScope, List.getD_eq_getElem?_getD, List.getElem?_append]
  rcases Nat.lt_trichotomy u st.scopes.length with less | same | more
  · simp [less, Nat.ne_of_lt less]
  · simp [same]
  · have beyond : ¬ u < st.scopes.length := Nat.not_lt.mpr (Nat.le_of_lt more)
    have empty : [x][u - st.scopes.length]? = none := by
      rw [List.getElem?_eq_none_iff]
      simp only [List.length_singleton]
      omega
    simp [beyond, Nat.ne_of_gt more, empty]

theorem parent_putScope (st : Store) {x : Scope}
    (same : x.parent = (st.scope s).parent) (u : ScopeId) :
    ((st.putScope s x).scope u).parent = (st.scope u).parent := by
  rw [scope_putScope]
  split
  · rename_i here
    rw [same, here.1]
  · rfl

namespace IsLinked

theorem empty : IsLinked {} := by
  constructor
  · intro s t above
    simp [scope, default, instInhabitedScope.default] at above
  · intro m r root
    cases m <;> cases root

theorem of_parents (linked : st.IsLinked) (count : st'.scopes.length = st.scopes.length)
    (parents : ∀ s, (st'.scope s).parent = (st.scope s).parent)
    (roots : ∀ m, st'.root? m = st.root? m) :
    st'.IsLinked := by
  constructor
  · intro s t above
    rw [count]
    exact linked.within s t (parents s ▸ above)
  · intro m r root
    rw [count]
    exact linked.roots m r (roots m ▸ root)

theorem below (linked : st.IsLinked) (exist : s < st.scopes.length) (h : st.Ascends s c) :
    ∀ u ∈ c, u < st.scopes.length := by
  induction h with
  | top => exact List.forall_mem_singleton.mpr exist
  | up above _ ih => exact List.forall_mem_cons.mpr ⟨exist, ih (linked.within _ _ above)⟩

theorem addScope (linked : st.IsLinked) {x : Scope}
    (known : ∀ t, x.parent = some t → t < st.scopes.length) : (st.addScope x).2.IsLinked := by
  have count : (st.addScope x).2.scopes.length = st.scopes.length + 1 := by simp [Store.addScope]
  constructor
  · intro s t above
    rw [count]
    rw [scope_addScope] at above
    split at above
    · exact Nat.lt_succ_of_lt (known t above)
    · exact Nat.lt_succ_of_lt (linked.within s t above)
  · intro m r root
    rw [count]
    have same : (st.addScope x).2.root? m = st.root? m := by cases m <;> rfl
    exact Nat.lt_succ_of_lt (linked.roots m r (same ▸ root))

theorem putRoot (linked : st.IsLinked) (m : Mode) (exist : s < st.scopes.length) :
    (st.putRoot m s).IsLinked := by
  have scopes : (st.putRoot m s).scopes = st.scopes := by cases m <;> rfl
  have same (u : ScopeId) : (st.putRoot m s).scope u = st.scope u := by rw [scope, scopes, scope]
  constructor
  · intro u t above
    rw [scopes]
    exact linked.within u t (same u ▸ above)
  · intro m' r root
    rw [scopes]
    by_cases mode : m' = m
    · subst mode
      have here : (st.putRoot m' s).root? m' = some s := by cases m' <;> rfl
      exact Option.some.inj (here.symm.trans root) ▸ exist
    · have other : (st.putRoot m s).root? m' = st.root? m' := by
        cases m <;> cases m' <;> first | rfl | exact absurd rfl mode
      exact linked.roots m' r (other ▸ root)

end IsLinked

/-- A property that scopes may have together, whatever their names are, and that new scopes leave as
it is. -/
structure IsStable (P : Store → Prop) : Prop where
  linked : ∀ {st}, P st → st.IsLinked
  ofParents : ∀ {st st'}, P st → st'.scopes.length = st.scopes.length →
    (∀ s, (st'.scope s).parent = (st.scope s).parent) → (∀ m, st'.root? m = st.root? m) → P st'
  addScope : ∀ {st x}, P st → (∀ t, x.parent = some t → t < st.scopes.length) → P (st.addScope x).2
  putRoot : ∀ {st s}, P st → ∀ m, s < st.scopes.length → P (st.putRoot m s)

theorem isStable_linked : IsStable IsLinked where
  linked h := h
  ofParents h := h.of_parents
  addScope h := h.addScope
  putRoot h := h.putRoot

theorem isStable_forest : IsStable IsForest where
  linked h := h.toIsLinked
  ofParents forest count parents roots :=
    ⟨forest.of_parents count parents roots, fun s => (forest.ends s).congr parents⟩
  addScope := by
    intro st x forest known
    -- Old chains stay as they are, and the new scope stands below one of them.
    have old {s : ScopeId} (exist : s < st.scopes.length) : (st.addScope x).2.Ends s := by
      obtain ⟨c, chain⟩ := forest.ends s
      refine ⟨c, chain.congr fun u member => ?_⟩
      rw [scope_addScope, if_neg (Nat.ne_of_lt (forest.below exist chain u member))]
    apply IsForest.mk (forest.toIsLinked.addScope known)
    intro s
    cases above : ((st.addScope x).2.scope s).parent with
    | none => exact ⟨[s], .top above⟩
    | some t =>
      have exist : t < st.scopes.length := by
        rw [scope_addScope] at above
        split at above
        · exact known t above
        · exact forest.within s t above
      obtain ⟨c, chain⟩ := old exist
      exact ⟨s :: c, .up above chain⟩
  putRoot := by
    intro st s forest m exist
    apply IsForest.mk (forest.toIsLinked.putRoot m exist)
    exact fun u => (forest.ends u).congr fun w => by cases m <;> rfl

theorem IsForest.empty : IsForest {} := ⟨.empty, fun s => ⟨[s], .top rfl⟩⟩

namespace IsStable

variable {P : Store → Prop} (stable : IsStable P)

include stable

theorem root (h : P st) (p : Nat) (m : Mode) :
    P (st.root p m).2 ∧ (st.root p m).1 < (st.root p m).2.scopes.length := by
  unfold Store.root
  split
  · rename_i r known
    exact ⟨h, (stable.linked h).roots m r known⟩
  · have constants : P ((st.addVariable ⟨"pi", rootConstant p .pi m, true⟩).2.addVariable
        ⟨"euler", rootConstant p .e m, true⟩).2 :=
      stable.ofParents h rfl (fun _ => rfl) (fun m => by cases m <;> rfl)
    constructor
    · apply stable.putRoot
      · apply stable.addScope constants
        simp
      · simp [Store.addScope]
    · cases m <;> simp [Store.addScope, Store.addVariable, Store.putRoot]

theorem newScope (h : P st) (p : Nat) {parent : Option ScopeId}
    (known : ∀ t, parent = some t → t < st.scopes.length) (m : Mode) :
    P (st.newScope p parent m).2 := by
  cases parent with
  | some t =>
    apply stable.addScope h
    intro u same
    exact known u same
  | none =>
    obtain ⟨rooted, exist⟩ := stable.root h p m
    apply stable.addScope rooted
    intro u same
    exact Option.some.inj same ▸ exist

theorem putScope (h : P st) {x : Scope} (same : x.parent = (st.scope s).parent) :
    P (st.putScope s x) := by
  apply stable.ofParents h
  · simp [Store.putScope]
  · exact parent_putScope st same
  · intro m
    cases m <;> rfl

theorem create (h : P st) (s : ScopeId) (name : String) : P (st.create s name).2 := by
  cases found : (st.scope s).local? name with
  | some v =>
    simp only [Store.create, found]
    exact h
  | none =>
    rw [create_eq found]
    have grown : P (st.addVariable { name := name, value := .zero (st.scope s).mode }).2 :=
      stable.ofParents h rfl (fun _ => rfl) (fun m => by cases m <;> rfl)
    exact stable.putScope grown rfl

theorem lookUp (h : P st) {v : VariableId} (found : st.lookUp s name = .ok (v, st')) : P st' := by
  rcases lookUp_cases found with ⟨_, rfl⟩ | ⟨_, _, made⟩
  · exact h
  · exact (Prod.mk.inj made).2 ▸ stable.create h s name

theorem putVariable (h : P st) (v : VariableId) (x : Variable) : P (st.putVariable v x) :=
  stable.ofParents h rfl (fun _ => rfl) (fun m => by cases m <;> rfl)

end IsStable

section SetParent

def taken (p : Nat) (st : Store) (s : ScopeId) : Option ScopeId → ScopeId × Store
  | some t => (t, st)
  | none => st.root p (st.scope s).mode

def adopted (st : Store) (s t : ScopeId) : Store :=
  st.putScope s { st.scope s with parent := some t }

theorem setParent_eq (p : Nat) (st : Store) (s : ScopeId) (parent : Option ScopeId) :
    st.setParent p s parent =
      if (st.taken p s parent).1 = s then .error .ownParent
      else if ((st.taken p s parent).2.scope (st.taken p s parent).1).mode ≠ (st.scope s).mode then
        .error (.mixedModes ((st.taken p s parent).2.scope (st.taken p s parent).1).mode
          (st.scope s).mode)
      else .ok ((st.taken p s parent).2.adopted s (st.taken p s parent).1) := by
  cases parent <;> rfl

theorem setParent_eq_ok {parent : Option ScopeId} (h : st.setParent p s parent = .ok st') :
    (st.taken p s parent).1 ≠ s ∧
    st' = (st.taken p s parent).2.adopted s (st.taken p s parent).1 := by
  rw [setParent_eq] at h
  split at h
  · cases h
  · rename_i other
    split at h
    · cases h
    · exact ⟨other, (Except.ok.inj h).symm⟩

theorem parent_adopted (exist : s < st.scopes.length) (t u : ScopeId) :
    ((st.adopted s t).scope u).parent = if s = u then some t else (st.scope u).parent := by
  rw [adopted, scope_putScope]
  split
  · rename_i here
    rw [if_pos here.1]
  · rename_i other
    rw [if_neg fun same => other ⟨same, exist⟩]

theorem Ascends.adopted (exist : s < st.scopes.length) (above : st.Ascends t c) (free : s ∉ c)
    (h : st.Ascends u c') : (st.adopted s t).Ends u := by
  have here : (st.adopted s t).Ends s := by
    have onward : (st.adopted s t).Ascends t c := by
      apply above.congr
      intro w member
      have other : s ≠ w := by
        rintro rfl
        exact free member
      rw [parent_adopted exist, if_neg other]
    exact ⟨s :: c, .up (by rw [parent_adopted exist, if_pos rfl]) onward⟩
  induction h with
  | @top u alone =>
    by_cases same : s = u
    · exact same ▸ here
    · exact ⟨[u], .top (by rw [parent_adopted exist, if_neg same, alone])⟩
  | @up u w c' next more ih =>
    by_cases same : s = u
    · exact same ▸ here
    · obtain ⟨c'', rest⟩ := ih
      exact ⟨u :: c'', .up (by rw [parent_adopted exist, if_neg same, next]) rest⟩

theorem Ascends.mem_adopted (exist : s < st.scopes.length) (h : st.Ascends u c) (member : s ∈ c)
    (h' : (st.adopted s t).Ascends u c') : s ∈ c' := by
  induction h generalizing c' with
  | @top u alone =>
    obtain ⟨rest, rfl⟩ := h'.cons
    rw [List.mem_singleton.mp member]
    exact List.mem_cons_self
  | @up u w c next more ih =>
    obtain ⟨rest, rfl⟩ := h'.cons
    by_cases same : s = u
    · exact same ▸ List.mem_cons_self
    · have onward : (st.adopted s t).Ascends w rest := by
        apply h'.parent
        rw [parent_adopted exist, if_neg same, next]
      exact List.mem_cons_of_mem _ (ih ((List.mem_cons.mp member).resolve_left same) onward)

theorem not_ascends_adopted (exist : s < st.scopes.length) (above : st.Ascends t c)
    (member : s ∈ c) :
    ¬ (st.adopted s t).Ascends s c' := by
  intro chain
  obtain ⟨rest, rfl⟩ := chain.cons
  have onward : (st.adopted s t).Ascends t rest :=
    chain.parent (by rw [parent_adopted exist, if_pos rfl])
  exact (List.nodup_cons.mp chain.nodup).1 (above.mem_adopted exist member onward)

theorem IsLinked.adopted (linked : st.IsLinked) (exist : s < st.scopes.length)
    (known : t < st.scopes.length) : (st.adopted s t).IsLinked := by
  have count : (st.adopted s t).scopes.length = st.scopes.length := by
    simp [Store.adopted, Store.putScope]
  constructor
  · intro u w above
    rw [count]
    rw [parent_adopted exist] at above
    split at above
    · exact Option.some.inj above ▸ known
    · exact linked.within u w above
  · intro m r root
    rw [count]
    have same : (st.adopted s t).root? m = st.root? m := by cases m <;> rfl
    exact linked.roots m r (same ▸ root)

theorem IsForest.adopted (forest : st.IsForest) (exist : s < st.scopes.length)
    (known : t < st.scopes.length)
    (above : st.Ascends t c) (free : s ∉ c) : (st.adopted s t).IsForest := by
  apply IsForest.mk (forest.toIsLinked.adopted exist known)
  intro u
  obtain ⟨c', chain⟩ := forest.ends u
  exact above.adopted exist free chain

end SetParent

def Operation.scopes : Operation → List ScopeId
  | .root _ | .setValue _ _ | .fix _ _ => []
  | .newScope parent _ => parent.toList
  | .create s _ | .lookUp s _ | .remove s _ | .setStrict s _ => [s]
  | .setParent s parent => s :: parent.toList

def Operation.IsKnown (st : Store) (o : Operation) : Prop := ∀ s ∈ o.scopes, s < st.scopes.length

instance (st : Store) (o : Operation) : Decidable (o.IsKnown st) :=
  inferInstanceAs (Decidable (∀ s ∈ o.scopes, s < st.scopes.length))

/-- Whether the operation puts a scope below one that lies below it, the other scope being no other
than the parent that was asked for. -/
def Operation.closes (p : Nat) (st : Store) : Operation → Bool
  | .setParent s parent =>
    (st.setParent p s parent).isOk &&
      ((st.taken p s parent).2.chain? (st.taken p s parent).1).any (·.contains s)
  | _ => false

/-- The stores that operations lead to which close no chain. -/
inductive Arises (p : Nat) : Store → Prop
  | empty : Arises p {}
  | step {st : Store} {o : Operation} (arises : Arises p st) (known : o.IsKnown st)
      (opens : o.closes p st = false) : Arises p (st.after p o)

section After

variable {o : Operation}

theorem ok_of_map {ε α β : Type} {f : α → β} {x : Except ε α} {b : β} (h : x.map f = .ok b) :
    ∃ a, x = .ok a ∧ f a = b := by
  cases x with
  | error e => cases h
  | ok a => exact ⟨a, rfl, Except.ok.inj h⟩

theorem after_eq_ok (h : o.run? p st = .ok st') : st.after p o = st' := by
  rw [after, h]
  rfl

theorem after_eq_error {f : Fault} (h : o.run? p st = .error f) : st.after p o = st := by
  rw [after, h]
  rfl

theorem length_le_root (p : Nat) (m : Mode) : st.scopes.length ≤ (st.root p m).2.scopes.length := by
  unfold Store.root
  split
  · exact Nat.le_refl _
  · cases m <;> simp [Store.addScope, Store.addVariable, Store.putRoot]

section Stable

variable {P : Store → Prop} (stable : IsStable P)

include stable

theorem IsStable.taken (h : P st) {parent : Option ScopeId}
    (known : (Operation.setParent s parent).IsKnown st) :
    P (st.taken p s parent).2 ∧ s < (st.taken p s parent).2.scopes.length ∧
      (st.taken p s parent).1 < (st.taken p s parent).2.scopes.length := by
  have exist : s < st.scopes.length := known s List.mem_cons_self
  cases parent with
  | some t => exact ⟨h, exist, known t (by simp [Operation.scopes])⟩
  | none =>
    obtain ⟨rooted, found⟩ := stable.root h p (st.scope s).mode
    exact ⟨rooted, Nat.lt_of_lt_of_le exist (length_le_root p _), found⟩

theorem IsStable.run (h : P st) (known : o.IsKnown st)
    (set : ∀ s parent, o = .setParent s parent → st.setParent p s parent = .ok st' → P st')
    (ran : o.run? p st = .ok st') : P st' := by
  cases o with
  | root m => exact Except.ok.inj ran ▸ (stable.root h p m).1
  | newScope parent m =>
    obtain rfl := Except.ok.inj ran
    exact stable.newScope h p (fun t same => known t (by simp [Operation.scopes, same])) m
  | create s name => exact Except.ok.inj ran ▸ stable.create h s name
  | remove s name => exact Except.ok.inj ran ▸ stable.putScope h rfl
  | setStrict s strict => exact Except.ok.inj ran ▸ stable.putScope h rfl
  | setParent s parent => exact set s parent rfl ran
  | lookUp s name =>
    obtain ⟨⟨v, st₁⟩, found, rfl⟩ := ok_of_map ran
    exact stable.lookUp h found
  | setValue v a =>
    obtain ⟨x, _, rfl⟩ := ok_of_map ran
    exact stable.putVariable h v x
  | fix v a =>
    obtain ⟨x, _, rfl⟩ := ok_of_map ran
    exact stable.putVariable h v x

end Stable

theorem IsLinked.after (linked : st.IsLinked) (known : o.IsKnown st) : (st.after p o).IsLinked := by
  cases ran : o.run? p st with
  | error f =>
    rw [after_eq_error ran]
    exact linked
  | ok st' =>
    rw [after_eq_ok ran]
    apply isStable_linked.run linked known _ ran
    rintro s parent rfl set
    obtain ⟨rooted, exist, found⟩ := isStable_linked.taken (p := p) linked known
    obtain ⟨other, rfl⟩ := setParent_eq_ok set
    exact rooted.adopted exist found

/-- All chains end after an operation that closes none. -/
theorem IsForest.after (forest : st.IsForest) (known : o.IsKnown st)
    (opens : o.closes p st = false) : (st.after p o).IsForest := by
  cases ran : o.run? p st with
  | error f =>
    rw [after_eq_error ran]
    exact forest
  | ok st' =>
    rw [after_eq_ok ran]
    apply isStable_forest.run forest known _ ran
    rintro s parent rfl set
    obtain ⟨rooted, exist, found⟩ := isStable_forest.taken (p := p) forest known
    obtain ⟨other, rfl⟩ := setParent_eq_ok set
    obtain ⟨c, above⟩ := rooted.ends (st.taken p s parent).1
    apply rooted.adopted exist found above
    simpa [Operation.closes, set, Except.isOk, Except.toBool, chain?_eq_some_iff.mpr above]
      using opens

theorem IsForest.endless (forest : st.IsForest) (known : o.IsKnown st)
    (closes : o.closes p st = true) :
    ∃ s, ∀ c, ¬ (st.after p o).Ascends s c := by
  cases o with
  | setParent s parent =>
    obtain ⟨rooted, exist, found⟩ := isStable_forest.taken (p := p) forest known
    rw [Operation.closes, Bool.and_eq_true] at closes
    obtain ⟨accepted, member⟩ := closes
    obtain ⟨c', above⟩ := rooted.ends (st.taken p s parent).1
    rw [chain?_eq_some_iff.mpr above] at member
    cases ran : st.setParent p s parent with
    | error f =>
      rw [ran] at accepted
      cases accepted
    | ok st' =>
      obtain ⟨-, rfl⟩ := setParent_eq_ok ran
      refine ⟨s, fun c chain => ?_⟩
      rw [after_eq_ok (o := .setParent s parent) ran] at chain
      exact not_ascends_adopted exist above (List.contains_iff_mem.mp member) chain
  | _ => cases closes

end After

theorem Arises.isForest (h : Arises p st) : st.IsForest := by
  induction h with
  | empty => exact .empty
  | step _ known opens ih => exact ih.after known opens

theorem Ascends.visible (h : st.Ascends s c) : st.visible s = .ok (st.visibleIn c) := by
  rw [Store.visible, chain?_eq_some_iff.mpr h]

/-- As long as no scope is put below one that lies below it, every chain ends at a scope without a
parent, every search for a name comes to an end and so does collecting the names that can be seen;
and the next operation leaves it so exactly if it does not put a scope below one that lies below
it. -/
theorem chains_end (arises : Arises p st) :
    (∀ s, ∃ c, st.chain? s = some c ∧ st.Ascends s c ∧
      (∀ name, ∃ v, st.find? s name = .ok v ∧ st.Searches name s v) ∧
      st.visible s = .ok (st.visibleIn c)) ∧
    ∀ o : Operation, o.IsKnown st →
      ((∀ s, ∃ c, (st.after p o).Ascends s c) ↔ o.closes p st = false) := by
  have forest := arises.isForest
  constructor
  · intro s
    obtain ⟨c, chain⟩ := forest.ends s
    refine ⟨c, chain?_eq_some_iff.mpr chain, chain, fun name => ?_, chain.visible⟩
    exact ⟨_, chain.find? name, chain.searches name⟩
  · intro o known
    constructor
    · intro ends
      apply eq_false_of_ne_true
      intro closes
      obtain ⟨s, endless⟩ := forest.endless known closes
      obtain ⟨c, chain⟩ := ends s
      exact endless c chain
    · intro opens
      exact (forest.after known opens).ends

/-- Three scopes in a chain. The lowest one may not become the parent of the one above it. -/
theorem chains_end_chain : ∃ st, Arises 53 st ∧ st.Ascends 2 [2, 1, 0] ∧
    st.find? 2 "x" = .ok none ∧ st.Searches "x" 2 none ∧
    ∃ o : Operation, ¬ ∀ s, ∃ c, (st.after 53 o).Ascends s c := by
  have first : Arises 53 (({} : Store).after 53 (.newScope none .float)) :=
    .step .empty (by decide) (by decide)
  have second := first.step (o := .newScope none .float) (by decide) (by decide)
  have third := second.step (o := .setParent 2 (some 1)) (by decide) (by decide)
  obtain ⟨ends, onward⟩ := chains_end third
  obtain ⟨c, found, chain, search, -⟩ := ends 2
  obtain rfl : [2, 1, 0] = c := Option.some.inj ((by decide : _ = some [2, 1, 0]).symm.trans found)
  obtain ⟨v, finds, search⟩ := search "x"
  obtain rfl : none = v := Except.ok.inj ((by decide : _ = Except.ok none).symm.trans finds)
  have closing := (onward (.setParent 1 (some 2)) (by decide)).not.mpr (by decide)
  exact ⟨_, third, chain, finds, search, _, closing⟩

/-- The second scope below the third one, which lies below it. -/
def looped : Store :=
  ({} : Store).afterAll 53 [.newScope none .float, .newScope (some 1) .float, .setParent 1 (some 2)]

/-- Two scopes may be put below each other. Neither has an end of parents then, and a search for a
name that they do not define has no end either. -/
theorem endless_loop :
    (({} : Store).afterAll 53 [.newScope none .float, .newScope (some 1) .float]).setParent 53 1
      (some 2) =
      .ok looped ∧
    (∀ c, ¬ looped.Ascends 1 c) ∧ (∀ v, ¬ looped.Searches "x" 1 v) ∧
    looped.find? 1 "x" = .error .endless ∧ looped.visible 1 = .error .tooDeep := by
  have endless : looped.find? 1 "x" = .error .endless := by decide
  refine ⟨by decide, fun c chain => ?_, (find?_eq_error_iff.mp endless).2, endless, by decide⟩
  have found := chain?_eq_some_iff.mpr chain
  rw [show looped.chain? 1 = none by decide] at found
  cases found

end Formula.Store
