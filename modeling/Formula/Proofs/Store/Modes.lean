import Formula.Proofs.Store.Visibility

/-! Numeric modes of scopes. A scope gets its mode when it comes into being and keeps it, whatever
happens to its parent; and a scope only gets a parent that has the same mode. -/
namespace Formula.Store

variable {p : Nat} {st st' st₁ : Store} {s t : ScopeId} {name : String} {v : VariableId} {x : Scope}
  {parent : Option ScopeId}

theorem scope_of_scopes (same : st'.scopes = st.scopes) (s : ScopeId) :
    st'.scope s = st.scope s := by
  rw [scope, same, scope]

theorem mode_putScope (mode : x.mode = (st.scope s).mode) (u : ScopeId) :
    ((st.putScope s x).scope u).mode = (st.scope u).mode := by
  rw [scope_putScope]
  split
  · rename_i here
    rw [mode, here.1]
  · rfl

theorem root_cases (p : Nat) (m : Mode) (st : Store) :
    (∃ r, st.root? m = some r ∧ st.root p m = (r, st)) ∨
    (st.root? m = none ∧ (st.root p m).1 = st.scopes.length ∧
      (∃ x : Scope, x.parent = none ∧ x.mode = m ∧
        (st.root p m).2.scopes = (st.addScope x).2.scopes) ∧
      ∀ m', (st.root p m).2.root? m' = if m' = m then some st.scopes.length else st.root? m') := by
  cases known : st.root? m with
  | some r => exact .inl ⟨r, rfl, by simp only [root, known]⟩
  | none =>
    right
    simp only [root, known]
    let x : Scope :=
      { parent := none, mode := m, entries := [("pi", st.vars.length),
        ("euler", st.vars.length + 1)] }
    refine ⟨trivial, rfl, ⟨x, rfl, rfl, ?_⟩, fun m' => ?_⟩
    · cases m <;> simp [x, addVariable, addScope, putRoot]
    · cases m <;> cases m' <;> rfl

/-- The scopes of the first store have their modes in the second one. -/
structure KeepsModes (st st' : Store) : Prop where
  count : st.scopes.length ≤ st'.scopes.length
  modes : ∀ s < st.scopes.length, (st'.scope s).mode = (st.scope s).mode

namespace KeepsModes

theorem refl (st : Store) : KeepsModes st st := ⟨Nat.le_refl _, fun _ _ => rfl⟩

theorem trans (h : KeepsModes st st₁) (h' : KeepsModes st₁ st') : KeepsModes st st' where
  count := Nat.le_trans h.count h'.count
  modes s exist := (h'.modes s (Nat.lt_of_lt_of_le exist h.count)).trans (h.modes s exist)

theorem of_scopes (same : st'.scopes = st.scopes) : KeepsModes st st' where
  count := Nat.le_of_eq (by rw [same])
  modes s _ := by rw [scope_of_scopes same]

theorem addScope (st : Store) (x : Scope) : KeepsModes st (st.addScope x).2 where
  count := by simp [Store.addScope]
  modes s exist := by rw [scope_addScope, if_neg (Nat.ne_of_lt exist)]

theorem putScope (mode : x.mode = (st.scope s).mode) : KeepsModes st (st.putScope s x) where
  count := by simp [Store.putScope]
  modes u _ := mode_putScope mode u

theorem root (st : Store) (p : Nat) (m : Mode) : KeepsModes st (st.root p m).2 := by
  rcases root_cases p m st with ⟨r, _, known⟩ | ⟨_, _, ⟨x, _, _, scopes⟩, _⟩
  · rw [known]
    exact refl st
  · exact (addScope st x).trans (of_scopes scopes)

theorem newScope (st : Store) (p : Nat) (parent : Option ScopeId) (m : Mode) :
    KeepsModes st (st.newScope p parent m).2 := by
  cases parent with
  | some t => exact addScope st _
  | none => exact (root st p m).trans (addScope _ _)

theorem create (st : Store) (s : ScopeId) (name : String) : KeepsModes st (st.create s name).2 := by
  cases found : (st.scope s).local? name with
  | some v =>
    simp only [Store.create, found]
    exact refl st
  | none =>
    rw [create_eq found]
    have grown : KeepsModes st
        (st.addVariable { name := name, value := .zero (st.scope s).mode }).2 := of_scopes rfl
    exact grown.trans (putScope rfl)

theorem taken (p : Nat) (st : Store) (s : ScopeId) (parent : Option ScopeId) :
    KeepsModes st (st.taken p s parent).2 := by
  cases parent with
  | some t => exact refl st
  | none => exact root st p _

theorem change (h : Changes p st st') : KeepsModes st st' := by
  cases h with
  | root m => exact root st p m
  | newScope parent m => exact newScope st p parent m
  | create s name => exact create st s name
  | lookUp found =>
    rcases lookUp_cases found with ⟨_, rfl⟩ | ⟨_, _, made⟩
    · exact refl _
    · exact (Prod.mk.inj made).2 ▸ create st _ _
  | remove s name => exact putScope rfl
  | setStrict s strict => exact putScope rfl
  | setParent set =>
    obtain ⟨_, rfl⟩ := setParent_eq_ok set
    exact (taken p st _ _).trans (putScope rfl)
  | setValue set | fix set =>
    obtain ⟨x, _, rfl⟩ := ok_of_map set
    exact of_scopes rfl

theorem after (p : Nat) (st : Store) (o : Operation) : KeepsModes st (st.after p o) := by
  rcases changes_after p st o with changes | same
  · exact change changes
  · rw [same]
    exact refl st

end KeepsModes

/-- A scope has the mode of its parent, and a root scope the mode of which it is the root. -/
structure ModesAgree (st : Store) : Prop where
  parents : ∀ s t, (st.scope s).parent = some t → (st.scope t).mode = (st.scope s).mode
  roots : ∀ m r, st.root? m = some r → (st.scope r).mode = m

namespace ModesAgree

theorem empty : ModesAgree {} := by
  constructor
  · intro s t above
    simp [scope, default, instInhabitedScope.default] at above
  · intro m r root
    cases m <;> cases root

theorem of_scopes (agree : st.ModesAgree) (same : st'.scopes = st.scopes)
    (roots : ∀ m, st'.root? m = st.root? m) :
    st'.ModesAgree := by
  constructor
  · intro s t above
    rw [scope_of_scopes same] at above
    rw [scope_of_scopes same, scope_of_scopes same]
    exact agree.parents s t above
  · intro m r root
    rw [scope_of_scopes same]
    exact agree.roots m r (roots m ▸ root)

theorem putScope (agree : st.ModesAgree) (mode : x.mode = (st.scope s).mode)
    (parents : ∀ t, x.parent = some t → (st.scope t).mode = x.mode) :
    (st.putScope s x).ModesAgree := by
  constructor
  · intro u t above
    rw [mode_putScope mode, mode_putScope mode]
    rw [scope_putScope] at above
    split at above
    · rename_i here
      rw [parents t above, mode, here.1]
    · exact agree.parents u t above
  · intro m r root
    rw [mode_putScope mode]
    have same : (st.putScope s x).root? m = st.root? m := by cases m <;> rfl
    exact agree.roots m r (same ▸ root)

theorem addScope (agree : st.ModesAgree) (linked : st.IsLinked)
    (parents : ∀ t, x.parent = some t → t < st.scopes.length ∧ (st.scope t).mode = x.mode) :
    (st.addScope x).2.ModesAgree := by
  have old (u : ScopeId) (exist : u < st.scopes.length) :
      (st.addScope x).2.scope u = st.scope u := by
    rw [scope_addScope, if_neg (Nat.ne_of_lt exist)]
  constructor
  · intro u t above
    rw [scope_addScope] at above ⊢
    by_cases new : u = st.scopes.length
    · rw [if_pos new] at above
      obtain ⟨exist, same⟩ := parents t above
      rw [scope_addScope, if_pos new, if_neg (Nat.ne_of_lt exist), same]
    · rw [if_neg new] at above
      rw [scope_addScope, if_neg new, if_neg (Nat.ne_of_lt (linked.within u t above))]
      exact agree.parents u t above
  · intro m r root
    have same : (st.addScope x).2.root? m = st.root? m := by cases m <;> rfl
    rw [same] at root
    rw [old r (linked.roots m r root)]
    exact agree.roots m r root

theorem root (agree : st.ModesAgree) (linked : st.IsLinked) (p : Nat) (m : Mode) :
    (st.root p m).2.ModesAgree ∧ ((st.root p m).2.scope (st.root p m).1).mode = m := by
  rcases root_cases p m st with ⟨r, known, same⟩ | ⟨_, new, ⟨x, alone, mode, scopes⟩, roots⟩
  · rw [same]
    exact ⟨agree, agree.roots m r known⟩
  · have grown : (st.addScope x).2.ModesAgree :=
      agree.addScope linked fun t above => by simp [alone] at above
    have here : ((st.root p m).2.scope st.scopes.length).mode = m := by
      rw [scope_of_scopes scopes, scope_addScope, if_pos rfl, mode]
    refine ⟨⟨fun s t above => ?_, fun m' r root => ?_⟩, new ▸ here⟩
    · rw [scope_of_scopes scopes] at above
      rw [scope_of_scopes scopes, scope_of_scopes scopes]
      exact grown.parents s t above
    · rw [roots] at root
      split at root
      · rename_i same
        rw [← Option.some.inj root, here, same]
      · rw [scope_of_scopes scopes]
        have old : (st.addScope x).2.root? m' = st.root? m' := by cases m' <;> rfl
        exact grown.roots m' r (old ▸ root)

theorem newScope (agree : st.ModesAgree) (linked : st.IsLinked)
    (known : ∀ t, parent = some t → t < st.scopes.length)
    (p : Nat) (m : Mode) : (st.newScope p parent m).2.ModesAgree := by
  cases parent with
  | some t =>
    apply agree.addScope linked
    intro u same
    obtain rfl := Option.some.inj same
    exact ⟨known t rfl, rfl⟩
  | none =>
    obtain ⟨rooted, mode⟩ := agree.root linked p m
    obtain ⟨linked', exist⟩ := isStable_linked.root linked p m
    apply rooted.addScope linked'
    intro u same
    obtain rfl := Option.some.inj same
    exact ⟨exist, mode⟩

theorem create (agree : st.ModesAgree) (s : ScopeId) (name : String) :
    (st.create s name).2.ModesAgree := by
  cases found : (st.scope s).local? name with
  | some v =>
    simp only [Store.create, found]
    exact agree
  | none =>
    rw [create_eq found]
    have grown : (st.addVariable { name := name, value := .zero (st.scope s).mode }).2.ModesAgree :=
      agree.of_scopes rfl fun m => by cases m <;> rfl
    exact grown.putScope rfl (agree.parents s)

theorem taken (agree : st.ModesAgree) (linked : st.IsLinked) (p : Nat) (s : ScopeId)
    (parent : Option ScopeId) : (st.taken p s parent).2.ModesAgree := by
  cases parent with
  | some t => exact agree
  | none => exact (agree.root linked p _).1

theorem setParent (agree : st.ModesAgree) (linked : st.IsLinked) (exist : s < st.scopes.length)
    (set : st.setParent p s parent = .ok st') : st'.ModesAgree := by
  rw [setParent_eq] at set
  split at set
  · cases set
  · split at set
    · cases set
    · rename_i mode
      rw [not_not] at mode
      obtain rfl := Except.ok.inj set
      refine (agree.taken linked p s parent).putScope (x := { (st.taken p s parent).2.scope s with
        parent := some (st.taken p s parent).1 }) rfl ?_
      intro t same
      obtain rfl := Option.some.inj same
      exact mode.trans ((KeepsModes.taken p st s parent).modes s exist).symm

theorem change (agree : st.ModesAgree) (linked : st.IsLinked) {o : Operation} (known : o.IsKnown st)
    (ran : o.run? p st = .ok st') : st'.ModesAgree := by
  cases o with
  | root m => exact Except.ok.inj ran ▸ (agree.root linked p m).1
  | newScope parent m =>
    obtain rfl := Except.ok.inj ran
    exact agree.newScope linked (fun t same => known t (by simp [Operation.scopes, same])) p m
  | create s name => exact Except.ok.inj ran ▸ agree.create s name
  | remove s name => exact Except.ok.inj ran ▸ agree.putScope rfl (agree.parents s)
  | setStrict s strict => exact Except.ok.inj ran ▸ agree.putScope rfl (agree.parents s)
  | setParent s parent => exact agree.setParent linked (known s List.mem_cons_self) ran
  | lookUp s name =>
    obtain ⟨⟨v, st₁⟩, found, rfl⟩ := ok_of_map ran
    rcases lookUp_cases found with ⟨_, rfl⟩ | ⟨_, _, made⟩
    · exact agree
    · exact (Prod.mk.inj made).2 ▸ agree.create s name
  | setValue v a | fix v a =>
    obtain ⟨x, _, rfl⟩ := ok_of_map ran
    exact agree.of_scopes rfl fun m => by cases m <;> rfl

end ModesAgree

/-- Puts a scope below another one step by step. The root scope comes into being before anything is
checked, and what has come into being stays when a check fails. -/
def place (p : Nat) (s : ScopeId) (parent : Option ScopeId) : EStateM Fault Store Unit := do
  let m := ((← get).scope s).mode
  let t ←
    match parent with
    | some t => pure t
    | none => modifyGet (Store.root p m)
  let above := ((← get).scope t).mode
  if t = s then throw .ownParent
  else if above ≠ m then throw (.mixedModes above m)
  else modify (·.adopted s t)

theorem place_eq (p : Nat) (s : ScopeId) (parent : Option ScopeId) (st : Store) :
    place p s parent st =
      if (st.taken p s parent).1 = s then .error .ownParent (st.taken p s parent).2
      else if ((st.taken p s parent).2.scope (st.taken p s parent).1).mode ≠ (st.scope s).mode then
        .error (.mixedModes ((st.taken p s parent).2.scope (st.taken p s parent).1).mode
          (st.scope s).mode) (st.taken p s parent).2
      else .ok () ((st.taken p s parent).2.adopted s (st.taken p s parent).1) := by
  have steps : place p s parent st =
      (if (st.taken p s parent).1 = s then throw .ownParent
        else if
            ((st.taken p s parent).2.scope (st.taken p s parent).1).mode ≠ (st.scope s).mode then
          throw (.mixedModes ((st.taken p s parent).2.scope (st.taken p s parent).1).mode
            (st.scope s).mode)
        else modify (·.adopted s (st.taken p s parent).1) : EStateM Fault Store Unit)
          (st.taken p s parent).2 := by
    cases parent <;> rfl
  rw [steps]
  split
  · rfl
  · split <;> rfl

theorem place_failing (agree : st.ModesAgree) (linked : st.IsLinked) (exist : s < st.scopes.length)
    (parent : Option ScopeId) :
    place p s parent st =
      match st.setParent p s parent with
      | .ok st' => .ok () st'
      | .error f => .error f st := by
  rw [place_eq, setParent_eq]
  cases parent with
  | some t =>
    split
    · rfl
    · split <;> rfl
  | none =>
    have mode : ((st.taken p s none).2.scope (st.taken p s none).1).mode = (st.scope s).mode :=
      (agree.root linked p _).2
    by_cases own : (st.taken p s none).1 = s
    · rw [if_pos own, if_pos own]
      rcases root_cases p (st.scope s).mode st with ⟨r, _, same⟩ | ⟨_, new, _⟩
      · have kept : (st.taken p s none).2 = st := congrArg Prod.snd same
        rw [kept]
      · exact absurd (new.symm.trans own) (Nat.ne_of_gt exist)
    · rw [if_neg own, if_neg own, if_neg (not_not.mpr mode), if_neg (not_not.mpr mode)]

theorem Reached.modesAgree (h : Reached p st) : st.ModesAgree := by
  induction h with
  | empty => exact .empty
  | @step st o reached known ih =>
    cases ran : o.run? p st with
    | error f =>
      rw [after_eq_error ran]
      exact ih
    | ok st' =>
      rw [after_eq_ok ran]
      exact ih.change reached.isSound.linked known ran

theorem made_of_create (made : st.create s name = (v, st')) :
    ((st.scope s).local? name = some v ∧ st' = st) ∨
      (v = st.vars.length ∧
        st'.vars = st.vars ++ [{ name := name, value := .zero (st.scope s).mode }]) := by
  cases found : (st.scope s).local? name with
  | some w =>
    simp only [create, found] at made
    obtain ⟨rfl, rfl⟩ := Prod.mk.inj made
    exact .inl ⟨rfl, rfl⟩
  | none =>
    rw [create_eq found] at made
    obtain ⟨rfl, rfl⟩ := Prod.mk.inj made
    exact .inr ⟨rfl, rfl⟩

/-- Modes never mix. In every store that operations on scopes lead to, a scope has the mode of its
parent, and no operation changes the mode of a scope that is there. What creating or looking up a
name adds, if anything, is one variable that is zero in the mode of the scope. Giving a scope
another parent changes nothing when it fails. -/
theorem modes_stay (reached : Reached p st) :
    (∀ s t, (st.scope s).parent = some t → (st.scope t).mode = (st.scope s).mode) ∧
    (∀ o : Operation, ∀ s < st.scopes.length, ((st.after p o).scope s).mode = (st.scope s).mode) ∧
    (∀ s name v st', st.create s name = (v, st') ∨ st.lookUp s name = .ok (v, st') →
      st' = st ∨ v = st.vars.length ∧
      st'.vars = st.vars ++ [{ name := name, value := .zero (st.scope s).mode }]) ∧
    ∀ s parent, (Operation.setParent s parent).IsKnown st →
      place p s parent st =
        match st.setParent p s parent with
        | .ok st' => .ok () st'
        | .error f => .error f st := by
  have agree := reached.modesAgree
  have kept (o : Operation) := (KeepsModes.after p st o).modes
  refine ⟨agree.parents, kept, fun s name v st' given => ?_, fun s parent known => ?_⟩
  · rcases given with made | found
    · exact (made_of_create made).imp_left And.right
    · rcases lookUp_cases found with ⟨_, same⟩ | ⟨_, _, made⟩
      · exact .inl same
      · exact (made_of_create made).imp_left And.right
  · exact place_failing agree reached.isSound.linked (known s List.mem_cons_self) parent

/-- Scopes of both modes. A scope below a precise one is precise whatever was asked for, its new
variables are precise zeros, and it is not put below a scope of the other mode. -/
def mixed : Store :=
  ({} : Store).afterAll 53 [.newScope none .float, .newScope none .precise,
    .newScope (some 3) .float]

theorem modes_stay_mixed :
    Reached 53 mixed ∧ (mixed.scope 4).parent = some 3 ∧ (mixed.scope 4).mode = .precise ∧
    ((mixed.after 53 (.setParent 4 (some 2))).scope 4).mode = .precise ∧
    (mixed.create 4 "x").2.vars = mixed.vars ++ [{ name := "x", value := .precise .zero }] ∧
    place 53 4 (some 1) mixed = .error (.mixedModes .float .precise) mixed := by
  have first := Reached.empty.step (p := 53) (o := .newScope none .float) (by decide)
  have second := first.step (o := .newScope none .precise) (by decide)
  have reached : Reached 53 mixed := second.step (o := .newScope (some 3) .float) (by decide)
  obtain ⟨parents, modes, creates, places⟩ := modes_stay reached
  have above : (mixed.scope 4).parent = some 3 := by decide
  have precise : (mixed.scope 4).mode = .precise := (parents 4 3 above).symm.trans (by decide)
  have moved := (modes (.setParent 4 (some 2)) 4 (by decide)).trans precise
  have made := (creates 4 "x" _ _ (.inl rfl)).resolve_left (by decide)
  rw [precise] at made
  exact ⟨reached, above, precise, moved, made.2, places 4 (some 1) (by decide)⟩

end Formula.Store
