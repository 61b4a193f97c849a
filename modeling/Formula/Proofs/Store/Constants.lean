import Formula.Proofs.Store.Naming

/-! Constant variables. Whatever is done to variables and scopes, in any order and whether it
succeeds or not, a variable that is constant keeps its value. -/
namespace Formula.Store

variable {p : Nat} {st st' : Store} {v w : VariableId}

inductive Operation where
  | root (m : Mode)
  | newScope (parent : Option ScopeId) (m : Mode)
  | create (s : ScopeId) (name : String)
  | lookUp (s : ScopeId) (name : String)
  | remove (s : ScopeId) (name : String)
  | setStrict (s : ScopeId) (strict : Bool)
  | setParent (s : ScopeId) (parent : Option ScopeId)
  | setValue (v : VariableId) (a : Value)
  | fix (v : VariableId) (a : Value)

def Operation.run? (p : Nat) (st : Store) : Operation → Except Fault Store
  | .root m => .ok (st.root p m).2
  | .newScope parent m => .ok (st.newScope p parent m).2
  | .create s name => .ok (st.create s name).2
  | .lookUp s name => (st.lookUp s name).map (·.2)
  | .remove s name => .ok (st.remove s name).2
  | .setStrict s strict => .ok (st.setStrict s strict)
  | .setParent s parent => st.setParent p s parent
  | .setValue v a => st.setValue v a
  | .fix v a => st.fix v a

/-- The store after an operation. One that fails leaves it as it was. -/
def after (p : Nat) (st : Store) (o : Operation) : Store := ((o.run? p st).toOption).getD st

def afterAll (p : Nat) (st : Store) (os : List Operation) : Store := os.foldl (after p) st

theorem changes_after (p : Nat) (st : Store) (o : Operation) :
    Changes p st (st.after p o) ∨ st.after p o = st := by
  unfold after
  cases ran : o.run? p st with
  | error f => exact .inr rfl
  | ok st' =>
    refine .inl ?_
    change Changes p st st'
    cases o with
    | root m => exact Except.ok.inj ran ▸ .root m
    | newScope parent m => exact Except.ok.inj ran ▸ .newScope parent m
    | create s name => exact Except.ok.inj ran ▸ .create s name
    | remove s name => exact Except.ok.inj ran ▸ .remove s name
    | setStrict s strict => exact Except.ok.inj ran ▸ .setStrict s strict
    | setParent s parent => exact .setParent ran
    | setValue v a => exact .setValue ran
    | fix v a => exact .fix ran
    -- Looking up gives a variable with the store, of which only the store is kept.
    | lookUp s name =>
      cases found : st.lookUp s name with
      | error f =>
        simp only [Operation.run?, found] at ran
        cases ran
      | ok out =>
        obtain ⟨v, st₁⟩ := out
        simp only [Operation.run?, found] at ran
        obtain rfl := Except.ok.inj ran
        exact .lookUp found

/-- Constant variables of the first store have their values in the second one. -/
def Preserves (st st' : Store) : Prop := ∀ v a, st.fixed? v = some a → st'.fixed? v = some a

theorem lt_of_isConstant (h : (st.var v).isConstant = true) : v < st.vars.length := by
  apply Nat.lt_of_not_le
  intro beyond
  simp [var, List.getD_eq_getElem?_getD, List.getElem?_eq_none beyond, default,
    instInhabitedVariable.default] at h

theorem var_putVariable (x : Variable) :
    (st.putVariable v x).var w = if v = w ∧ v < st.vars.length then x else st.var w := by
  simp only [var, putVariable, List.getD_eq_getElem?_getD, List.getElem?_set]
  by_cases same : v = w
  · subst same
    by_cases inside : v < st.vars.length <;> simp [inside]
  · simp [same]

namespace Preserves

theorem refl (st : Store) : Preserves st st := fun _ _ h => h

theorem trans {st₁ : Store} (h : Preserves st st₁) (h' : Preserves st₁ st') : Preserves st st' :=
  fun v a fixed => h' v a (h v a fixed)

theorem of_vars (same : st'.vars = st.vars) : Preserves st st' := by
  intro v a fixed
  have unchanged : st'.var v = st.var v := by rw [var, var, same]
  rw [fixed?_eq_some, unchanged]
  exact fixed?_eq_some.mp fixed

theorem addVariable (st : Store) (x : Variable) : Preserves st (st.addVariable x).2 := by
  intro v a fixed
  obtain ⟨constant, value⟩ := fixed?_eq_some.mp fixed
  have old : v ≠ st.vars.length := Nat.ne_of_lt (lt_of_isConstant constant)
  rw [fixed?_eq_some, var_addVariable, if_neg old]
  exact ⟨constant, value⟩

theorem putVariable (changing : (st.var v).isConstant = false) (x : Variable) :
    Preserves st (st.putVariable v x) := by
  intro w a fixed
  obtain ⟨constant, value⟩ := fixed?_eq_some.mp fixed
  have other : v ≠ w := by
    intro same
    rw [same, constant] at changing
    cases changing
  rw [fixed?_eq_some, var_putVariable, if_neg fun h => other h.1]
  exact ⟨constant, value⟩

theorem root (st : Store) (p : Nat) (m : Mode) : Preserves st (st.root p m).2 := by
  unfold Store.root
  split
  · exact refl st
  · have pi := addVariable st ⟨"pi", rootConstant p .pi m, true⟩
    have euler := addVariable (st.addVariable ⟨"pi", rootConstant p .pi m, true⟩).2
      ⟨"euler", rootConstant p .e m, true⟩
    refine (pi.trans euler).trans (of_vars ?_)
    cases m <;> rfl

theorem create (st : Store) (s : ScopeId) (name : String) : Preserves st (st.create s name).2 := by
  cases found : (st.scope s).local? name with
  | some v =>
    simp only [Store.create, found]
    exact refl st
  | none =>
    rw [create_eq found]
    exact (addVariable st _).trans (of_vars rfl)

end Preserves

theorem preserves_setValue {a : Value} (h : st.setValue v a = .ok st') : Preserves st st' := by
  unfold setValue Variable.setValue at h
  cases constant : (st.var v).isConstant with
  | true =>
    rw [constant] at h
    cases h
  | false =>
    rw [constant] at h
    cases h
    exact .putVariable constant _

theorem preserves_fix {a : Value} (h : st.fix v a = .ok st') : Preserves st st' := by
  unfold fix Variable.fix Variable.setValue at h
  cases constant : (st.var v).isConstant with
  | true =>
    rw [constant] at h
    cases h
  | false =>
    rw [constant] at h
    cases h
    exact .putVariable constant _

theorem preserves_setParent {s : ScopeId} {parent : Option ScopeId}
    (h : st.setParent p s parent = .ok st') : Preserves st st' := by
  unfold setParent at h
  cases parent with
  | some t =>
    dsimp only at h
    split at h
    · cases h
    · split at h
      · cases h
      · cases h
        exact .of_vars rfl
  | none =>
    dsimp only at h
    split at h
    · cases h
    · split at h
      · cases h
      · cases h
        exact (Preserves.root st p _).trans (.of_vars rfl)

theorem preserves_of_changes (h : Changes p st st') : Preserves st st' := by
  cases h with
  | root m => exact .root st p m
  | newScope parent m =>
    cases parent with
    | some t => exact .of_vars rfl
    | none => exact (Preserves.root st p m).trans (.of_vars rfl)
  | create s name => exact .create st s name
  | lookUp found =>
    rcases lookUp_cases found with ⟨_, rfl⟩ | ⟨_, _, made⟩
    · exact .refl _
    · exact (Prod.mk.inj made).2 ▸ .create st _ _
  | remove s name => exact .of_vars rfl
  | setStrict s strict => exact .of_vars rfl
  | setParent set => exact preserves_setParent set
  | setValue set => exact preserves_setValue set
  | fix set => exact preserves_fix set

theorem preserves_afterAll (p : Nat) (st : Store) (os : List Operation) :
    Preserves st (st.afterAll p os) := by
  induction os generalizing st with
  | nil => exact .refl st
  | cons o os ih =>
    have first : Preserves st (st.after p o) := by
      rcases changes_after p st o with changes | same
      · exact preserves_of_changes changes
      · rw [same]
        exact .refl st
    exact first.trans (ih (st.after p o))

end Formula.Store
