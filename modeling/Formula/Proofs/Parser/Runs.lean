import Formula.Expr.Parser

/-! Runs of parsers, step by step, and what holds of their results whatever they read. -/
namespace Formula.Parser

variable {α β : Type}

theorem bind_run (p : Parser α) (f : α → Parser β) (g : Grammar) (s : ParserState) :
    (p >>= f) g s = match p g s with
      | .ok a s' => f a g s'
      | .error e s' => .error e s' := by
  simp only [bind, ReaderT.bind, EStateM.bind]
  cases p g s <;> rfl

theorem bind_of_ok {p : Parser α} {g : Grammar} {s s' : ParserState} {a : α}
    (h : p g s = .ok a s') (f : α → Parser β) : (p >>= f) g s = f a g s' := by
  rw [bind_run, h]

theorem bind_of_error {p : Parser α} {g : Grammar} {s s' : ParserState} {e : Fault}
    (h : p g s = .error e s') (f : α → Parser β) : (p >>= f) g s = .error e s' := by
  rw [bind_run, h]

theorem bind_eq_ok {p : Parser α} {f : α → Parser β} {g : Grammar} {s s'' : ParserState} {b : β}
    (h : (p >>= f) g s = .ok b s'') : ∃ a s', p g s = .ok a s' ∧ f a g s' = .ok b s'' := by
  rw [bind_run] at h
  cases hp : p g s with
  | ok a s' => exact ⟨a, s', rfl, by simpa only [hp] using h⟩
  | error e s' => simp [hp] at h

theorem tryCatch_of_ok {p : Parser α} {g : Grammar} {s s' : ParserState} {a : α}
    (h : p g s = .ok a s') (handler : Fault → Parser α) : (tryCatch p handler) g s = .ok a s' := by
  have unfolded : (tryCatch p handler) g s = EStateM.tryCatch (p g) (fun f => handler f g) s := rfl
  rw [unfolded]
  unfold EStateM.tryCatch
  rw [h]

theorem tryCatch_of_error {p : Parser α} {g : Grammar} {s s' : ParserState} {f : Fault}
    (h : p g s = .error f s') (handler : Fault → Parser α) :
    (tryCatch p handler) g s = handler f g s' := by
  have unfolded : (tryCatch p handler) g s = EStateM.tryCatch (p g) (fun f => handler f g) s := rfl
  rw [unfolded]
  unfold EStateM.tryCatch
  rw [h]
  rfl

theorem simplified_run {g : Grammar} {s s' : ParserState} {e : Expr}
    (ran : rule .expression g s = .ok e s') :
    simplified g s = ofExcept (e.simplify (s'.store.knowledge g.bits)).result g s' := by
  unfold simplified
  rw [bind_of_ok ran]
  rfl

theorem simplified_eq_ok {g : Grammar} {s s' : ParserState} {e : Expr}
    (ok : simplified g s = .ok e s') :
    ∃ e₀, rule .expression g s = .ok e₀ s' ∧ (e₀.simplify (s'.store.knowledge g.bits)).result =
      .ok e := by
  obtain ⟨e₀, s₁, ran, -⟩ := bind_eq_ok ok
  rw [simplified_run ran] at ok
  cases simple : (e₀.simplify (s₁.store.knowledge g.bits)).result with
  | error f =>
    rw [simple] at ok
    cases ok
  | ok e₁ =>
    rw [simple] at ok
    cases ok
    exact ⟨e₀, ran, simple⟩

def endsWith {ε σ : Type} (test : α → σ → Bool) : EStateM.Result ε σ α → Bool
  | .ok a s => test a s
  | .error _ _ => false

theorem exists_of_endsWith {ε σ : Type} {test : α → σ → Bool} {r : EStateM.Result ε σ α}
    (h : endsWith test r = true) : ∃ a s, r = .ok a s ∧ test a s = true := by
  cases r with
  | ok a s => exact ⟨a, s, rfl, h⟩
  | error f s => cases h

def rejection? {σ : Type} : EStateM.Result Fault σ α → Option (List Problem)
  | .error (.rejected ps) _ => some ps
  | _ => none

theorem exists_of_rejection? {σ : Type} {r : EStateM.Result Fault σ α} {ps : List Problem}
    (h : rejection? r = some ps) : ∃ s, r = .error (.rejected ps) s := by
  unfold rejection? at h
  split at h
  · obtain rfl := Option.some.inj h
    exact ⟨_, rfl⟩
  · cases h

/-- What every result of a parser satisfies, whatever it reads. -/
def Ensures (p : Parser α) (P : α → Prop) : Prop := ∀ g s a s', p g s = .ok a s' → P a

theorem Ensures.trivial (p : Parser α) : Ensures p fun _ => True := fun _ _ _ _ _ => True.intro

theorem Ensures.mono {p : Parser α} {P Q : α → Prop} (h : Ensures p P) (weaker : ∀ a, P a → Q a) :
    Ensures p Q := fun g s a s' ha => weaker a (h g s a s' ha)

theorem Ensures.pure {P : α → Prop} {a : α} (h : P a) : Ensures (pure a) P := by
  intro g s b s' hb
  cases hb
  exact h

theorem Ensures.throw {P : α → Prop} (f : Fault) : Ensures (throw f) P := by
  intro g s a s' h
  cases h

theorem Ensures.bind {p : Parser α} {f : α → Parser β} {P : α → Prop} {Q : β → Prop}
    (first : Ensures p P) (then_ : ∀ a, P a → Ensures (f a) Q) : Ensures (p >>= f) Q := by
  intro g s b s'' h
  obtain ⟨a, s', ha, hb⟩ := bind_eq_ok h
  exact then_ a (first g s a s' ha) g s' b s'' hb

end Formula.Parser
