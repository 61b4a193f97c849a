import Formula.Operator

/-! Kinds of values. Operations on numbers that are not precise give numbers that are not, and sums,
products, quotients and remainders of precise numbers are precise again, or invalid. -/
namespace Formula

open Number

namespace Value

def Keeps {α : Type} (P : α → Prop) (r : Except Fault α) : Prop := ∀ a, r = .ok a → P a

section Keeps

variable {α β : Type} {P : α → Prop} {Q : β → Prop} {r : Except Fault α}

theorem keeps_ok {a : α} (h : P a) : Keeps P (.ok a) := by
  intro b same
  exact Except.ok.inj same ▸ h

theorem keeps_error (f : Fault) : Keeps P (.error f : Except Fault α) := by
  intro b same
  cases same

theorem keeps_bind (h : Keeps P r) {f : α → Except Fault β} (next : ∀ a, P a → Keeps Q (f a)) :
    Keeps Q (r >>= f) := by
  cases r with
  | error e => exact keeps_error e
  | ok a => exact next a (h a rfl)

theorem keeps_map (h : Keeps P r) {f : α → β} (next : ∀ a, P a → Q (f a)) : Keeps Q (f <$> r) := by
  cases r with
  | error e => exact keeps_error e
  | ok a => exact keeps_ok (next a (h a rfl))

theorem keeps_true (r : Except Fault α) : Keeps (fun _ => True) r := fun _ _ => trivial

theorem keeps_recover {P : Value → Prop} {r : Except Fault Value} (invalid : P .invalid)
    (h : Keeps P r) : Keeps P (recover r) := by
  cases r with
  | ok v => exact h
  | error f =>
    simp only [recover]
    split
    · exact keeps_ok invalid
    · exact keeps_error f

end Keeps

variable {p : Nat} {a b v : Value}

/-- Neither precise nor a named constant nor complex. -/
def IsPlain (v : Value) : Prop := v.isPrecise = false

def ArePlain : Operands → Prop
  | .integers _ _ | .floats _ _ => True
  | .precise _ _ | .complex _ _ _ _ => False

theorem meet?_plain (ha : a.IsPlain) (hb : b.IsPlain) : Keeps ArePlain (meet? p a b) := by
  unfold meet?
  split
  · exact keeps_ok trivial
  · rw [ha, hb]
    exact keeps_bind (keeps_true _) fun x _ => keeps_map (keeps_true _) fun y _ => trivial

theorem add_plain (ha : a.IsPlain) (hb : b.IsPlain) : Keeps IsPlain (a.add p b) := by
  unfold add
  split
  · exact keeps_ok rfl
  · refine keeps_bind (meet?_plain ha hb) fun o plain => ?_
    cases o <;> first | exact keeps_ok rfl | exact absurd plain id

theorem sub_plain (ha : a.IsPlain) (hb : b.IsPlain) : Keeps IsPlain (a.sub p b) := by
  refine keeps_bind (meet?_plain ha hb) fun o plain => ?_
  cases o <;> first | exact keeps_ok rfl | exact absurd plain id

theorem mul_plain (ha : a.IsPlain) (hb : b.IsPlain) : Keeps IsPlain (a.mul p b) := by
  unfold mul
  split
  · exact keeps_ok rfl
  · exact keeps_ok rfl
  · refine keeps_bind (meet?_plain ha hb) fun o plain => ?_
    cases o <;> first | exact keeps_ok rfl | exact absurd plain id

theorem quotient_plain (ha : a.IsPlain) (hb : b.IsPlain) : Keeps IsPlain (a.quotient p b) := by
  refine keeps_bind (meet?_plain ha hb) fun o plain => ?_
  cases o with
  | precise | complex => exact absurd plain id
  | integers m n =>
    dsimp only
    split
    · exact keeps_error .divisionByZero
    · split
      · exact keeps_error .overflow
      · exact keeps_ok rfl
  | floats x y =>
    dsimp only
    split
    · exact keeps_error .divisionByZero
    · exact keeps_ok rfl

theorem divide_plain (ha : a.IsPlain) (hb : b.IsPlain) : Keeps IsPlain (a.divide p b) := by
  unfold divide
  rw [ha, hb]
  exact keeps_bind (keeps_true _) fun x _ => keeps_bind (keeps_true _) fun y _ => keeps_ok rfl

theorem modulo_plain (ha : a.IsPlain) (hb : b.IsPlain) : Keeps IsPlain (a.modulo p b) := by
  unfold modulo
  rw [ha, hb]
  exact keeps_bind (keeps_true _) fun x _ => keeps_bind (keeps_true _) fun y _ => keeps_ok rfl

theorem apply₂_plain (rule : BinaryRule) (ha : a.IsPlain) (hb : b.IsPlain) :
    Keeps IsPlain (a.apply₂ p rule b) := by
  unfold apply₂
  rw [ha, hb, if_neg (by decide)]
  split <;> exact keeps_ok rfl

theorem apply_plain (rule : UnaryRule) (ha : a.IsPlain) : (a.apply p rule).IsPlain := by
  cases a with
  | precise | constant | complex => cases ha
  | float | integer | text | absent =>
    simp only [apply]
    split <;> rfl

/-- Precise, or no number at all. -/
def IsPreciseOrInvalid (v : Value) : Prop := v.isPrecise ∨ v = invalid

theorem meet?_precise (h : (a.isPrecise || b.isPrecise) = true) :
    Keeps (¬ ArePlain ·) (meet? p a b) := by
  unfold meet?
  split
  · cases h
  · rw [h, if_pos rfl]
    split
    · exact keeps_ok id
    · split
      · exact keeps_ok id
      · exact keeps_error .wrongKind

theorem not_precise_or_invalid (plain : v.isPrecise = false) (other : v ≠ .invalid) :
    ¬ v.IsPreciseOrInvalid := by
  rintro (precise | same)
  · exact absurd precise (ne_true_of_eq_false plain)
  · exact other same

section Guarded

variable (h : a.IsPreciseOrInvalid ∨ b.IsPreciseOrInvalid)
include h

theorem invalid_of_plain (plain : (a.isPrecise || b.isPrecise) = false) :
    a = .invalid ∨ b = .invalid := by
  obtain ⟨left, right⟩ := Bool.or_eq_false_iff.mp plain
  rcases h with precise | precise
  · exact .inl (precise.resolve_left (ne_true_of_eq_false left))
  · exact .inr (precise.resolve_left (ne_true_of_eq_false right))

theorem meet?_guarded :
    Keeps (fun o => ArePlain o → ∃ x y, o = .floats x y ∧ (x = .nan ∨ y = .nan)) (meet? p a b) := by
  unfold meet?
  split
  · rcases h with h | h <;> exact absurd h (not_precise_or_invalid rfl nofun)
  · cases plain : a.isPrecise || b.isPrecise with
    | true =>
      rw [if_pos rfl]
      split
      · exact keeps_ok (False.elim ·)
      · split
        · exact keeps_ok (False.elim ·)
        · exact keeps_error .wrongKind
    | false =>
      rw [if_neg Bool.false_ne_true]
      rcases invalid_of_plain h plain with rfl | rfl
      · exact keeps_map (keeps_true _) fun y _ _ => ⟨.nan, y, rfl, .inl rfl⟩
      · exact keeps_bind (keeps_true _) fun x _ => keeps_ok fun _ => ⟨x, .nan, rfl, .inr rfl⟩

theorem add_precise : Keeps IsPreciseOrInvalid (a.add p b) := by
  unfold add
  split
  · rcases h with h | h <;> exact absurd h (not_precise_or_invalid rfl nofun)
  · refine keeps_bind (meet?_guarded h) fun o guarded => ?_
    cases o with
    | precise | complex => exact keeps_ok (.inl rfl)
    | integers m n => obtain ⟨_, _, ⟨⟩, _⟩ := guarded trivial
    | floats x y =>
      obtain ⟨x, y, ⟨⟩, nan⟩ := guarded trivial
      rcases nan with rfl | rfl
      · exact keeps_ok (.inr rfl)
      · cases x <;> exact keeps_ok (.inr rfl)

theorem sub_precise : Keeps IsPreciseOrInvalid (a.sub p b) := by
  refine keeps_bind (meet?_guarded h) fun o guarded => ?_
  cases o with
  | precise | complex => exact keeps_ok (.inl rfl)
  | integers m n => obtain ⟨_, _, ⟨⟩, _⟩ := guarded trivial
  | floats x y =>
    obtain ⟨x, y, ⟨⟩, nan⟩ := guarded trivial
    rcases nan with rfl | rfl
    · exact keeps_ok (.inr rfl)
    · cases x <;> exact keeps_ok (.inr rfl)

theorem mul_precise : Keeps IsPreciseOrInvalid (a.mul p b) := by
  unfold mul
  split
  · rcases h with h | h <;> exact absurd h (not_precise_or_invalid rfl nofun)
  · rcases h with h | h <;> exact absurd h (not_precise_or_invalid rfl nofun)
  · refine keeps_bind (meet?_guarded h) fun o guarded => ?_
    cases o with
    | precise | complex => exact keeps_ok (.inl rfl)
    | integers m n => obtain ⟨_, _, ⟨⟩, _⟩ := guarded trivial
    | floats x y =>
      obtain ⟨x, y, ⟨⟩, nan⟩ := guarded trivial
      rcases nan with rfl | rfl
      · exact keeps_ok (.inr rfl)
      · cases x <;> exact keeps_ok (.inr rfl)

theorem divide_precise : Keeps IsPreciseOrInvalid (a.divide p b) := by
  unfold divide
  cases plain : a.isPrecise || b.isPrecise with
  | true =>
    rw [if_pos rfl]
    split
    · split
      · exact keeps_ok (.inr rfl)
      · refine keeps_bind (keeps_true _) fun c _ => ?_
        split
        · exact keeps_ok (.inr rfl)
        · exact keeps_map (keeps_true _) fun c _ => .inl rfl
    · refine keeps_bind (keeps_true _) fun x _ => ?_
      split
      · exact keeps_ok (.inl rfl)
      · split
        · exact keeps_ok (.inl rfl)
        · exact keeps_error .wrongKind
  | false =>
    rw [if_neg Bool.false_ne_true]
    rcases invalid_of_plain h plain with rfl | rfl
    · exact keeps_map (keeps_true (b.floatOperand? p)) fun y _ => .inr rfl
    · refine keeps_bind (keeps_true _) fun x _ => keeps_ok (.inr ?_)
      cases x <;> rfl

theorem modulo_precise : Keeps IsPreciseOrInvalid (a.modulo p b) := by
  unfold modulo
  cases plain : a.isPrecise || b.isPrecise with
  | true =>
    rw [if_pos rfl]
    split
    · exact keeps_ok (.inr rfl)
    · refine keeps_bind (keeps_true _) fun u _ => keeps_bind (keeps_true _) fun x _ => ?_
      refine keeps_bind (keeps_true _) fun w _ => keeps_bind (keeps_true _) fun y _ => ?_
      refine keeps_bind (keeps_true _) fun c _ => ?_
      split <;> exact keeps_ok (.inl rfl)
  | false =>
    rw [if_neg Bool.false_ne_true]
    rcases invalid_of_plain h plain with rfl | rfl
    · exact keeps_map (keeps_true (b.floatOperand? p)) fun y _ => .inr rfl
    · refine keeps_bind (keeps_true _) fun x _ => keeps_ok (.inr ?_)
      cases x <;> rfl

end Guarded

theorem quotient_precise (ha : a.isPrecise) (b : Value) : Keeps (·.isPrecise) (a.quotient p b) := by
  have met : Keeps (¬ ArePlain ·) (meet? p a b) := meet?_precise (by rw [ha, Bool.true_or])
  refine keeps_bind met fun o precise => ?_
  cases o with
  | integers | floats => exact absurd trivial precise
  | complex => exact keeps_error .wrongKind
  | precise x y =>
    dsimp only
    split
    · exact keeps_ok rfl
    · exact keeps_error .divisionByZero

end Value

namespace Operator

variable {p : Nat} {a b : Value}

open Value

theorem evaluate_plain (op : Operator) (ha : a.IsPlain) (hb : b.IsPlain) :
    Keeps IsPlain (op.evaluate p a b) := by
  refine keeps_recover rfl ?_
  cases op with
  | add => exact add_plain ha hb
  | subtract => exact sub_plain ha hb
  | multiply => exact mul_plain ha hb
  | divide => exact divide_plain ha hb
  | modulo => exact modulo_plain ha hb
  | power => exact apply₂_plain _ ha hb
  | less | lessEqual | equal | greaterEqual | greater | notEqual | and | or =>
    exact keeps_map (keeps_true _) fun c _ => rfl

/-- An arithmetic operator other than the power gives a precise number if one of the operands is
precise. -/
theorem evaluate_precise {op : Operator} (sum : op.priority = 3 ∨ op.priority = 4)
    (h : a.IsPreciseOrInvalid ∨ b.IsPreciseOrInvalid) :
    Keeps IsPreciseOrInvalid (op.evaluate p a b) := by
  refine keeps_recover (.inr rfl) ?_
  cases op with
  | add => exact add_precise h
  | subtract => exact sub_precise h
  | multiply => exact mul_precise h
  | divide => exact divide_precise h
  | modulo => exact modulo_precise h
  | _ => rcases sum with sum | sum <;> cases sum

end Operator

end Formula
