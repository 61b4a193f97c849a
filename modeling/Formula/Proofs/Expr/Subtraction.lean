import Formula.Mode
import Formula.Proofs.Expr.Evaluation
import Formula.Proofs.Value.Opposite

/-! Subtraction as addition. To take a product away is to add the product whose first factor is the
opposite number, and so is to take away the first product of a sum before the rest of the sum is
added. -/
namespace Formula

open Evaluation (SameWhere)

variable {m : Mode}

/-- Circumstances in which expressions of the mode are evaluated: where numbers are not precise, no
variable is. -/
structure Circumstances.Suits (m : Mode) (c : Circumstances) : Prop where
  positive : 0 < c.precision.bits
  plain : m = .float → ∀ v, (c.value v).IsPlain

structure Value.IsFactor (m : Mode) (v : Value) : Prop where
  signed : v.IsSigned
  precise : m = .precise → v.IsPreciseOrInvalid

namespace Expr

def IsPlainNode (m : Mode) (e : Expr) : Prop :=
  m = .float → ∀ c, e.NodeHolds Value.IsPlain (·.Keeps c Value.IsPlain)

theorem keeps_plain {e : Expr} (plain : e.Everywhere (IsPlainNode m)) (mode : m = .float)
    {c : Circumstances} (suits : c.Suits m) : Evaluation.Keeps c Value.IsPlain e.evaluate :=
  keeps_evaluate (suits.plain mode) (fun op _ _ => op.evaluate_plain) e
    (plain.mono fun _ node => node mode c)

/-- The second expression gives the opposite of the number that the first one gives, and fails like
it. -/
def AreOpposed (m : Mode) (e e' : Expr) : Prop :=
  ∀ c, Circumstances.Suits m c → ∀ s,
    (∃ f s', e.evaluate c s = .error f s' ∧ e'.evaluate c s = .error f s') ∨
    ∃ v s', v.IsFactor m ∧ e.evaluate c s = .ok v s' ∧ e'.evaluate c s = .ok v.opposite s'

variable {op : Operator} {x x' y y' r : Expr} {v : Value}

theorem areOpposed_constant (factor : v.IsFactor m) :
    AreOpposed m (.constant v) (.constant v.opposite) :=
  fun _ _ s => .inr ⟨v, s, factor, rfl, rfl⟩

theorem areOpposed_binary (product : op.priority = 4) (opposed : AreOpposed m x x')
    (plain : r.Everywhere (IsPlainNode m)) (sealed : Bool) :
    AreOpposed m (.binary op x r sealed) (.binary op x' r sealed) := by
  intro c suits s
  rcases opposed c suits s with ⟨f, s₁, left, left'⟩ | ⟨a, s₁, factor, left, left'⟩
  · exact .inl ⟨f, s₁, evaluate_binary_left left, evaluate_binary_left left'⟩
  · cases right : r.evaluate c s₁ with
    | error f s₂ =>
      exact .inl ⟨f, s₂, evaluate_binary_right left right, evaluate_binary_right left' right⟩
    | ok b s₂ =>
      have uniform : a.isPrecise ∨ a = .invalid ∨ b.isPrecise = false := by
        cases m with
        | float => exact .inr (.inr (keeps_plain plain rfl suits s₁ b s₂ right))
        | precise => exact or_assoc.mp (.inl (factor.precise rfl))
      rw [evaluate_binary left right, evaluate_binary left' right]
      rcases Operator.evaluate_opposite product suits.positive factor.signed b uniform with
        ⟨f, failed, failed'⟩ | ⟨w, signed, value, value'⟩
      · rw [failed, failed']
        exact .inl ⟨f, s₂, rfl, rfl⟩
      · rw [value, value']
        have kind : m = .precise → w.IsPreciseOrInvalid := fun precise =>
          Operator.evaluate_precise (.inr product) (.inl (factor.precise precise)) w value
        exact .inr ⟨w, s₂, ⟨signed, kind⟩, rfl, rfl⟩

theorem areOpposed_reorder (product : op.priority = 4) (opposed : AreOpposed m x x') {r : Expr}
    (plain : r.Everywhere (IsPlainNode m)) : AreOpposed m (reorder op x r) (reorder op x' r) := by
  by_cases h : r.isOpen op.priority
  · obtain ⟨last, l, z, rfl, same⟩ := isOpen_eq_true h
    rw [reorder_binary same, reorder_binary same]
    exact areOpposed_binary (same.trans product)
      (areOpposed_reorder product opposed plain.2.1) plain.2.2 false
  · have alone : r.isOpen op.priority = false := by simpa using h
    rw [reorder_of_not_isOpen alone, reorder_of_not_isOpen alone]
    exact areOpposed_binary product opposed plain false
termination_by sizeOf r

theorem subtract_sameWhere (opposed : AreOpposed m x x') {l l' : Expr}
    (same : SameWhere (Circumstances.Suits m) l.evaluate l'.evaluate) (sealed sealed' : Bool) :
    SameWhere (Circumstances.Suits m) (binary .subtract l x sealed).evaluate
      (binary .add l' x' sealed').evaluate := by
  intro c suits
  funext s
  cases left : l.evaluate c s with
  | error f s₁ =>
    have left' : l'.evaluate c s = .error f s₁ := same c suits ▸ left
    rw [evaluate_binary_left left, evaluate_binary_left left']
  | ok a s₁ =>
    have left' : l'.evaluate c s = .ok a s₁ := same c suits ▸ left
    rcases opposed c suits s₁ with ⟨f, s₂, right, right'⟩ | ⟨b, s₂, factor, right, right'⟩
    · rw [evaluate_binary_right left right, evaluate_binary_right left' right']
    · rw [evaluate_binary left right, evaluate_binary left' right',
        Operator.evaluate_subtract factor.signed]

/-- Expressions that evaluate alike, also as parts of a chain: the operators of a chain agree, but
what one of them subtracts, the other one adds. -/
inductive Alike (m : Mode) : Expr → Expr → Prop
  | refl (e : Expr) : Alike m e e
  | closed {e e' : Expr} (left : ∀ p, e.isOpen p = false) (right : ∀ p, e'.isOpen p = false)
      (same : SameWhere (Circumstances.Suits m) e.evaluate e'.evaluate) : Alike m e e'
  | chain {op : Operator} {l l' r r' : Expr} {sealed : Bool} (first : Alike m l l')
      (same : SameWhere (Circumstances.Suits m) r.evaluate r'.evaluate) :
      Alike m (.binary op l r sealed) (.binary op l' r' sealed)
  | subtracted {l l' x x' : Expr} (first : Alike m l l') (opposed : AreOpposed m x x') :
      Alike m (.binary .subtract l x false) (.binary .add l' x' false)

namespace Alike

theorem sameWhere (h : Alike m y y') :
    SameWhere (Circumstances.Suits m) y.evaluate y'.evaluate := by
  induction h with
  | refl => exact .refl _ _
  | closed _ _ same => exact same
  | chain _ same ih => exact sameWhere_binary ih same _ _ _
  | subtracted _ opposed ih => exact subtract_sameWhere opposed ih _ _

theorem binary (first : Alike m x x') (second : Alike m y y') (op : Operator) (sealed : Bool) :
    Alike m (.binary op x y sealed) (.binary op x' y' sealed) := .chain first second.sameWhere

theorem inBrackets (h : Alike m y y') : Alike m y.inBrackets y'.inBrackets := by
  have closed (e : Expr) (p : Nat) : e.inBrackets.isOpen p = false := by cases e <;> rfl
  have same (e : Expr) : e.inBrackets.evaluate = e.evaluate := by cases e <;> rfl
  refine .closed (closed y) (closed y') ?_
  rw [same, same]
  exact h.sameWhere

theorem reorder_left (op : Operator) (h : Alike m x x') (r : Expr) :
    Alike m (reorder op x r) (reorder op x' r) := by
  by_cases isOpen : r.isOpen op.priority
  · obtain ⟨last, l, z, rfl, same⟩ := isOpen_eq_true isOpen
    rw [reorder_binary same, reorder_binary same]
    exact (reorder_left op h l).binary (.refl z) last false
  · have alone : r.isOpen op.priority = false := by simpa using isOpen
    rw [reorder_of_not_isOpen alone, reorder_of_not_isOpen alone]
    exact h.binary (.refl r) op false
termination_by sizeOf r

theorem reorder (op : Operator) (h : Alike m x x') (h' : Alike m y y') :
    Alike m (Expr.reorder op x y) (Expr.reorder op x' y') := by
  induction h' with
  | refl e => exact reorder_left op h e
  | closed left right same =>
    rw [reorder_of_not_isOpen (left _), reorder_of_not_isOpen (right _)]
    exact .chain h same
  | @chain last l l' z z' sealed first same ih =>
    by_cases isOpen : sealed = false ∧ last.priority = op.priority
    · obtain ⟨rfl, level⟩ := isOpen
      rw [reorder_binary level, reorder_binary level]
      exact .chain ih same
    · have alone (e e' : Expr) : (Expr.binary last e e' sealed).isOpen op.priority = false := by
        cases sealed <;> simp_all
      rw [reorder_of_not_isOpen (alone l z), reorder_of_not_isOpen (alone l' z')]
      exact .chain h (Alike.chain first same).sameWhere
  | @subtracted l l' z z' first opposed ih =>
    by_cases level : Operator.subtract.priority = op.priority
    · have level' : Operator.add.priority = op.priority := level
      rw [reorder_binary level, reorder_binary level']
      exact .subtracted ih opposed
    · have alone : (Expr.binary .subtract l z false).isOpen op.priority = false :=
        decide_eq_false level
      have alone' : (Expr.binary .add l' z' false).isOpen op.priority = false :=
        decide_eq_false level
      rw [reorder_of_not_isOpen alone, reorder_of_not_isOpen alone']
      exact .chain h (Alike.subtracted first opposed).sameWhere

end Alike

/-- Sums that agree but for their first products, which are opposite. -/
inductive StartOpposed (m : Mode) : Expr → Expr → Prop
  | product {x x' : Expr} (left : x.isOpen 3 = false) (right : x'.isOpen 3 = false)
      (opposed : AreOpposed m x x') :
      StartOpposed m x x'
  | chain {op : Operator} {l l' r : Expr} (sum : op.priority = 3) (first : StartOpposed m l l') :
      StartOpposed m (.binary op l r false) (.binary op l' r false)

namespace StartOpposed

theorem reorder (sum : op.priority = 3) (h : StartOpposed m x x') (r : Expr) :
    StartOpposed m (Expr.reorder op x r) (Expr.reorder op x' r) := by
  by_cases isOpen : r.isOpen op.priority
  · obtain ⟨last, l, z, rfl, same⟩ := isOpen_eq_true isOpen
    rw [reorder_binary same, reorder_binary same]
    exact .chain (same.trans sum) (reorder sum h l)
  · have alone : r.isOpen op.priority = false := by simpa using isOpen
    rw [reorder_of_not_isOpen alone, reorder_of_not_isOpen alone]
    exact .chain sum h
termination_by sizeOf r

theorem alike (l : Expr) (h : StartOpposed m y y') :
    Alike m (Expr.reorder .subtract l y) (Expr.reorder .add l y') := by
  induction h with
  | @product x x' left right opposed =>
    have alone : x.isOpen Operator.subtract.priority = false := left
    have alone' : x'.isOpen Operator.add.priority = false := right
    rw [reorder_of_not_isOpen alone, reorder_of_not_isOpen alone']
    exact .subtracted (.refl l) opposed
  | chain sum _ ih =>
    rw [reorder_binary sum, reorder_binary sum]
    exact ih.binary (.refl _) _ false

end StartOpposed

end Expr

end Formula
