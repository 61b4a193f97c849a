import Formula.Proofs.Entries
import Formula.Proofs.Value.Numbers
import Formula.Function.Registry

/-! Functions that take numbers to numbers. All that are there from the start do. -/
namespace Formula

open Number

namespace Value

variable {p : Nat} {a b : Value}

theorem apply_number (rule : UnaryRule) (ha : a.IsNumber) : (a.apply p rule).IsNumber := by
  cases ha with
  | float x => exact .float _
  | precise x => exact ofOutcome_number _
  | constant c => exact ofOutcome_number _

theorem least_number (ha : a.IsNumber) (hb : b.IsNumber) : GivesNumber (a.least p b) := by
  obtain ⟨less, same⟩ := less_number (p := p) hb ha
  simp only [least, same, bind, Except.bind]
  cases less
  · exact ⟨a, rfl, ha⟩
  · exact ⟨b, rfl, hb⟩

theorem greatest_number (ha : a.IsNumber) (hb : b.IsNumber) : GivesNumber (a.greatest p b) := by
  obtain ⟨less, same⟩ := less_number (p := p) ha hb
  simp only [greatest, same, bind, Except.bind]
  cases less
  · exact ⟨a, rfl, ha⟩
  · exact ⟨b, rfl, hb⟩

theorem preciseAngle_number (ha : a.IsNumber) (hb : b.IsNumber) :
    GivesNumber (preciseAngle p a b) := by
  obtain ⟨x, left⟩ := preciseOperand?_number (p := p) ha
  obtain ⟨y, right⟩ := preciseOperand?_number (p := p) hb
  have same : preciseAngle p a b = .ok (.precise (Precise.atan2 p x y)) := by
    cases ha <;> cases hb <;> simp only [preciseAngle, left, right] <;> rfl
  exact ⟨_, same, .precise _⟩

end Value

/-- A function that gives a number for as many numbers as it accepts. Functions that are not natural
wait for the evaluation of the whole expression. -/
def Function.IsTotal (p : Nat) (f : Function) : Prop :=
  ∀ plan, f.behaviour = .natural plan → ∀ args : List Value, f.accepts args.length →
    (∀ v ∈ args, v.IsNumber) → GivesNumber ((plan p args.length).decide args)

namespace Plan

variable {index : Nat} {next : Value → Plan} {args : List Value} {v : Value}

theorem decide_askValid (arg : args[index]? = some v) (number : v.IsNumber)
    (rest : GivesNumber ((next v).decide args)) :
    GivesNumber ((askValid index next).decide args) := by
  obtain ⟨invalid, isNaN⟩ := Value.isNaN?_number number
  simp only [askValid, decide, arg, isNaN]
  cases invalid
  · exact rest
  · exact ⟨v, rfl, number⟩

end Plan

namespace Function

variable {p : Nat}

theorem isTotal_unary (name : String) (rule : UnaryRule) : (unary name rule).IsTotal p := by
  rintro _ ⟨⟩ args fits numbers
  have one : args.length = 1 := (beq_iff_eq.mp fits).symm
  obtain ⟨a, rfl⟩ := List.length_eq_one_iff.mp one
  have ha : a.IsNumber := numbers a List.mem_cons_self
  exact Plan.decide_askValid rfl ha ⟨_, rfl, Value.apply_number rule ha⟩

theorem isTotal_binary (name : String) {rule : BinaryRule}
    (precise : ∀ a b : Value, a.IsNumber → b.IsNumber → Value.GivesReal (rule.precise p a b)) :
    (binary name rule).IsTotal p := by
  rintro _ ⟨⟩ args fits numbers
  have two : args.length = 2 := (beq_iff_eq.mp fits).symm
  obtain ⟨a, b, rfl⟩ : ∃ a b, args = [a, b] := by
    match args, two with
    | [a, b], _ => exact ⟨a, b, rfl⟩
  have ha : a.IsNumber := numbers a List.mem_cons_self
  have hb : b.IsNumber := numbers b (by simp)
  refine Plan.decide_askValid rfl ha (Plan.decide_askValid rfl hb ?_)
  exact Value.apply₂_number ha hb (precise a b ha hb)

theorem isTotal_active {f : Function} (h : f.isNatural = false) : f.IsTotal p := by
  intro plan natural
  simp [isNatural, natural] at h

theorem isTotal_absolute : absolute.IsTotal p := isTotal_unary "abs" .abs

theorem isTotal_builtin : ∀ f ∈ builtin, f.IsTotal p := by
  simp only [builtin, List.forall_mem_cons, isTotal_unary, true_and, List.not_mem_nil,
    false_implies, implies_true, and_true]
  exact ⟨isTotal_binary _ fun _ _ ha hb =>
    Value.givesReal_of_number (Value.preciseAngle_number ha hb),
    isTotal_binary _ fun _ _ ha hb => Value.precisePower_number ha hb,
    isTotal_binary _ fun _ _ ha hb => Value.givesReal_of_number (Value.least_number ha hb),
    isTotal_binary _ fun _ _ ha hb => Value.givesReal_of_number (Value.greatest_number ha hb),
    isTotal_active rfl, isTotal_active rfl⟩

end Function

def Registry.IsTotal (p : Nat) (r : Registry) : Prop :=
  ∀ name f, r.get? name = some f → f.IsTotal p

theorem Registry.isTotal_builtin (p : Nat) : Registry.builtin.IsTotal p := by
  intro name f found
  obtain ⟨g, member, same⟩ := List.mem_map.mp (mem_of_lookup found)
  exact (Prod.mk.inj same).2 ▸ Function.isTotal_builtin g member

end Formula
