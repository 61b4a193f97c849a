import Formula.Proofs.Expr.Precision
import Formula.Proofs.Parser.Consumption
import Formula.Proofs.Parser.Moves
import Formula.Proofs.Value.SignedNumerals

/-! Texts that are parsed in the precise mode. All of their parts are numbers, and precise as long
as no comparison is in the text. What a comparison gives is plain, and so is what functions and
operators make of it alone. -/
namespace Formula

def Value.IsPreciseNumber (v : Value) : Prop := v.IsNumber ∧ v.isPrecise

theorem Value.IsPreciseNumber.meets {v : Value} (h : v.IsPreciseNumber) (plain : Bool) :
    v.Meets plain :=
  ⟨h.1, fun _ => .inl h.2⟩

namespace Parser

variable {g : Grammar} {s s' : ParserState} {plain : Bool} {e : Expr}

theorem admits_precise (mode : g.mode = .precise) (plain : Bool) :
    Admits g (Value.Meets plain) where
  invalid := Value.meets_invalid plain
  zero := by
    rw [mode]
    exact Value.meets_precise _ plain
  numeral text v read := by
    have precise := Value.ofNumeral_precise read mode
    exact ⟨(Value.ofNumeral_isLiteral read).isNumber, fun _ => .inl precise⟩
  scaled text v name n w read known product := by
    have precise := Value.ofNumeral_precise read mode
    have number := (admits_numbers g).scaled text v name n w read known product
    exact ⟨number, fun _ => scaled_precise precise n w product⟩

/-- A node that is no comparison, and does not join comparisons. -/
def IsArithmetic : Expr → Prop
  | .binary op .. => 3 ≤ op.priority
  | .constant _ | .reference .. | .call .. => True

theorem steady_of_arithmetic {op : Operator} (h : 3 ≤ op.priority) (plain : Bool) :
    op.mayBePlain plain plain = plain := by
  cases op with
  | add | subtract | multiply | divide | modulo => exact Bool.and_self plain
  | power => exact Bool.or_self plain
  | less | lessEqual | equal | greaterEqual | greater | notEqual | and | or =>
    simp [Operator.priority] at h

/-- What is read in the precise mode is precise, but for comparisons. -/
theorem keepsPrecise_of_read (builtin : g.functions = .builtin) {k : Knowledge}
    (known : k.fixed = s.store.fixed?)
    (read : IsRead g (Value.Meets plain) s e)
    (arithmetic : plain = false → e.Everywhere IsArithmetic) :
    e.Everywhere (Expr.KeepsPrecise k plain) := by
  apply Expr.everywhere_iff_visits.mpr
  intro x visited
  have here := Expr.everywhere_iff_visits.mp read x visited
  cases node : x.node with
  | constant v =>
    rw [node] at here
    exact here
  | reference v name =>
    rw [node] at here
    intro a fixed
    exact here a (known ▸ fixed)
  | binary op l r sealed =>
    cases plain with
    | true => cases op <;> rfl
    | false =>
      have plus := Expr.everywhere_iff_visits.mp (arithmetic rfl) x visited
      rw [node] at plus
      exact steady_of_arithmetic plus false
  | call f name args =>
    rw [node] at here
    obtain ⟨⟨rfl, -⟩ | named, accepted⟩ := here
    · exact ⟨by simp [Function.builtin, Function.absolute], accepted⟩
    · rw [builtin] at named
      obtain ⟨f', member, same⟩ := List.mem_map.mp (mem_of_lookup named)
      exact ⟨(Prod.mk.inj same).2 ▸ member, accepted⟩

def AssignsPrecise (c : Circumstances) : Expr → Prop
  | .reference v _ => (c.value v).IsPreciseNumber
  | .constant _ | .binary .. | .call .. => True

theorem hasPrecise_of_keepsPrecise {k : Knowledge} {c : Circumstances}
    (numbers : e.Everywhere (Expr.KeepsPrecise k plain))
    (precise : e.Everywhere (AssignsPrecise c)) :
    e.Everywhere (Expr.HasPrecise c) := by
  apply Expr.everywhere_iff_visits.mpr
  intro x visited
  have here := Expr.everywhere_iff_visits.mp numbers x visited
  have value := Expr.everywhere_iff_visits.mp precise x visited
  cases node : x.node with
  | constant v =>
    rw [node] at here
    exact here.1
  | reference v name =>
    rw [node] at value
    exact value
  | binary => trivial
  | call f name args =>
    rw [node] at here
    exact here

/-- Every part of a text that was parsed in the precise mode evaluates to a number, for all precise
values of its variables, and to a precise or invalid one unless it may be plain on account of a
comparison. In a text without comparisons no part may be plain. -/
theorem whole_precise {src : Source} {st : Store} (mode : g.mode = .precise)
    (builtin : g.functions = .builtin)
    (fixed : st.FixesOnly Value.IsPreciseNumber g.scope)
    (ok : whole g ⟨.ofSource src, st⟩ = .ok e s') :
    (∀ c, e.Everywhere (AssignsPrecise c) → ∀ x ∈ e.visits, ∀ before, ∃ v after,
      x.node.evaluate c before = .ok v after ∧
      v.IsNumber ∧ (x.node.mayBePlain = false → v.IsPreciseOrInvalid)) ∧
    ∃ e₀ s₀, rule .expression g ⟨.ofSource src, st⟩ = .ok e₀ s₀ ∧
      (e₀.Everywhere IsArithmetic → ∀ x ∈ e.visits, x.node.mayBePlain = false) := by
  obtain ⟨s₁, _, simple, _⟩ := whole_eq_ok ok
  obtain ⟨e₀, ran, result⟩ := simplified_eq_ok simple
  have keeps (plain : Bool) (arithmetic : plain = false → e₀.Everywhere IsArithmetic) :
      e.Everywhere (Expr.KeepsPrecise (s₁.store.knowledge g.bits) plain) := by
    have only : st.FixesOnly (Value.Meets plain) g.scope :=
      fixed.mono fun v precise => precise.meets plain
    obtain ⟨moves, read⟩ := (goes_expression (admits_precise mode plain) only).ok ran
    exact Expr.keepsPrecise_simplify e₀ e
      (keepsPrecise_of_read builtin moves.fixed? read arithmetic) result
  constructor
  · intro c precise x visited before
    have has := hasPrecise_of_keepsPrecise (keeps true nofun) precise
    have part := Expr.everywhere_iff_visits.mp (Expr.Everywhere.parts e has) x visited
    rcases (Expr.meets_evaluate x.node part).outcome before with ⟨v, after, run, meets⟩ |
      ⟨_, impossible⟩
    · exact ⟨v, after, run, meets⟩
    · exact impossible.elim
  · refine ⟨e₀, s₁, ran, fun arithmetic x visited => ?_⟩
    have part := Expr.everywhere_iff_visits.mp
      (Expr.Everywhere.parts e (keeps false fun _ => arithmetic)) x visited
    exact Expr.mayBePlain_eq_false x.node part

/-- A difference of a root and a constant variable. -/
theorem whole_precise_root :
    let g : Grammar := { bits := 53, scope := 0, mode := .precise, functions := .builtin }
    let st : Store := { vars := [⟨"pi", .constant .pi, true⟩, ⟨"x", .precise .zero, false⟩]
                        scopes := [⟨none, .precise, true, [("pi", 0), ("x", 1)]⟩] }
    ∃ e s', whole g ⟨.ofSource (.ofString "max(x, 2m) ^ 0.5 - pi"), st⟩ = .ok e s' ∧
      (∀ c, e.Everywhere (AssignsPrecise c) → ∀ x ∈ e.visits, ∀ before, ∃ v after,
        x.node.evaluate c before = .ok v after ∧ v.IsNumber ∧
          (x.node.mayBePlain = false → v.IsPreciseOrInvalid)) ∧
      ∃ e₀ s₀, rule .expression g ⟨.ofSource (.ofString "max(x, 2m) ^ 0.5 - pi"), st⟩ = .ok e₀ s₀ ∧
        (e₀.Everywhere IsArithmetic → ∀ x ∈ e.visits, x.node.mayBePlain = false) := by
  intro g st
  have fixed : st.FixesOnly Value.IsPreciseNumber g.scope := by
    apply Store.fixesOnly_of_vars
    intro x member constant
    rcases List.mem_pair.mp member with rfl | rfl
    · exact ⟨.constant .pi, rfl⟩
    · cases constant
  have parsed : endsWith (fun _ _ => true)
      (whole g ⟨.ofSource (.ofString "max(x, 2m) ^ 0.5 - pi"), st⟩) = true := by
    decide +kernel
  obtain ⟨e, s', ok, -⟩ := exists_of_endsWith parsed
  exact ⟨e, s', ok, whole_precise rfl rfl fixed ok⟩

/-- A comparison gives a plain number also in the precise mode, and the sine of it is computed
plainly. -/
theorem whole_plain_sine :
    let g : Grammar := { bits := 53, scope := 0, mode := .precise, functions := .builtin }
    let st : Store :=
      { vars := [⟨"x", .precise .zero, false⟩], scopes := [⟨none, .precise, true, [("x", 0)]⟩] }
    let c : Circumstances := ⟨.standard, fun _ => .precise .zero⟩
    ∃ e s' v after, whole g ⟨.ofSource (.ofString "sin(x < 2)"), st⟩ = .ok e s' ∧
      e.Everywhere (AssignsPrecise c) ∧
      e.evaluate c {} = .ok v after ∧ v.isPrecise = false ∧ v.isNaN? = .ok false := by
  intro g st c
  have outcome : endsWith
      (fun e _ => endsWith (fun v _ => !v.isPrecise && decide (v.isNaN? = .ok false))
        (e.evaluate c {}))
      (whole g ⟨.ofSource (.ofString "sin(x < 2)"), st⟩) = true := by decide +kernel
  obtain ⟨e, s', ok, evaluates⟩ := exists_of_endsWith outcome
  obtain ⟨v, after, evaluated, isPlain⟩ := exists_of_endsWith evaluates
  have precise : e.Everywhere (AssignsPrecise c) := by
    apply Expr.everywhere_iff_visits.mpr
    intro x _
    cases x.node with
    | reference => exact ⟨.precise _, rfl⟩
    | constant | binary | call => trivial
  exact ⟨e, s', v, after, ok, precise, evaluated, by simpa using isPlain⟩

end Parser

end Formula
