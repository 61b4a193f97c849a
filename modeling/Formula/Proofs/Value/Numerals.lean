import Formula.Proofs.Lexer.Shape
import Formula.Proofs.Value.Numbers
import Formula.Expr.Parser

/-! Numerals. The content of a number either denotes a number or is malformed: it never is a
fraction, let alone one with the denominator zero. Quantifiers take numbers to numbers. -/
namespace Formula

namespace Text

theorem caseRuns_above : ∀ r ∈ caseRuns, ('/'.toNat : Int) < r.first + r.shift := by
  decide +kernel

theorem toNat_of_eq_ofNat {c : Char} {n : Nat} (h : c = Char.ofNat n) (visible : c.toNat ≠ 0) :
    n = c.toNat := by
  subst h
  by_cases valid : n.isValidChar
  · rw [Char.ofNat, dif_pos valid]
    rfl
  · rw [Char.ofNat, dif_neg valid] at visible
    exact absurd rfl visible

theorem slash_of_mem_lowerChar {c : Char} (h : '/' ∈ lowerChar c) : c = '/' := by
  unfold lowerChar at h
  split at h
  · split at h
    · rename_i capital
      have code := toNat_of_eq_ofNat (List.mem_singleton.mp h) (by decide)
      have large : 'A'.toNat ≤ c.toNat := capital.1
      simp at code large
      omega
    · exact (List.mem_singleton.mp h).symm
  · split at h
    · simp at h
    · split at h
      · rename_i r found
        have code := toNat_of_eq_ofNat (List.mem_singleton.mp h) (by decide)
        have large := caseRuns_above r (List.mem_of_find?_eq_some found)
        have inside := List.find?_some found
        simp only [CaseRun.contains, Bool.and_eq_true, decide_eq_true_eq] at inside
        simp at code large
        omega
      · exact (List.mem_singleton.mp h).symm

theorem slash_of_mem_lowerAfter {before cs : List Char} (h : '/' ∈ lowerAfter before cs) :
    '/' ∈ cs := by
  induction cs generalizing before with
  | nil => simp [lowerAfter] at h
  | cons c rest ih =>
    simp only [lowerAfter, List.mem_append] at h
    rcases h with here | later
    · refine List.mem_cons.mpr (.inl ?_)
      split at here
      · split at here <;> simp at here
      · exact (slash_of_mem_lowerChar here).symm
    · exact List.mem_cons_of_mem c (ih later)

theorem mem_of_mem_strip {c : Char} {cs : List Char} (h : c ∈ strip cs) : c ∈ cs := by
  have inner := (List.dropWhile_sublist isBlank).subset (List.mem_reverse.mp h)
  exact (List.dropWhile_sublist isBlank).subset (List.mem_reverse.mp inner)

theorem slash_of_mem_plain {s : String} (h : '/' ∈ strip (lower s).toList) : '/' ∈ s.toList := by
  have inside := mem_of_mem_strip h
  rw [lower, String.toList_ofList] at inside
  exact slash_of_mem_lowerAfter inside

end Text

namespace Value

open Number

theorem ofNumeralText_fault {p zeros : Nat} {t : NumeralText} {f : NumeralFault}
    (h : Precise.ofNumeralText p t zeros = .error f) : f = .malformed := by
  simp only [Precise.ofNumeralText] at h
  split at h
  · exact (Except.error.inj h).symm
  · cases h

theorem read_fault {p : Nat} {s : String} {f : NumeralFault} (plain : '/' ∉ s.toList)
    (h : Precise.read p s = .error f) : f = .malformed := by
  have noSlash : (Text.strip (Text.lower s).toList).contains '/' = false := by
    rw [List.contains_eq_mem]
    exact decide_eq_false (mt Text.slash_of_mem_plain plain)
  unfold Precise.read at h
  generalize Text.strip (Text.lower s).toList = cs at h noSlash
  simp only [noSlash, Bool.false_eq_true, if_false] at h
  split at h
  · contradiction
  · split at h
    · contradiction
    · split at h
      · contradiction
      · split at h
        · exact ofNumeralText_fault h
        · exact (Except.error.inj h).symm

theorem isNumeric_of_ofNumeral {m : Mode} {p : Nat} {s : String} {f : Fault}
    (h : ofNumeral m p s = .error f) :
    f.isNumeric := by
  cases m with
  | float =>
    simp only [ofNumeral, convert, toFloat?] at h
    split at h <;> cases h
    rfl
  | precise =>
    simp only [ofNumeral, convert, toPrecise?, readPrecise] at h
    split at h <;> cases h <;> rfl

/-- A text without a slash is a number or malformed. -/
theorem ofNumeral_fault {m : Mode} {p : Nat} {s : String} {f : Fault} (plain : '/' ∉ s.toList)
    (h : ofNumeral m p s = .error f) : f = .malformedValue := by
  cases m with
  | float =>
    simp only [ofNumeral, convert, toFloat?] at h
    split at h
    · cases h
    · exact (Except.error.inj h).symm
  | precise =>
    simp only [ofNumeral, convert, toPrecise?, readPrecise] at h
    cases read : Precise.read p s with
    | ok x =>
      rw [read] at h
      cases h
    | error g =>
      obtain rfl := read_fault plain read
      rw [read] at h
      exact (Except.error.inj h).symm

/-- What a number stands for when it is read: a float or a precise number. -/
def IsLiteral (v : Value) : Prop := (∃ x, v = .float x) ∨ ∃ x, v = .precise x

theorem IsLiteral.isNumber {v : Value} (h : v.IsLiteral) : v.IsNumber := by
  rcases h with ⟨x, rfl⟩ | ⟨x, rfl⟩
  · exact .float x
  · exact .precise x

theorem ofNumeral_cases {m : Mode} {p : Nat} {s : String} {v : Value}
    (h : ofNumeral m p s = .ok v) :
    (m = .float ∧ ∃ x, v = .float x) ∨ (m = .precise ∧ ∃ x, v = .precise x) := by
  cases m with
  | float =>
    simp only [ofNumeral, convert] at h
    cases read : (text s).toFloat? p with
    | error f =>
      rw [read] at h
      cases h
    | ok x =>
      rw [read] at h
      exact .inl ⟨rfl, x, (Except.ok.inj h).symm⟩
  | precise =>
    simp only [ofNumeral, convert] at h
    cases read : (text s).toPrecise? p with
    | error f =>
      rw [read] at h
      cases h
    | ok x =>
      rw [read] at h
      exact .inr ⟨rfl, x, (Except.ok.inj h).symm⟩

theorem ofNumeral_isLiteral {m : Mode} {p : Nat} {s : String} {v : Value}
    (h : ofNumeral m p s = .ok v) : v.IsLiteral := by
  rcases ofNumeral_cases h with ⟨_, float⟩ | ⟨_, precise⟩
  · exact .inl float
  · exact .inr precise

end Value

namespace Parser

open Number

variable {p : Nat} {v : Value} {name : String} {e : Int}

theorem meet?_power (h : (name, e) ∈ quantifiers) (x : Binary64) :
    ∃ y, Value.meet? p (.float x) (.integer (tenTo e.natAbs)) = .ok (.floats x y)
      ∧ y.isZero = false := by
  have all : ∀ q ∈ quantifiers, (Binary64.ofInt? (tenTo q.2.natAbs)).any (!·.isZero) := by
    decide +kernel
  obtain ⟨y, isFloat, notZero⟩ := (Option.any_eq_true _ _).mp (all _ h)
  refine ⟨y, ?_, by simpa using notZero⟩
  simp only [Value.meet?, Value.isPrecise, Value.plainFloat?, Value.toFloat?, isFloat]
  rfl

theorem power_ne_zero (h : (name, e) ∈ quantifiers) : ((tenTo e.natAbs : Int) : Dyadic) ≠ 0 := by
  have all : ∀ q ∈ quantifiers, ((tenTo q.2.natAbs : Int) : Dyadic) ≠ 0 := by decide +kernel
  exact all _ h

theorem mul_power_number (h : (name, e) ∈ quantifiers) (literal : v.IsLiteral) :
    GivesNumber (v.mul p (.integer (tenTo e.natAbs))) := by
  rcases literal with ⟨x, rfl⟩ | ⟨x, rfl⟩
  · obtain ⟨y, met, _⟩ := meet?_power (p := p) h x
    simp only [Value.mul, met]
    exact Value.givesNumber_float _
  · exact Value.givesNumber_precise _

theorem quotient_power_number (h : (name, e) ∈ quantifiers) (literal : v.IsLiteral) :
    GivesNumber (v.quotient p (.integer (tenTo e.natAbs))) := by
  rcases literal with ⟨x, rfl⟩ | ⟨x, rfl⟩
  · obtain ⟨y, met, notZero⟩ := meet?_power (p := p) h x
    simp only [Value.quotient, met, bind, Except.bind, notZero]
    exact Value.givesNumber_float _
  · have met : Value.meet? p (.precise x) (.integer (tenTo e.natAbs))
        = .ok (.precise x (.ofInt (tenTo e.natAbs))) := rfl
    have divides : ∃ z, x.div? p (.ofInt (tenTo e.natAbs)) = some z := by
      cases x <;> simp [Precise.div?, Precise.ofInt, power_ne_zero h]
    obtain ⟨z, quotient⟩ := divides
    simp only [Value.quotient, met, bind, Except.bind, quotient]
    exact Value.givesNumber_precise _

theorem scaled_number (h : (name, e) ∈ quantifiers) (literal : v.IsLiteral) :
    GivesNumber (scaled p v e) := by
  unfold scaled
  split
  · exact quotient_power_number h literal
  · exact mul_power_number h literal

end Parser

end Formula
