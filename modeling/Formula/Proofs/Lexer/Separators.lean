import Formula.Proofs.Lexer.Words

/-! Separators of choice. Four characters separate the parts of a number: which ones they are does
not matter, as long as they are different and have no other meaning in a number. -/
namespace Formula.Lexer

open Formula.Text (isDigit isBlank)
open Reader (Stands)

structure Extends (b : TokenBuilder) (w : List Char) (b' : TokenBuilder) : Prop where
  trigger : b'.trigger = b.trigger
  content : b'.content.toList = b.content.toList ++ w

namespace Extends

variable {b b' b₁ : TokenBuilder} {u w : List Char}

theorem refl (b : TokenBuilder) : Extends b [] b := ⟨rfl, (List.append_nil _).symm⟩

theorem trans (h : Extends b u b₁) (h' : Extends b₁ w b') : Extends b (u ++ w) b' :=
  ⟨h'.trigger.trans h.trigger, by rw [h'.content, h.content, List.append_assoc]⟩

theorem addSource (b : TokenBuilder) (c : Char) : Extends b [] (b.addSource c) :=
  ⟨rfl, (List.append_nil _).symm⟩

theorem addContent (b : TokenBuilder) (c : Char) : Extends b [c] (b.addContent c) :=
  ⟨rfl, by simp [TokenBuilder.addContent]⟩

end Extends

theorem isChar_singleton {c d : Char} (s : String) (same : s = String.singleton d)
    (visible : d ≠ endMark) : (SettingValue.text s).isChar c = decide (c = d) := by
  subst same
  by_cases h : c = d
  · subst h
    simp [SettingValue.isChar, show c ≠ '\x00' from visible]
  · have other : String.singleton d ≠ String.singleton c := fun e =>
      h (by simpa using (congrArg String.toList e).symm)
    simp [SettingValue.isChar, h, other]

/-- Four characters that separate the parts of a number, and what becomes of them in its content. -/
structure Separators where
  decimal : Char
  grouping : Char
  exponent : Char
  alternate : Char
  effectiveDecimal : String
  effectiveExponent : String
  distinct : [decimal, grouping, exponent, alternate].Nodup
  plain : ∀ c ∈ [decimal, grouping, exponent, alternate],
    isDigit c = false ∧ isBlank c = false ∧ c ≠ '+' ∧ c ≠ '-' ∧ c ≠ endMark

namespace Separators

def settings (s : Separators) : Settings :=
  { decimalSeparator := .text (String.singleton s.decimal)
    effectiveDecimalSeparator := .text s.effectiveDecimal
    groupingSeparator := .text (String.singleton s.grouping)
    exponentSeparator := .text (String.singleton s.exponent)
    alternateExponentSeparator := .text (String.singleton s.alternate)
    effectiveExponentSeparator := .text s.effectiveExponent }

def standard : Separators where
  decimal := '.'
  grouping := '_'
  exponent := 'e'
  alternate := 'E'
  effectiveDecimal := "."
  effectiveExponent := "e"
  distinct := by decide
  plain := forall_mem_of_all (by decide +kernel)

theorem settings_standard : standard.settings = {} := rfl

variable (s : Separators)

def IsExponent (c : Char) : Prop := c = s.exponent ∨ c = s.alternate

instance (c : Char) : Decidable (s.IsExponent c) := inferInstanceAs (Decidable (_ ∨ _))

variable {s} {c : Char} {cs : List Char}

section Characters

theorem noDigit_decimal : isDigit s.decimal = false := (s.plain _ (by simp)).1

theorem noDigit_grouping : isDigit s.grouping = false := (s.plain _ (by simp)).1

theorem IsExponent.plain (h : s.IsExponent c) :
    isDigit c = false ∧ isBlank c = false ∧ c ≠ '+' ∧ c ≠ '-' ∧ c ≠ endMark := by
  apply s.plain
  rcases h with rfl | rfl <;> simp

theorem grouping_ne_decimal : s.grouping ≠ s.decimal := by
  have := s.distinct
  simp only [List.nodup_cons, List.mem_cons, not_or] at this
  exact fun same => this.1.1 same.symm

theorem IsExponent.ne (h : s.IsExponent c) : c ≠ s.grouping ∧ c ≠ s.decimal := by
  have := s.distinct
  simp only [List.nodup_cons, List.mem_cons, not_or] at this
  rcases h with rfl | rfl
  · exact ⟨fun same => this.2.1.1 same.symm, fun same => this.1.2.1 same.symm⟩
  · exact ⟨fun same => this.2.1.2.1 same.symm, fun same => this.1.2.2.1 same.symm⟩

theorem isDecimalSeparator_eq : s.settings.isDecimalSeparator c = decide (c = s.decimal) :=
  isChar_singleton _ rfl (s.plain _ (by simp)).2.2.2.2

theorem isGroupingSeparator_eq : s.settings.isGroupingSeparator c = decide (c = s.grouping) :=
  isChar_singleton _ rfl (s.plain _ (by simp)).2.2.2.2

theorem isExponentSeparator_eq : s.settings.isExponentSeparator c = decide (s.IsExponent c) := by
  have first : (SettingValue.text (String.singleton s.exponent)).isChar c =
      decide (c = s.exponent) :=
    isChar_singleton _ rfl (s.plain _ (by simp)).2.2.2.2
  have second : (SettingValue.text (String.singleton s.alternate)).isChar c =
      decide (c = s.alternate) :=
    isChar_singleton _ rfl (s.plain _ (by simp)).2.2.2.2
  have both : s.settings.isExponentSeparator c =
      (decide (c = s.exponent) || decide (c = s.alternate)) := by
    rw [← first, ← second]
    rfl
  rw [both, ← Bool.decide_or]
  rfl

structure IsPlain (s : Separators) (c : Char) : Prop where
  noGrouping : c ≠ s.grouping
  noDecimal : c ≠ s.decimal
  noExponent : ¬ s.IsExponent c

theorem isPlain_of_ne (other : ∀ d ∈ [s.decimal, s.grouping, s.exponent, s.alternate], d ≠ c) :
    s.IsPlain c where
  noGrouping := (other s.grouping (by simp)).symm
  noDecimal := (other s.decimal (by simp)).symm
  noExponent exponent := other c (by rcases exponent with rfl | rfl <;> simp) rfl

theorem isPlain_of_isDigit (is : isDigit c) : s.IsPlain c := by
  refine isPlain_of_ne fun d listed same => ?_
  have noDigit := (s.plain d listed).1
  rw [same, is] at noDigit
  cases noDigit

theorem isPlain_of_sign (is : c = '+' ∨ c = '-') : s.IsPlain c := by
  refine isPlain_of_ne fun d listed same => ?_
  obtain ⟨-, -, noPlus, noMinus, -⟩ := s.plain d listed
  rcases is with rfl | rfl
  · exact noPlus same
  · exact noMinus same

theorem isPlain_endMark : s.IsPlain endMark :=
  isPlain_of_ne fun d listed => (s.plain d listed).2.2.2.2

theorem continuesNumber_eq : s.settings.continuesNumber cs =
    (isDigit (cs.getD 0 endMark) || decide (cs.getD 0 endMark = s.decimal)
      || (decide (cs.getD 0 endMark = s.grouping) && isDigit (cs.getD 1 endMark))
      || (decide (s.IsExponent (cs.getD 0 endMark)) && (isDigit (cs.getD 1 endMark)
        || ((cs.getD 1 endMark == '+' || cs.getD 1 endMark == '-') &&
          isDigit (cs.getD 2 endMark))))) := by
  simp only [Settings.continuesNumber, isDecimalSeparator_eq, isGroupingSeparator_eq,
    isExponentSeparator_eq]

theorem startsNumber_eq : s.settings.startsNumber (c :: cs) =
    (isDigit c || (c == '-' && isDigit (cs.getD 0 endMark))
      || (c == '-' && decide (cs.getD 0 endMark = s.decimal) && isDigit (cs.getD 1 endMark))
      || (decide (c = s.decimal) && isDigit (cs.getD 0 endMark))) := by
  simp only [Settings.startsNumber, isDecimalSeparator_eq]

theorem isDigit_endMark : isDigit endMark = false := by decide

theorem continuesNumber_nil : s.settings.continuesNumber [] = false := by
  have plain : s.IsPlain endMark := isPlain_endMark
  rw [continuesNumber_eq]
  simp only [List.getD_nil, isDigit_endMark, plain.noDecimal, plain.noGrouping,
    plain.noExponent, decide_false, Bool.false_and, Bool.or_self]

theorem continuesNumber_digit (is : isDigit c) : s.settings.continuesNumber (c :: cs) = true := by
  rw [continuesNumber_eq]
  simp only [List.getD_cons_zero, is, Bool.true_or]

theorem continuesNumber_grouping :
    s.settings.continuesNumber (s.grouping :: cs) = isDigit (cs.getD 0 endMark) := by
  have noExponent : ¬ s.IsExponent s.grouping := fun is => is.ne.1 rfl
  rw [continuesNumber_eq]
  simp only [List.getD_cons_zero, List.getD_cons_succ, noDigit_grouping, grouping_ne_decimal,
    noExponent, decide_false, decide_true, Bool.false_and, Bool.true_and, Bool.false_or,
    Bool.or_false]

theorem continuesNumber_decimal : s.settings.continuesNumber (s.decimal :: cs) = true := by
  rw [continuesNumber_eq]
  simp only [List.getD_cons_zero, decide_true, Bool.or_true, Bool.true_or]

theorem continuesNumber_exponent (is : s.IsExponent c) : s.settings.continuesNumber (c :: cs) =
    (isDigit (cs.getD 0 endMark)
      || ((cs.getD 0 endMark == '+' || cs.getD 0 endMark == '-') &&
        isDigit (cs.getD 1 endMark))) := by
  rw [continuesNumber_eq]
  simp only [List.getD_cons_zero, List.getD_cons_succ, is.plain.1, is.ne.1, is.ne.2, is,
    decide_false, decide_true, Bool.false_and, Bool.true_and, Bool.false_or]

theorem continuesNumber_plain (noDigit : isDigit c = false) (plain : s.IsPlain c) :
    s.settings.continuesNumber (c :: cs) = false := by
  rw [continuesNumber_eq]
  simp only [List.getD_cons_zero, noDigit, plain.noDecimal, plain.noGrouping,
    plain.noExponent, decide_false, Bool.false_and, Bool.or_self]

end Characters

variable {ps : List Problem} {r : Reader}

def replaced (b : TokenBuilder) (k : TokenKind) (text : String) (c : Char) : TokenBuilder :=
  ((b.retype k).addSilently text).addSource c

theorem extends_replaced (b : TokenBuilder) (k : TokenKind) (text : String) (c : Char) :
    Extends b text.toList (replaced b k text c) :=
  ⟨rfl, by simp [replaced, TokenBuilder.addSilently, TokenBuilder.retype, TokenBuilder.addSource]⟩

/-- One step in a number, by the character that stands there. -/
theorem scanNumberTail_step (n : Nat) (b : TokenBuilder) (stands : Stands (c :: cs) ps r) :
    ∃ r₁, Stands (c :: cs) ps r₁ ∧ scanNumberTail s.settings (n + 1) b r =
      if !s.settings.continuesNumber (c :: cs) then (.ok b.freeze, r₁)
      else if c = s.grouping then scanNumberTail s.settings n (b.addSource c) r₁.advance
      else if c = s.decimal then
        if b.kind = .integer then
          scanNumberTail s.settings n (replaced b .decimal s.effectiveDecimal c) r₁.advance
        else
          scanNumberTail s.settings n (b.addSource c)
            (r₁.report ⟨.error, r₁.position, "Unexpected decimal separators"⟩).advance
      else if s.IsExponent c then
        if b.kind = .scientific then
          scanNumberTail s.settings n (b.addSource c)
            (r₁.report ⟨.error, r₁.position, "Unexpected scientific notation separators"⟩).advance
        else
          let b := replaced b .scientific s.effectiveExponent c
          let d := cs.getD 0 endMark
          if d = '+' ∨ d = '-' then scanNumberTail s.settings n (b.addContent d) r₁.advance.advance
          else scanNumberTail s.settings n b r₁.advance
      else scanNumberTail s.settings n (b.addContent c) r₁.advance := by
  have stands₁ := stands.reach (s.settings.continuationReach r.rest)
  refine ⟨_, stands₁, ?_⟩
  have point : addEffective (b.retype .decimal) s.settings.effectiveDecimalSeparator
      = .ok ((b.retype .decimal).addSilently s.effectiveDecimal) := rfl
  have exponent : addEffective (b.retype .scientific) s.settings.effectiveExponentSeparator
      = .ok ((b.retype .scientific).addSilently s.effectiveExponent) := rfl
  have here : (r.reach (s.settings.continuationReach r.rest)).char 0 = c := stands₁.char 0
  simp only [scanNumberTail, stands₁.rest, here, stands₁.advance.char 0, point, exponent,
    isDecimalSeparator_eq, isGroupingSeparator_eq, isExponentSeparator_eq, decide_eq_true_eq,
    Bool.or_eq_true, beq_iff_eq, replaced]

end Separators

end Formula.Lexer
