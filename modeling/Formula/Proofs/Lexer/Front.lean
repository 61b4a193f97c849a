import Mathlib.Data.List.Chain
import Formula.Proofs.Lexer.Spelling

/-! The front of a text. What stands in front of a minus sign is read in the same way whatever
stands behind the sign, unless the sign may become that of an exponent. -/
namespace Formula

namespace Text

theorem Ranges.find?_eq_none {rs ss : Ranges} {c : Char}
    (apart : ∀ a ∈ rs, ∀ b ∈ ss, a.2 < b.1 ∨ b.2 < a.1)
    (h : rs.contains c) : ss.find? c = none := by
  obtain ⟨a, found⟩ := Option.isSome_iff_exists.mp h
  have inside := List.find?_some found
  have listed := List.mem_of_find?_eq_some found
  apply List.find?_eq_none.mpr
  intro b hb
  have := apart a listed b hb
  simp only [Bool.and_eq_true, decide_eq_true_eq] at inside ⊢
  omega

theorem isDigit_of_isBlank {c : Char} (h : isBlank c) : isDigit c = false := by
  have plain : Ranges.find? [(48, 57)] c = none := Ranges.find?_eq_none (by decide) h
  have others : digitRanges.find? c = none := Ranges.find?_eq_none (by decide) h
  unfold isDigit digitValue?
  split
  · have noDigit : ¬ ('0' ≤ c ∧ c ≤ '9') := by
      rintro ⟨least, most⟩
      have lower : 48 ≤ c.toNat := least
      have upper : c.toNat ≤ 57 := most
      simp [Ranges.find?, lower, upper] at plain
    rw [if_neg noDigit]
    rfl
  · rw [others]
    rfl

theorem isBlank_of_isDigit {c : Char} (h : isDigit c) : isBlank c = false := by
  apply Bool.eq_false_iff.mpr
  intro blank
  simp [isDigit_of_isBlank blank] at h

theorem isLetter_of_isBlank {c : Char} (h : isBlank c) : isLetter c = false := by
  have plain : Ranges.find? [(65, 90), (97, 122)] c = none := Ranges.find?_eq_none (by decide) h
  have others : letterRanges.find? c = none := Ranges.find?_eq_none (by decide +kernel) h
  unfold isLetter
  split
  · apply Bool.eq_false_iff.mpr
    intro letter
    simp only [Bool.or_eq_true, Bool.and_eq_true, decide_eq_true_eq] at letter
    have range : (65 ≤ c.toNat ∧ c.toNat ≤ 90) ∨ (97 ≤ c.toNat ∧ c.toNat ≤ 122) := letter
    have : ∀ r ∈ [(65, 90), (97, 122)], ¬ (decide (r.1 ≤ c.toNat) && decide (c.toNat ≤ r.2)) :=
      List.find?_eq_none.mp plain
    simp at this
    omega
  · rw [Ranges.contains, others]
    rfl

theorem isBlank_of_isLetter {c : Char} (h : isLetter c) : isBlank c = false := by
  apply Bool.eq_false_iff.mpr
  intro blank
  simp [isLetter_of_isBlank blank] at h

end Text

namespace Lexer

open Text (isDigit isLetter isBlank)

variable {cs ds p w rest xs ys : List Char} {word : Word} {words : List Word}

theorem getD_front (xs ys : List Char) {n : Nat} (near : n ≤ p.length) :
    (p ++ '-' :: xs).getD n endMark = (p ++ '-' :: ys).getD n endMark := by
  induction p generalizing n with
  | nil =>
    obtain rfl := Nat.le_zero.mp near
    rfl
  | cons c p ih =>
    cases n with
    | zero => rfl
    | succ n => exact ih (Nat.le_of_succ_le_succ near)

theorem startsNumber_front (c : Char) :
    ({} : Settings).startsNumber (c :: (p ++ '-' :: xs)) =
      ({} : Settings).startsNumber (c :: (p ++ '-' :: ys)) := by
  rw [startsNumber_eq, startsNumber_eq, getD_front xs ys (Nat.zero_le _)]
  cases p with
  | nil => simp
  | cons d p => rw [getD_front xs ys (Nat.succ_le_succ (Nat.zero_le _))]

theorem continuesNumber_front (noExponent : p ≠ ['e'] ∧ p ≠ ['E']) :
    ({} : Settings).continuesNumber (p ++ '-' :: xs) =
      ({} : Settings).continuesNumber (p ++ '-' :: ys) := by
  have noDigit : isDigit '-' = false := by decide
  match p with
  | [] => simp [Settings.continuesNumber, noDigit]
  | [c] =>
    have noMark : c ≠ 'e' ∧ c ≠ 'E' := by simpa using noExponent
    simp [Settings.continuesNumber, noDigit, noMark.1, noMark.2]
  | [c, d] => simp [Settings.continuesNumber, noDigit]
  | c :: d :: e :: p => rfl

theorem StartsSymbol.front {c : Char} (h : StartsSymbol c (p ++ '-' :: xs)) :
    StartsSymbol c (p ++ '-' :: ys) where
  noNumber := startsNumber_front c ▸ h.noNumber
  noLetter := h.noLetter
  noDelimiter := h.noDelimiter
  noBracket := h.noBracket
  noBar bar := getD_front xs ys (Nat.zero_le _) ▸ h.noBar bar
  noControl := h.noControl

def Word.IsNumber (w : Word) : Prop := w.kind = .integer ∨ w.kind = .decimal ∨ w.kind = .scientific

theorem Numeral.isNumber {k k' : TokenKind} (h : Numeral k cs k' ds)
    (start : k = .integer ∨ k = .decimal ∨ k = .scientific) :
    k' = .integer ∨ k' = .decimal ∨ k' = .scientific := by
  induction h with
  | done => exact start
  | digit _ _ ih | group _ _ ih => exact ih start
  | point _ ih => exact ih (.inr (.inl rfl))
  | exponent _ _ _ _ ih | signed _ _ _ _ _ ih => exact ih (.inr (.inr rfl))

theorem Spells.front (h : Spells w word (p ++ '-' :: xs))
    (apart : word.IsNumber → p ≠ ['e'] ∧ p ≠ ['E']) :
    Spells w word (p ++ '-' :: ys) := by
  have first : (p ++ '-' :: xs).getD 0 endMark = (p ++ '-' :: ys).getD 0 endMark :=
    getD_front xs ys (Nat.zero_le _)
  cases h with
  | name letter noDigit more stop => exact .name letter noDigit more (first ▸ stop)
  | number starts reads stop =>
    exact .number starts reads (continuesNumber_front (apart (reads.isNumber (.inl rfl))) ▸ stop)
  | negative starts reads stop =>
    exact .negative starts reads (continuesNumber_front (apart (reads.isNumber (.inl rfl))) ▸ stop)
  | bracket is => exact .bracket is
  | bar single => exact .bar (first ▸ single)
  | symbol starts single => exact .symbol starts.front (first ▸ single)
  | @double c d _ starts joined => exact .double (StartsSymbol.front (p := d :: p) starts) joined

theorem Spells.ne_nil (h : Spells w word rest) : w ≠ [] := by
  cases h with
  | number starts =>
    obtain ⟨c, cs, rfl, _⟩ := starts.head
    exact List.cons_ne_nil _ _
  | name | negative | bracket | bar | symbol | double => exact List.cons_ne_nil _ _

theorem StartsWord.front (h : StartsWord (p ++ '-' :: xs)) (nonempty : p ≠ []) :
    StartsWord (p ++ '-' :: ys) := by
  have first : (p ++ '-' :: xs).getD 0 endMark = (p ++ '-' :: ys).getD 0 endMark :=
    getD_front xs ys (Nat.zero_le _)
  have second := getD_front xs ys (List.length_pos_iff.mpr nonempty)
  exact ⟨first ▸ h.visible, first ▸ h.noBlank, first ▸ second ▸ h.noComment⟩

theorem Gap.front (h : Gap cs rest) : ∃ p, cs = p ++ rest ∧
    ∀ rest', rest'.getD 0 endMark = rest.getD 0 endMark → Gap (p ++ rest') rest' := by
  induction h with
  | none => exact ⟨[], rfl, fun _ _ => .none⟩
  | @blank c _ _ is _ ih =>
    obtain ⟨p, rfl, more⟩ := ih
    exact ⟨c :: p, rfl, fun rest' same => .blank is (more rest' same)⟩
  | @line body _ rest inside ends _ ih =>
    obtain ⟨p, rfl, more⟩ := ih
    refine ⟨'/' :: '/' :: (body ++ p), by simp, fun rest' same => ?_⟩
    have next : (p ++ rest').getD 0 endMark = (p ++ rest).getD 0 endMark := by
      cases p with
      | nil => exact same
      | cons c p => rfl
    have gap : Gap ('/' :: '/' :: (body ++ (p ++ rest'))) rest' :=
      .line inside (next ▸ ends) (more rest' same)
    simpa using gap
  | @block body _ rest inside _ ih =>
    obtain ⟨p, rfl, more⟩ := ih
    refine ⟨'/' :: '*' :: (body ++ p), by simp, fun rest' same => ?_⟩
    have gap : Gap ('/' :: '*' :: (body ++ (p ++ rest'))) rest' := .block inside (more rest' same)
    simpa using gap

theorem Gap.eq_of_ne (h : Gap cs rest) (noBlank : isBlank (cs.getD 0 endMark) = false)
    (noSlash : cs.getD 0 endMark ≠ '/') : cs = rest := by
  cases h with
  | none => rfl
  | blank is => exact absurd is (ne_true_of_eq_false noBlank)
  | line | block => exact absurd rfl noSlash

/-- Words that do not run into each other where the blanks behind them are left out: behind a number
no name stands that marks an exponent. -/
def Apart (w w' : Word) : Prop :=
  w.IsNumber → w'.kind = .identifier → w'.content ≠ "e" ∧ w'.content ≠ "E"

theorem Reaches.letter {c : Char} (letter : isLetter c) (noDigit : isDigit c = false)
    (noBlank : isBlank c = false)
    (h : Reaches (c :: '-' :: xs) words ('-' :: xs)) :
    ∃ us, words = ⟨.identifier, "", String.singleton c⟩ :: us := by
  have noSlash : c ≠ '/' := by
    rintro rfl
    exact absurd letter (by decide)
  cases h with
  | done gap => exact absurd (congrArg List.length (gap.eq_of_ne noBlank noSlash)) (by simp)
  | word gap _ spells _ =>
    have same := gap.eq_of_ne noBlank noSlash
    -- Only a name starts with a letter, and a minus sign ends it.
    cases spells with
    | @name d w _ _ _ names _ =>
      obtain ⟨rfl, behind⟩ := List.cons.inj same
      cases w with
      | nil => exact ⟨_, rfl⟩
      | cons d w =>
        obtain ⟨rfl, _⟩ := List.cons.inj behind
        exact absurd (names '-' List.mem_cons_self) (by decide)
    | number starts =>
      obtain ⟨d, w, rfl, digit | rfl⟩ := starts.head
      · obtain ⟨rfl, _⟩ := List.cons.inj same
        exact absurd digit (ne_true_of_eq_false noDigit)
      · obtain ⟨rfl, _⟩ := List.cons.inj same
        exact absurd letter (by decide)
    | negative | bar =>
      obtain ⟨rfl, _⟩ := List.cons.inj same
      exact absurd letter (by decide)
    | bracket is =>
      obtain ⟨rfl, _⟩ := List.cons.inj same
      exact absurd letter (ne_true_of_eq_false (isBracket_other (.inl is)).2.1)
    | symbol starts | double starts =>
      obtain ⟨rfl, _⟩ := List.cons.inj same
      exact absurd letter (ne_true_of_eq_false starts.noLetter)

theorem Reaches.front (h : Reaches cs words ('-' :: xs)) (apart : words.IsChain Apart) :
    ∃ p, cs = p ++ '-' :: xs ∧ ∀ ys, Reaches (p ++ '-' :: ys) words ('-' :: ys) := by
  generalize same : '-' :: xs = rest at h
  -- From the sign back to the front: a word looks at no more than what stands between it and the
  -- sign.
  induction h with
  | done gap =>
    subst same
    obtain ⟨p, rfl, more⟩ := gap.front
    exact ⟨p, rfl, fun ys => .done (more _ rfl)⟩
  | @word _ w cs' _ word words gap starts spells more ih =>
    subst same
    obtain ⟨p, rfl, reaches⟩ := ih apart.tail rfl
    have noExponent : word.IsNumber → p ≠ ['e'] ∧ p ≠ ['E'] := by
      have named {c : Char} (mark : c = 'e' ∨ c = 'E') (number : word.IsNumber) : p ≠ [c] := by
        rintro rfl
        have plain : isLetter c ∧ isDigit c = false ∧ isBlank c = false := by
          rcases mark with rfl | rfl <;> decide
        obtain ⟨us, rfl⟩ := more.letter plain.1 plain.2.1 plain.2.2
        obtain ⟨small, capital⟩ := apart.rel number rfl
        rcases mark with rfl | rfl
        · exact small rfl
        · exact capital rfl
      exact fun number => ⟨named (.inl rfl) number, named (.inr rfl) number⟩
    obtain ⟨q, rfl, gap'⟩ := gap.front
    refine ⟨q ++ (w ++ p), by simp, fun ys => ?_⟩
    have visible : (w ++ (p ++ '-' :: ys)).getD 0 endMark =
        (w ++ (p ++ '-' :: xs)).getD 0 endMark := by
      rw [← List.append_assoc, ← List.append_assoc]
      exact getD_front ys xs (Nat.zero_le _)
    have starts' : StartsWord (w ++ (p ++ '-' :: ys)) := by
      rw [← List.append_assoc] at starts ⊢
      exact starts.front (List.append_ne_nil_of_left_ne_nil spells.ne_nil p)
    have reaches' : Reaches (q ++ (w ++ (p ++ '-' :: ys))) (word :: words) ('-' :: ys) :=
      .word (gap' _ visible) starts' (spells.front noExponent) (reaches ys)
    simpa using reaches'

section Signs

variable {b : Char} {bs : List Char}

theorem gap_blanks (blanks : ∀ b ∈ bs, isBlank b) : Gap (bs ++ ds) ds := by
  induction bs with
  | nil => exact .none
  | cons b bs ih =>
    obtain ⟨is, others⟩ := List.forall_mem_cons.mp blanks
    exact .blank is (ih others)

theorem startsWord_minus (cs : List Char) : StartsWord ('-' :: cs) where
  visible := show '-' ≠ endMark by decide
  noBlank := show isBlank '-' = false by decide
  noComment slash := absurd slash (show '-' ≠ '/' by decide)

theorem reaches_minus (is : isBlank b) :
    Reaches ('-' :: b :: cs) [⟨.symbol, "-", ""⟩] (b :: cs) := by
  have noDigit : isDigit b = false := Text.isDigit_of_isBlank is
  have noPoint : b ≠ '.' := by
    rintro rfl
    exact absurd is (by decide)
  have single : joins '-' b = false := by
    apply Bool.eq_false_iff.mpr
    intro joined
    obtain rfl : b = '=' := by simpa [joins] using joined
    exact absurd is (by decide)
  have noNumber : ({} : Settings).startsNumber ('-' :: b :: cs) = false := by
    have sign : isDigit '-' = false := by decide
    simp [startsNumber_eq, sign, noDigit, noPoint]
  have starts : StartsSymbol '-' (b :: cs) :=
    ⟨noNumber, by decide, by decide +kernel, by decide +kernel,
      fun bar => absurd bar (by decide), by decide⟩
  have spells : Spells ['-'] ⟨.symbol, "-", ""⟩ (b :: cs) := .symbol starts single
  exact .single (startsWord_minus (b :: cs)) spells

theorem Reaches.numeral (h : Reaches cs (word :: words) rest) (starts : StartsUnsigned cs) :
    ∃ w ds k, StartsUnsigned w ∧ Numeral .integer w k ds ∧ word = ⟨k, "", String.ofList ds⟩ ∧
      Reaches ('-' :: cs) (⟨k, "", String.ofList ('-' :: ds)⟩ :: words) rest := by
  have number : ({} : Settings).startsNumber (cs ++ []) = true := startsNumber_of_unsigned starts
  rw [List.append_nil] at number
  obtain ⟨c, cs, rfl, first⟩ := starts.head
  obtain ⟨noBlank, noSlash, noMinus⟩ : isBlank c = false ∧ c ≠ '/' ∧ c ≠ '-' := by
    rcases first with digit | rfl
    · have visible : isBlank c = false := by
        apply Bool.eq_false_iff.mpr
        intro blank
        exact absurd digit (ne_true_of_eq_false (Text.isDigit_of_isBlank blank))
      have other : c ≠ '/' := by
        rintro rfl
        exact absurd digit (by decide)
      exact ⟨visible, other, ne_of_isDigit digit (by simp)⟩
    · decide
  -- No other word starts with a digit or with a point in front of one.
  cases h with
  | word gap _ spells more =>
    have same := gap.eq_of_ne noBlank noSlash
    cases spells with
    | number starts' reads stop =>
      rw [same]
      exact ⟨_, _, _, starts', reads, rfl,
        .word .none (startsWord_minus _) (.negative starts' reads stop) more⟩
    | name letter noDigit =>
      obtain ⟨rfl, _⟩ := List.cons.inj same
      rcases first with digit | rfl
      · exact absurd digit (ne_true_of_eq_false noDigit)
      · exact absurd letter (by decide)
    | negative =>
      obtain ⟨rfl, _⟩ := List.cons.inj same
      exact absurd rfl noMinus
    | bracket is =>
      obtain ⟨rfl, _⟩ := List.cons.inj same
      exact absurd number (ne_true_of_eq_false ((isBracket_other (.inl is)).1 _))
    | bar =>
      obtain ⟨rfl, _⟩ := List.cons.inj same
      exact absurd number (ne_true_of_eq_false ((isBracket_other (.inr rfl)).1 _))
    | symbol symbol | double symbol =>
      obtain ⟨rfl, rfl⟩ := List.cons.inj same
      exact absurd number (ne_true_of_eq_false symbol.noNumber)

/-- Where blanks separate a minus sign from what is behind it, the sign is a word of its own. -/
theorem reads_spaced {words' : List Word}
    (front : Reaches (cs ++ '-' :: (bs ++ ds)) words ('-' :: (bs ++ ds)))
    (nonempty : bs ≠ []) (blanks : ∀ b ∈ bs, isBlank b) (behind : Reads ds words') :
    Reads (cs ++ '-' :: (bs ++ ds)) (words ++ ⟨.symbol, "-", ""⟩ :: words') := by
  obtain ⟨rest, reaches, ended⟩ := behind
  have gap : Gap (bs ++ ds) ds := gap_blanks blanks
  obtain ⟨b, bs, rfl⟩ := List.exists_cons_of_ne_nil nonempty
  have minus : Reaches ('-' :: b :: (bs ++ ds)) _ (b :: (bs ++ ds)) :=
    reaches_minus (blanks b List.mem_cons_self)
  exact ⟨rest, front.trans (minus.trans (reaches.after gap)), ended⟩

/-- Without the blanks the sign belongs to the number behind it. -/
theorem reads_unspaced {words' : List Word} (front : Reaches (cs ++ '-' :: xs) words ('-' :: xs))
    (apart : words.IsChain Apart) (unsigned : StartsUnsigned ds)
    (behind : Reads ds (word :: words')) :
    ∃ w content k, StartsUnsigned w ∧ Numeral .integer w k content ∧
      word = ⟨k, "", String.ofList content⟩ ∧
      Reads (cs ++ '-' :: ds) (words ++ ⟨k, "", String.ofList ('-' :: content)⟩ :: words') := by
  obtain ⟨rest, reaches, ended⟩ := behind
  obtain ⟨w, content, k, starts, numeral, said, signed⟩ := reaches.numeral unsigned
  obtain ⟨p, same, anywhere⟩ := front.front apart
  obtain rfl : cs = p := List.append_cancel_right same
  exact ⟨w, content, k, starts, numeral, said, rest, (anywhere ds).trans signed, ended⟩

end Signs

end Lexer

end Formula
