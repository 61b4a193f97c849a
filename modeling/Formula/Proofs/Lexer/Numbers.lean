import Formula.Proofs.Lexer.Quoting

/-! Numbers under separators of choice. The lexer takes all characters of a text into one number,
without a problem, exactly if the number goes on with each of them. -/
namespace Formula.Lexer.Separators

open Formula.Text (isDigit)
open Reader (Stands)

variable (s : Separators)

/-- Whether a number goes on with the characters, up to their end and without a problem. So far it
is of the given kind. -/
def goesOn (s : Separators) : TokenKind → List Char → Bool
  | _, [] => true
  | k, c :: cs =>
    if isDigit c then s.goesOn k cs
    else if c = s.grouping then isDigit (cs.getD 0 endMark) && s.goesOn k cs
    else if c = s.decimal then decide (k = .integer) && s.goesOn .decimal cs
    else if s.IsExponent c then decide (k ≠ .scientific) &&
      match cs with
      | [] => false
      | d :: ds =>
        if d = '+' ∨ d = '-' then isDigit (ds.getD 0 endMark) && s.goesOn .scientific ds
        else isDigit d && s.goesOn .scientific ds
    else false

/-- The kind of a number of which the characters are the rest. So far it is of the given kind. -/
def kindAfter (k : TokenKind) (w : List Char) : TokenKind :=
  if s.exponent ∈ w ∨ s.alternate ∈ w then .scientific
  else if s.decimal ∈ w ∧ k = .integer then .decimal
  else k

def contentOf (c : Char) : List Char :=
  if c = s.grouping then []
  else if c = s.decimal then s.effectiveDecimal.toList
  else if s.IsExponent c then s.effectiveExponent.toList
  else [c]

def content (w : List Char) : List Char := w.flatMap s.contentOf

def unsigned : List Char → List Char
  | [] => []
  | c :: cs => if c = '-' then cs else c :: cs

/-- Whether the characters are a number. -/
def accepts (w : List Char) : Bool := s.settings.startsNumber w && s.goesOn .integer (unsigned w)

variable {s} {c : Char} {cs : List Char} {k : TokenKind}

theorem wellTyped : s.settings.WellTyped := by
  constructor
  · exact ⟨_, rfl⟩
  · exact ⟨_, rfl⟩
  · exact .inl ⟨"//", rfl⟩
  · exact .inl ⟨"/*", rfl⟩
  · exact .inl ⟨"*/", rfl⟩

theorem unsigned_of_ne (noMinus : c ≠ '-') : unsigned (c :: cs) = c :: cs := by
  rw [unsigned, if_neg noMinus]

section Steps

theorem goesOn_cons : s.goesOn k (c :: cs) =
    if isDigit c then s.goesOn k cs
    else if c = s.grouping then isDigit (cs.getD 0 endMark) && s.goesOn k cs
    else if c = s.decimal then decide (k = .integer) && s.goesOn .decimal cs
    else if s.IsExponent c then decide (k ≠ .scientific) &&
      match cs with
      | [] => false
      | d :: ds =>
        if d = '+' ∨ d = '-' then isDigit (ds.getD 0 endMark) && s.goesOn .scientific ds
        else isDigit d && s.goesOn .scientific ds
    else false := by
  rw [goesOn.eq_def]

theorem goesOn_digit (is : isDigit c) : s.goesOn k (c :: cs) = s.goesOn k cs := by
  rw [goesOn_cons]
  simp only [is, if_true]

theorem goesOn_grouping :
    s.goesOn k (s.grouping :: cs) = (isDigit (cs.getD 0 endMark) && s.goesOn k cs) := by
  rw [goesOn_cons]
  simp only [noDigit_grouping, Bool.false_eq_true, if_false, if_true]

theorem goesOn_decimal :
    s.goesOn k (s.decimal :: cs) = (decide (k = .integer) && s.goesOn .decimal cs) := by
  rw [goesOn_cons]
  simp only [noDigit_decimal, grouping_ne_decimal.symm, Bool.false_eq_true, if_false, if_true]

theorem goesOn_exponent (is : s.IsExponent c) {d : Char} (noSign : ¬ (d = '+' ∨ d = '-')) :
    s.goesOn k (c :: d :: cs) =
      (decide (k ≠ .scientific) && (isDigit d && s.goesOn .scientific cs)) := by
  rw [goesOn_cons]
  simp only [is.plain.1, is.ne.1, is.ne.2, is, noSign, Bool.false_eq_true, if_false, if_true]

theorem goesOn_signed (is : s.IsExponent c) {d : Char} (sign : d = '+' ∨ d = '-') :
    s.goesOn k (c :: d :: cs) =
      (decide (k ≠ .scientific) && (isDigit (cs.getD 0 endMark) && s.goesOn .scientific cs)) := by
  rw [goesOn_cons]
  simp only [is.plain.1, is.ne.1, is.ne.2, is, sign, Bool.false_eq_true, if_false, if_true]

theorem goesOn_last (is : s.IsExponent c) : s.goesOn k [c] = false := by
  rw [goesOn_cons]
  simp only [is.plain.1, is.ne.1, is.ne.2, is, Bool.false_eq_true, if_false,
    if_true, Bool.and_false]

theorem goesOn_plain (noDigit : isDigit c = false) (plain : s.IsPlain c) :
    s.goesOn k (c :: cs) = false := by
  rw [goesOn_cons]
  simp only [noDigit, plain.noGrouping, plain.noDecimal, plain.noExponent,
    Bool.false_eq_true, if_false]

theorem kindAfter_plain (plain : s.IsPlain c) : s.kindAfter k (c :: cs) = s.kindAfter k cs := by
  obtain ⟨noExponent, noAlternate⟩ := not_or.mp plain.noExponent
  simp only [kindAfter, List.mem_cons, Ne.symm noExponent, Ne.symm noAlternate,
    plain.noDecimal.symm, false_or]

theorem kindAfter_grouping : s.kindAfter k (s.grouping :: cs) = s.kindAfter k cs := by
  have := s.distinct
  simp only [List.nodup_cons, List.mem_cons, not_or] at this
  obtain ⟨⟨noDecimal, -⟩, ⟨noExponent, noAlternate, -⟩, -⟩ := this
  simp only [kindAfter, List.mem_cons, Ne.symm noExponent, Ne.symm noAlternate, noDecimal, false_or]

theorem kindAfter_decimal : s.kindAfter .integer (s.decimal :: cs) = s.kindAfter .decimal cs := by
  have := s.distinct
  simp only [List.nodup_cons, List.mem_cons, not_or] at this
  obtain ⟨⟨-, noExponent, noAlternate, -⟩, -⟩ := this
  simp [kindAfter, Ne.symm noExponent, Ne.symm noAlternate]

theorem kindAfter_exponent (is : s.IsExponent c) : s.kindAfter k (c :: cs) = .scientific := by
  rcases is with rfl | rfl <;> simp [kindAfter]

theorem kindAfter_scientific : s.kindAfter .scientific cs = .scientific := by
  simp [kindAfter]

theorem content_append (u w : List Char) : s.content (u ++ w) = s.content u ++ s.content w :=
  List.flatMap_append

theorem content_plain (plain : s.IsPlain c) : s.content [c] = [c] := by
  simp [content, contentOf, plain.noGrouping, plain.noDecimal, plain.noExponent]

theorem content_grouping : s.content [s.grouping] = [] := by
  simp [content, contentOf]

theorem content_decimal : s.content [s.decimal] = s.effectiveDecimal.toList := by
  simp [content, contentOf, grouping_ne_decimal.symm]

theorem content_exponent (is : s.IsExponent c) : s.content [c] = s.effectiveExponent.toList := by
  simp [content, contentOf, is.ne.1, is.ne.2, is]

end Steps

section Reading

variable {b b₁ : TokenBuilder} {w : List Char} {ps : List Problem} {good : Bool}
  {out : Scanned Token} {r : Reader}

def Outcome (s : Separators) (b : TokenBuilder) (w : List Char) (ps : List Problem) (good : Bool)
    (out : Scanned Token) : Prop :=
  if good then ∃ b', out.1 = .ok b'.freeze ∧ b'.kind = s.kindAfter b.kind w ∧
    Extends b (s.content w) b' ∧
    Stands [] ps out.2
  else ¬ Stands [] ps out.2

theorem Outcome.behind (h : s.Outcome b₁ cs ps good out)
    (kind : s.kindAfter b.kind (w ++ cs) = s.kindAfter b₁.kind cs)
    (grown : Extends b (s.content w) b₁) : s.Outcome b (w ++ cs) ps good out := by
  cases good with
  | false => exact h
  | true =>
    obtain ⟨b', token, kind', grown', stands⟩ := h
    refine ⟨b', token, kind'.trans kind.symm, ?_, stands⟩
    rw [content_append]
    exact grown.trans grown'

theorem outcome_stop (stands : Stands (c :: cs) ps out.2) : s.Outcome b (c :: cs) ps false out := by
  intro ended
  cases stands.rest.symm.trans ended.rest

theorem outcome_reported (n : Nat) {p : Problem} (stands : Stands (c :: cs) ps r) :
    s.Outcome b w ps false (scanNumberTail s.settings n b₁ (r.report p).advance) := by
  obtain ⟨b', r', run, collects⟩ := scanNumberTail_collects wellTyped n b₁ (r.report p).advance
  rw [run]
  intro ended
  exact collects.not_clean (stands.report p).advance ended.problems

section Cases

variable {n : Nat} (ih : ∀ {cs b r}, Stands cs ps r → cs.length ≤ n →
  s.Outcome b cs ps (s.goesOn b.kind cs) (scanNumberTail s.settings n b r))
include ih

theorem outcome_digit (is : isDigit c) (stands : Stands (c :: cs) ps r) (short : cs.length ≤ n) :
    s.Outcome b (c :: cs) ps (s.goesOn b.kind (c :: cs))
      (scanNumberTail s.settings (n + 1) b r) := by
  obtain ⟨r₁, stands₁, step⟩ := scanNumberTail_step (s := s) n b stands
  have plain : s.IsPlain c := isPlain_of_isDigit is
  have more := ih (b := b.addContent c) stands₁.advance short
  rw [step, continuesNumber_digit is, if_neg (by decide), if_neg plain.noGrouping,
    if_neg plain.noDecimal, if_neg plain.noExponent, goesOn_digit is]
  refine more.behind (w := [c]) (kindAfter_plain plain) ?_
  rw [content_plain plain]
  exact .addContent b c

theorem outcome_grouping (stands : Stands (s.grouping :: cs) ps r) (short : cs.length ≤ n) :
    s.Outcome b (s.grouping :: cs) ps (s.goesOn b.kind (s.grouping :: cs))
      (scanNumberTail s.settings (n + 1) b r) := by
  obtain ⟨r₁, stands₁, step⟩ := scanNumberTail_step (s := s) n b stands
  rw [step, continuesNumber_grouping, goesOn_grouping]
  cases isDigit (cs.getD 0 endMark) with
  | false => exact outcome_stop stands₁
  | true =>
    have more := ih (b := b.addSource s.grouping) stands₁.advance short
    rw [if_neg (by decide), if_pos rfl, Bool.true_and]
    refine more.behind (w := [s.grouping]) kindAfter_grouping ?_
    rw [content_grouping]
    exact .addSource b s.grouping

theorem outcome_decimal (stands : Stands (s.decimal :: cs) ps r) (short : cs.length ≤ n) :
    s.Outcome b (s.decimal :: cs) ps (s.goesOn b.kind (s.decimal :: cs))
      (scanNumberTail s.settings (n + 1) b r) := by
  obtain ⟨r₁, stands₁, step⟩ := scanNumberTail_step (s := s) n b stands
  rw [step, continuesNumber_decimal, if_neg (by decide), if_neg grouping_ne_decimal.symm,
    if_pos rfl, goesOn_decimal]
  by_cases whole : b.kind = .integer
  · have more := ih (b := replaced b .decimal s.effectiveDecimal s.decimal) stands₁.advance short
    rw [if_pos whole, decide_eq_true whole, Bool.true_and]
    refine more.behind (w := [s.decimal]) ?_ ?_
    · rw [whole]
      exact kindAfter_decimal
    · rw [content_decimal]
      exact extends_replaced _ _ _ _
  · rw [if_neg whole, decide_eq_false whole, Bool.false_and]
    exact outcome_reported n stands₁

theorem outcome_signed {d : Char} (is : s.IsExponent c) (sign : d = '+' ∨ d = '-')
    (stands : Stands (c :: d :: cs) ps r) (short : cs.length ≤ n) :
    s.Outcome b (c :: d :: cs) ps (s.goesOn b.kind (c :: d :: cs))
      (scanNumberTail s.settings (n + 1) b r) := by
  obtain ⟨r₁, stands₁, step⟩ := scanNumberTail_step (s := s) n b stands
  have noDigit : isDigit d = false := by rcases sign with rfl | rfl <;> decide
  have isSign : (d == '+' || d == '-') = true := by simpa using sign
  rw [step, if_neg is.ne.1, if_neg is.ne.2, if_pos is, continuesNumber_exponent is,
    goesOn_signed is sign]
  simp only [List.getD_cons_zero, List.getD_cons_succ, noDigit, isSign, Bool.false_or,
    Bool.true_and, if_pos sign]
  cases isDigit (cs.getD 0 endMark) with
  | false =>
    rw [Bool.false_and, Bool.and_false]
    exact outcome_stop stands₁
  | true =>
    rw [if_neg (by decide), Bool.true_and]
    -- A second exponent is reported.
    by_cases twice : b.kind = .scientific
    · rw [if_pos twice, decide_eq_false (not_not_intro twice), Bool.false_and]
      exact outcome_reported n stands₁
    · have more := ih (b := (replaced b .scientific s.effectiveExponent c).addContent d)
        stands₁.advance.advance short
      have grown := (extends_replaced b .scientific s.effectiveExponent c).trans (.addContent _ d)
      rw [if_neg twice, decide_eq_true twice, Bool.true_and]
      refine more.behind (w := [c, d]) ?_ ?_
      · rw [List.cons_append, kindAfter_exponent is]
        exact kindAfter_scientific.symm
      · rwa [← content_exponent is, ← content_plain (isPlain_of_sign sign),
          ← content_append] at grown

theorem outcome_unsigned {d : Char} (is : s.IsExponent c) (noSign : ¬ (d = '+' ∨ d = '-'))
    (stands : Stands (c :: d :: cs) ps r) (short : (d :: cs).length ≤ n) :
    s.Outcome b (c :: d :: cs) ps (s.goesOn b.kind (c :: d :: cs))
      (scanNumberTail s.settings (n + 1) b r) := by
  obtain ⟨r₁, stands₁, step⟩ := scanNumberTail_step (s := s) n b stands
  have isNone : (d == '+' || d == '-') = false := by simpa using noSign
  rw [step, if_neg is.ne.1, if_neg is.ne.2, if_pos is, continuesNumber_exponent is,
    goesOn_exponent is noSign]
  simp only [List.getD_cons_zero, List.getD_cons_succ, isNone, Bool.false_and,
    Bool.or_false, if_neg noSign]
  cases digit : isDigit d with
  | false =>
    rw [Bool.false_and, Bool.and_false]
    exact outcome_stop stands₁
  | true =>
    rw [if_neg (by decide), Bool.true_and]
    by_cases twice : b.kind = .scientific
    · rw [if_pos twice, decide_eq_false (not_not_intro twice), Bool.false_and]
      exact outcome_reported n stands₁
    · have more := ih (b := replaced b .scientific s.effectiveExponent c) stands₁.advance short
      rw [goesOn_digit digit] at more
      rw [if_neg twice, decide_eq_true twice, Bool.true_and]
      refine more.behind (w := [c]) ?_ ?_
      · rw [List.singleton_append, kindAfter_exponent is]
        exact kindAfter_scientific.symm
      · rw [content_exponent is]
        exact extends_replaced b .scientific s.effectiveExponent c

theorem outcome_exponent (is : s.IsExponent c) (stands : Stands (c :: cs) ps r)
    (short : cs.length ≤ n) :
    s.Outcome b (c :: cs) ps (s.goesOn b.kind (c :: cs))
      (scanNumberTail s.settings (n + 1) b r) := by
  cases cs with
  | nil =>
    obtain ⟨r₁, stands₁, step⟩ := scanNumberTail_step (s := s) n b stands
    rw [step, continuesNumber_exponent is, goesOn_last is]
    exact outcome_stop stands₁
  | cons d ds =>
    by_cases sign : d = '+' ∨ d = '-'
    · exact outcome_signed ih is sign stands (Nat.le_of_succ_le short)
    · exact outcome_unsigned ih is sign stands short

omit ih in
theorem outcome_plain (noDigit : isDigit c = false) (plain : s.IsPlain c)
    (stands : Stands (c :: cs) ps r) :
    s.Outcome b (c :: cs) ps (s.goesOn b.kind (c :: cs))
      (scanNumberTail s.settings (n + 1) b r) := by
  obtain ⟨r₁, stands₁, step⟩ := scanNumberTail_step (s := s) n b stands
  rw [step, goesOn_plain noDigit plain, continuesNumber_plain noDigit plain]
  exact outcome_stop stands₁

end Cases

/-- The rest of a number is read as far as the number goes on. -/
theorem scanNumberTail_outcome (n : Nat) (b : TokenBuilder) (stands : Stands cs ps r)
    (enough : cs.length ≤ n) :
    s.Outcome b cs ps (s.goesOn b.kind cs) (scanNumberTail s.settings n b r) := by
  induction n generalizing cs b r with
  | zero =>
    obtain rfl := List.length_eq_zero_iff.mp (Nat.le_zero.mp enough)
    exact ⟨b, rfl, by simp [kindAfter], .refl b, stands⟩
  | succ n ih =>
    have ih {cs b r} := @ih cs r b
    cases cs with
    | nil =>
      have stands₁ := stands.reach (s.settings.continuationReach r.rest)
      simp only [scanNumberTail, stands₁.rest, continuesNumber_nil]
      exact ⟨b, rfl, by simp [kindAfter], .refl b, stands₁⟩
    | cons c cs =>
      have short : cs.length ≤ n := Nat.le_of_succ_le_succ enough
      by_cases digit : isDigit c
      · exact outcome_digit ih digit stands short
      by_cases grouping : c = s.grouping
      · subst grouping
        exact outcome_grouping ih stands short
      by_cases decimal : c = s.decimal
      · subst decimal
        exact outcome_decimal ih stands short
      by_cases exponent : s.IsExponent c
      · exact outcome_exponent ih exponent stands short
      · exact outcome_plain (Bool.eq_false_iff.mpr digit) ⟨grouping, decimal, exponent⟩ stands

theorem scanNumber_outcome (starts : s.settings.startsNumber w) (stands : Stands w ps r) :
    s.Outcome { kind := .integer, position := r.position } w ps (s.goesOn .integer (unsigned w))
      (scanNumber s.settings r) := by
  cases w with
  | nil => cases starts
  | cons c cs =>
    let b : TokenBuilder := { kind := .integer, position := r.position }
    have here : r.char 0 = c := stands.char 0
    have enough : cs.length ≤ r.rest.length := by
      rw [stands.rest]
      exact Nat.le_succ _
    rw [startsNumber_eq] at starts
    simp only [scanNumber, here, isDecimalSeparator_eq, decide_eq_true_eq]
    -- A decimal separator changes the kind at once; a digit or a sign is taken as it is.
    by_cases decimal : c = s.decimal
    · subst decimal
      have noMinus : s.decimal ≠ '-' := (s.plain _ (by simp)).2.2.2.1
      have point : addEffective (b.retype .decimal) s.settings.effectiveDecimalSeparator
          = .ok ((b.retype .decimal).addSilently s.effectiveDecimal) := rfl
      rw [if_pos rfl, point, unsigned_of_ne noMinus, goesOn_decimal]
      have more := scanNumberTail_outcome (s := s) r.rest.length
        (replaced b .decimal s.effectiveDecimal s.decimal)
        stands.advance enough
      refine more.behind (w := [s.decimal]) kindAfter_decimal ?_
      rw [content_decimal]
      exact extends_replaced _ _ _ _
    · rw [if_neg decimal]
      have more := scanNumberTail_outcome (s := s) r.rest.length
        (b.addContent c) stands.advance enough
      have plain : s.IsPlain c ∧ s.goesOn .integer (unsigned (c :: cs)) = s.goesOn .integer cs := by
        by_cases minus : c = '-'
        · subst minus
          exact ⟨isPlain_of_sign (.inr rfl), rfl⟩
        · have digit : isDigit c := by simpa [minus, decimal] using starts
          exact ⟨isPlain_of_isDigit digit, by rw [unsigned_of_ne minus, goesOn_digit digit]⟩
      rw [plain.2]
      refine more.behind (w := [c]) (kindAfter_plain plain.1) ?_
      rw [content_plain plain.1]
      exact .addContent _ c

end Reading

end Formula.Lexer.Separators
