import Formula.Proofs.Lexer.Front
import Formula.Proofs.Lexer.Quoting

/-! Tokens that stand alone. The characters of a token that is read without a problem say the same
word wherever they stand, as long as a blank or the end of the text follows. -/
namespace Formula.Lexer

open Formula.Text (isDigit isLetter isBlank isControl)
open Reader (Stands)

/-- The characters are a token that says the word where the others follow. -/
inductive Lexeme : List Char → Word → List Char → Prop
  | spelled {w rest : List Char} {word : Word} (spells : Spells w word rest) : Lexeme w word rest
  | quoted {delimiter : Char} {escape : SettingValue} {body content rest : List Char}
      (is : ({} : Settings).escapeOf? delimiter = some escape)
      (inside : Quoted delimiter escape body content) :
      Lexeme (delimiter :: (body ++ [delimiter]))
      ⟨.string, String.singleton delimiter, String.ofList content⟩ rest

/-- A token ends in front of the characters, whatever it is. -/
def Separated (rest : List Char) : Prop :=
  isBlank (rest.getD 0 endMark) ∨ rest.getD 0 endMark = endMark

variable {cs w rest rest' : List Char} {word : Word} {ps : List Problem} {r r' : Reader} {t : Token}

section Reading

theorem Lexeme.head (h : Lexeme w word rest) : ∃ c cs, w = c :: cs := by
  cases h with
  | spelled spells => exact List.exists_cons_of_ne_nil spells.ne_nil
  | quoted => exact ⟨_, _, rfl⟩

theorem scanToken_string {delimiter : Char} {escape : SettingValue}
    (is : ({} : Settings).escapeOf? delimiter = some escape)
    (stands : Stands (delimiter :: cs) ps r) :
    ∃ r₁, Stands (delimiter :: cs) ps r₁ ∧
      scanToken {} r = (.ok (.done (some (scanString escape r₁).1)), (scanString escape r₁).2) := by
  have plain : isDigit delimiter = false ∧ delimiter ≠ '-' ∧ delimiter ≠ '.' ∧
      isLetter delimiter = false := by
    rcases escapeOf?_standard is with rfl | rfl <;> decide
  obtain ⟨noDigit, noMinus, noPoint, noLetter⟩ := plain
  obtain ⟨r₁, stands₁, same⟩ := scanToken_eq stands
  refine ⟨r₁, stands₁, ?_⟩
  rw [same, startsNumber_of_ne noDigit noMinus noPoint, noLetter, is]
  rfl

theorem scanToken_lexeme (h : Lexeme w word rest) (stands : Stands (w ++ rest) ps r) :
    ∃ t r', scanToken {} r = (.ok (.done (some t)), r') ∧ Stands rest ps r' ∧ t.word = word := by
  cases h with
  | spelled spells => exact scanToken_spelled spells stands
  | @quoted delimiter escape body content _ is inside =>
    rw [List.cons_append, List.append_assoc] at stands
    obtain ⟨r₁, stands₁, same⟩ := scanToken_string is stands
    obtain ⟨t, r', run, done⟩ := scanString_quoted inside stands₁
    rw [run] at same
    exact ⟨t, r', same, done⟩

end Reading

section Numbers

theorem exists_cons_of_append (stop : ({} : Settings).continuesNumber rest = false)
    (goesOn : isDigit ((w ++ rest).getD 0 endMark) ∨ (w ++ rest).getD 0 endMark = '.') :
    ∃ c cs, w = c :: cs := by
  apply List.exists_cons_of_ne_nil
  rintro rfl
  have continues : ({} : Settings).continuesNumber rest := by
    rw [List.nil_append] at goesOn
    rcases goesOn with digit | point
    · simp only [Settings.continuesNumber, digit, Bool.true_or]
    · simp only [Settings.continuesNumber, isDecimalSeparator_standard, point,
        decide_true, Bool.or_true, Bool.true_or]
  exact absurd continues (ne_true_of_eq_false stop)

theorem isDigit_of_append (stop : ({} : Settings).continuesNumber rest = false)
    (digit : isDigit ((w ++ rest).getD 0 endMark)) : isDigit (w.getD 0 endMark) := by
  obtain ⟨c, cs, rfl⟩ := exists_cons_of_append stop (.inl digit)
  exact digit

theorem noDigit_of_startsNumber {c : Char} (h : ({} : Settings).startsNumber (c :: cs) = false) :
    isDigit c = false := by
  rw [startsNumber_eq] at h
  simp only [Bool.or_eq_false_iff] at h
  exact h.1.1.1

theorem continuesNumber_cons {c : Char} (goesOn : ({} : Settings).continuesNumber (c :: cs)) :
    isDigit c ∨ c = '.' ∨ c = '_' ∧ isDigit (cs.getD 0 endMark) ∨ (c = 'e' ∨ c = 'E') ∧
      (isDigit (cs.getD 0 endMark) ∨ (cs.getD 0 endMark = '+' ∨ cs.getD 0 endMark = '-')
        ∧ isDigit (cs.getD 1 endMark)) := by
  simpa [Settings.continuesNumber, or_assoc] using goesOn

theorem numeral_of_scanNumberTail (n : Nat) (b : TokenBuilder) (stands : Stands cs ps r)
    (enough : cs.length ≤ n)
    {out : Except Fault Token} (run : scanNumberTail {} n b r = (out, r'))
    (clean : r'.problems = ps) :
    ∃ w k ds rest, cs = w ++ rest ∧
      Numeral b.kind w k ds ∧ ({} : Settings).continuesNumber rest = false := by
  induction n generalizing cs b r with
  | zero =>
    obtain rfl := List.length_eq_zero_iff.mp (Nat.le_zero.mp enough)
    exact ⟨[], _, [], [], rfl, .done, by decide⟩
  | succ n ih =>
    cases goesOn : ({} : Settings).continuesNumber cs with
    | false => exact ⟨[], _, [], cs, rfl, .done, goesOn⟩
    | true =>
      obtain ⟨c, cs, rfl⟩ : ∃ d ds, cs = d :: ds := by
        apply List.exists_cons_of_ne_nil
        rintro rfl
        exact absurd goesOn (by decide)
      obtain ⟨r₁, stands₁, step⟩ := scanNumberTail_cons goesOn n b stands
      rw [step] at run
      have short : cs.length ≤ n := Nat.le_of_succ_le_succ enough
      -- whatever is read behind a problem, the problem stays
      have reported {b₁ : TokenBuilder} {p : Problem}
          (more : scanNumberTail {} n b₁ (r₁.report p).advance = (out, r')) : False := by
        obtain ⟨b', r'', same, collects⟩ :=
          scanNumberTail_collects Settings.wellTyped_standard n b₁ (r₁.report p).advance
        obtain ⟨_, rfl⟩ := Prod.mk.inj (same.symm.trans more)
        exact collects.not_clean (stands₁.report p).advance clean
      -- A digit, a point, a grouping character before a digit, or the mark of an exponent.
      rcases continuesNumber_cons goesOn with digit | rfl | ⟨rfl, next⟩ | ⟨exponent, next⟩
      · have noExponent : ¬ (c = 'e' ∨ c = 'E') := by
          rintro (same | same) <;> exact ne_of_isDigit digit (by simp) same
        rw [if_neg (ne_of_isDigit digit (by simp)), if_neg (ne_of_isDigit digit (by simp)),
          if_neg noExponent] at run
        obtain ⟨w, k, ds, rest, rfl, reads, stop⟩ := ih _ stands₁.advance short run
        exact ⟨c :: w, k, c :: ds, rest, rfl, .digit digit reads, stop⟩
      · rw [if_neg (by decide), if_pos rfl] at run
        split at run
        · rename_i whole
          obtain ⟨w, k, ds, rest, rfl, reads, stop⟩ := ih _ stands₁.advance short run
          exact ⟨'.' :: w, k, '.' :: ds, rest, rfl, whole ▸ .point reads, stop⟩
        · exact (reported run).elim
      · rw [if_pos rfl] at run
        obtain ⟨w, k, ds, rest, rfl, reads, stop⟩ := ih _ stands₁.advance short run
        exact ⟨'_' :: w, k, ds, rest, rfl, .group (isDigit_of_append stop next) reads, stop⟩
      · rw [if_neg (by rcases exponent with rfl | rfl <;> decide),
          if_neg (by rcases exponent with rfl | rfl <;> decide), if_pos exponent] at run
        split at run
        · exact (reported run).elim
        · rename_i first
          dsimp only at run
          split at run
          · rename_i sign
            cases cs with
            | nil => rcases sign with sign | sign <;> exact absurd sign (by decide)
            | cons s cs =>
              have noDigit : ¬ isDigit s := by
                intro digit
                rcases sign with sign | sign <;> exact ne_of_isDigit digit (by simp) sign
              have more : cs.length ≤ n := Nat.le_of_succ_le short
              obtain ⟨w, k, ds, rest, rfl, reads, stop⟩ := ih _ stands₁.advance.advance more run
              have digit := isDigit_of_append stop (next.resolve_left noDigit).2
              exact ⟨c :: s :: w, k, 'e' :: s :: ds, rest, rfl,
                .signed exponent first sign digit reads, stop⟩
          · rename_i noSign
            obtain ⟨w, k, ds, rest, rfl, reads, stop⟩ := ih _ stands₁.advance short run
            have digit := isDigit_of_append stop (next.resolve_right fun signed => noSign signed.1)
            exact ⟨c :: w, k, 'e' :: ds, rest, rfl, .exponent exponent first digit reads, stop⟩

theorem spells_of_scanNumber (starts : ({} : Settings).startsNumber cs) (stands : Stands cs ps r)
    {out : Except Fault Token} (run : scanNumber {} r = (out, r')) (clean : r'.problems = ps) :
    ∃ w word rest, cs = w ++ rest ∧ Spells w word rest := by
  cases cs with
  | nil => exact absurd starts (by decide)
  | cons c cs =>
    have here : r.char 0 = c := stands.char 0
    have enough : cs.length ≤ r.rest.length := by
      rw [stands.rest]
      exact Nat.le_succ _
    rw [startsNumber_eq] at starts
    simp only [Bool.or_eq_true, Bool.and_eq_true, beq_iff_eq, decide_eq_true_eq] at starts
    simp only [scanNumber, here, isDecimalSeparator_standard, decide_eq_true_eq] at run
    by_cases point : c = '.'
    · subst point
      rw [if_pos rfl] at run
      obtain ⟨w, k, ds, rest, rfl, reads, stop⟩ :=
        numeral_of_scanNumberTail r.rest.length _ stands.advance enough run clean
      have digit : isDigit ((w ++ rest).getD 0 endMark) := by
        rcases starts with ((digit | ⟨minus, _⟩) | ⟨⟨minus, _⟩, _⟩) | ⟨_, digit⟩
        · exact absurd digit (by decide)
        · exact absurd minus (by decide)
        · exact absurd minus (by decide)
        · exact digit
      exact ⟨'.' :: w, _, rest, rfl,
        .number (.inr ⟨rfl, isDigit_of_append stop digit⟩) (.point reads) stop⟩
    · rw [if_neg point] at run
      obtain ⟨w, k, ds, rest, rfl, reads, stop⟩ :=
        numeral_of_scanNumberTail r.rest.length _ stands.advance enough run clean
      -- A digit, or a minus sign in front of a digit or of a point.
      rcases starts with ((digit | ⟨rfl, digit⟩) | ⟨⟨rfl, dot⟩, digit⟩) | ⟨dot, _⟩
      · exact ⟨c :: w, _, rest, rfl, .number (.inl digit) (.digit digit reads) stop⟩
      · exact ⟨'-' :: w, _, rest, rfl, .negative (.inl (isDigit_of_append stop digit)) reads stop⟩
      · obtain ⟨d, w, rfl⟩ := exists_cons_of_append stop (.inr dot)
        have digit : isDigit (w.getD 0 endMark) := isDigit_of_append stop digit
        exact ⟨'-' :: d :: w, _, rest, rfl, .negative (.inr ⟨dot, digit⟩) reads stop⟩
      · exact absurd dot point

end Numbers

section Tokens

theorem isNameChar_dropWhile (cs : List Char) :
    isNameChar ((cs.dropWhile isNameChar).getD 0 endMark) = false := by
  cases same : cs.dropWhile isNameChar with
  | nil => decide
  | cons d ds =>
    have := List.head_dropWhile_not isNameChar (l := cs) (by simp [same])
    simpa [same] using this

theorem spells_name {c : Char} (letter : isLetter c) (noDigit : isDigit c = false)
    (cs : List Char) :
    ∃ w word rest, c :: cs = w ++ rest ∧ Spells w word rest := by
  refine ⟨c :: cs.takeWhile isNameChar, _, cs.dropWhile isNameChar, ?_,
    .name letter noDigit ?_ (isNameChar_dropWhile cs)⟩
  · rw [List.cons_append, List.takeWhile_append_dropWhile]
  · exact List.all_eq_true.mp List.all_takeWhile

theorem spells_symbol {c : Char} (starts : StartsSymbol c cs) :
    ∃ w word rest, c :: cs = w ++ rest ∧ Spells w word rest := by
  cases joined : joins c (cs.getD 0 endMark) with
  | false => exact ⟨[c], _, cs, rfl, .symbol starts joined⟩
  | true =>
    cases cs with
    | nil =>
      simp only [joins, List.getD_nil, Bool.or_eq_true, Bool.and_eq_true, beq_iff_eq] at joined
      rcases joined with ⟨_, rfl⟩ | ended
      · exact absurd starts.noControl (by decide)
      · exact absurd ended (by decide)
    | cons d cs => exact ⟨[c, d], _, cs, rfl, .double starts joined⟩

/-- A token that is read without a problem is a lexeme. -/
theorem lexeme_of_scanToken {c : Char} (stands : Stands (c :: cs) ps r)
    (run : scanToken {} r = (.ok (.done (some t)), r')) (clean : r'.problems = ps) :
    ∃ w word rest, c :: cs = w ++ rest ∧ Lexeme w word rest := by
  have plain (h : ∃ w word rest, c :: cs = w ++ rest ∧ Spells w word rest) :
      ∃ w word rest, c :: cs = w ++ rest ∧ Lexeme w word rest := by
    obtain ⟨w, word, rest, same, spells⟩ := h
    exact ⟨w, word, rest, same, .spelled spells⟩
  obtain ⟨r₁, stands₁, same⟩ := scanToken_eq stands
  rw [same] at run
  -- The cases are those of the scan, in their order.
  by_cases number : ({} : Settings).startsNumber (c :: cs)
  · rw [if_pos number] at run
    generalize read : scanNumber {} r₁ = out at run
    obtain ⟨out, r₂⟩ := out
    cases out with
    | error f => cases (Prod.mk.inj run).1
    | ok u =>
      obtain ⟨_, rfl⟩ := Prod.mk.inj run
      exact plain (spells_of_scanNumber number stands₁ read clean)
  · have noNumber := Bool.eq_false_iff.mpr number
    rw [if_neg number] at run
    by_cases letter : isLetter c
    · exact plain (spells_name letter (noDigit_of_startsNumber noNumber) cs)
    · rw [if_neg letter] at run
      cases delimiter : ({} : Settings).escapeOf? c with
      | some escape =>
        rw [delimiter] at run
        obtain ⟨_, rfl⟩ := Prod.mk.inj run
        have visible : c ≠ endMark := by
          rcases escapeOf?_standard delimiter with rfl | rfl <;> decide
        obtain ⟨body, content, rest, rfl, inside⟩ := quoted_of_scanString visible stands₁ rfl clean
        refine ⟨_, _, rest, ?_, .quoted delimiter inside⟩
        simp
      | none =>
        rw [delimiter] at run
        dsimp only at run
        split at run
        · rename_i bracket
          rcases bracket with is | ⟨rfl, single⟩
          · exact plain ⟨[c], _, cs, rfl, .bracket is⟩
          · exact plain ⟨['|'], _, cs, rfl, .bar single⟩
        · rename_i noBracket
          split at run
          · cases (Prod.mk.inj run).1
          · rename_i noControl
            obtain ⟨bracket, bar⟩ := not_or.mp noBracket
            apply plain
            apply spells_symbol
            constructor
            · exact noNumber
            · exact Bool.eq_false_iff.mpr letter
            · exact delimiter
            · exact Bool.eq_false_iff.mpr bracket
            · intro is
              by_contra single
              exact bar ⟨is, single⟩
            · exact Bool.eq_false_iff.mpr noControl

theorem lexeme_of_covers {qs : List Problem} (visible : r.char 0 ≠ endMark)
    (stands : Stands r.rest ps r)
    (run : scanToken {} r = (.ok (.done (some t)), r')) (covers : Covers t r w qs r')
    (clean : r'.problems = ps) :
    Lexeme t.source.toList t.word r'.rest := by
  have here := Reader.rest_eq_cons visible
  obtain ⟨u, word, rest, same, lexeme⟩ := lexeme_of_scanToken (here ▸ stands) run clean
  rw [← here] at same
  obtain ⟨t', r'', run', stands', rfl⟩ := scanToken_lexeme lexeme (same ▸ stands)
  obtain ⟨done, rfl⟩ := Prod.mk.inj (run'.symm.trans run)
  obtain rfl : t' = t := by simpa using done
  have taken : u ++ rest = w ++ rest := by
    rw [← same, covers.passes.rest, stands'.rest]
  rw [covers.source, stands'.rest, ← List.append_cancel_right taken]
  exact lexeme

end Tokens

section Moving

theorem Separated.noDigit (h : Separated rest) : isDigit (rest.getD 0 endMark) = false := by
  rcases h with blank | ended
  · exact Text.isDigit_of_isBlank blank
  · rw [ended]
    decide

theorem Separated.ne (h : Separated rest) {d : Char} (noBlank : isBlank d = false)
    (visible : d ≠ endMark) :
    rest.getD 0 endMark ≠ d := by
  rintro rfl
  rcases h with blank | ended
  · exact absurd blank (ne_true_of_eq_false noBlank)
  · exact visible ended

theorem Separated.noName (h : Separated rest) : isNameChar (rest.getD 0 endMark) = false := by
  have noLetter : isLetter (rest.getD 0 endMark) = false := by
    rcases h with blank | ended
    · exact Text.isLetter_of_isBlank blank
    · rw [ended]
      decide
  have noLine : rest.getD 0 endMark ≠ '_' := h.ne (by decide) (by decide)
  rw [isNameChar, h.noDigit, noLetter, beq_eq_false_iff_ne.mpr noLine]
  rfl

theorem Separated.noNumber (h : Separated rest) : ({} : Settings).continuesNumber rest = false := by
  have point : rest.getD 0 endMark ≠ '.' := h.ne (by decide) (by decide)
  have line : rest.getD 0 endMark ≠ '_' := h.ne (by decide) (by decide)
  have small : rest.getD 0 endMark ≠ 'e' := h.ne (by decide) (by decide)
  have capital : rest.getD 0 endMark ≠ 'E' := h.ne (by decide) (by decide)
  simp only [Settings.continuesNumber, h.noDigit, isDecimalSeparator_standard,
    isGroupingSeparator_standard, isExponentSeparator_standard, point, line, small, capital]
  rfl

theorem StartsSymbol.apart {c : Char} (starts : StartsSymbol c rest)
    (single : joins c (rest.getD 0 endMark) = false)
    (h : Separated rest') : StartsSymbol c rest' := by
  have noDigit := noDigit_of_startsNumber starts.noNumber
  constructor
  · have point : rest'.getD 0 endMark ≠ '.' := h.ne (by decide) (by decide)
    rw [startsNumber_eq, noDigit, h.noDigit, decide_eq_false point]
    simp
  · exact starts.noLetter
  · exact starts.noDelimiter
  · exact starts.noBracket
  · rintro rfl
    rw [starts.noBar rfl] at single
    exact absurd single (by decide)
  · exact starts.noControl

theorem StartsSymbol.joined {c d : Char} (starts : StartsSymbol c (d :: rest))
    (joined : joins c d) :
    StartsSymbol c (d :: rest') := by
  have noNumber := starts.noNumber
  rw [startsNumber_eq] at noNumber
  simp only [Bool.or_eq_false_iff, List.getD_cons_zero] at noNumber
  constructor
  · have noPoint : d ≠ '.' := by
      rintro rfl
      simp only [joins, Bool.or_eq_true, Bool.and_eq_true, beq_iff_eq] at joined
      rcases joined with ⟨(rfl | rfl) | rfl, same⟩ | same <;> exact absurd same (by decide)
    rw [startsNumber_eq, noNumber.1.1.1, List.getD_cons_zero, noNumber.1.1.2, noNumber.2]
    simp [noPoint]
  · exact starts.noLetter
  · exact starts.noDelimiter
  · exact starts.noBracket
  · exact starts.noBar
  · exact starts.noControl

theorem Lexeme.moved (h : Lexeme w word rest) (apart : Separated rest') : Lexeme w word rest' := by
  cases h with
  | quoted is inside => exact .quoted is inside
  | spelled spells =>
    apply Lexeme.spelled
    cases spells with
    | name letter noDigit names => exact .name letter noDigit names apart.noName
    | number starts reads => exact .number starts reads apart.noNumber
    | negative starts reads => exact .negative starts reads apart.noNumber
    | bracket is => exact .bracket is
    | bar => exact .bar (apart.ne (by decide) (by decide))
    | @symbol c _ starts single =>
      refine .symbol (starts.apart single apart) ?_
      apply Bool.eq_false_iff.mpr
      intro joined
      simp only [joins, Bool.or_eq_true, Bool.and_eq_true, beq_iff_eq] at joined
      rcases joined with ⟨(rfl | rfl) | rfl, same⟩ | same
      · exact apart.ne (by decide) (by decide) same
      · exact apart.ne (by decide) (by decide) same
      · exact apart.ne (by decide) (by decide) same
      · exact apart.ne (by decide) (by decide) same
    | double starts joined => exact .double (starts.joined joined) joined

theorem StartsWord.moved (h : StartsWord (w ++ rest)) (nonempty : w ≠ [])
    (apart : Separated rest') :
    StartsWord (w ++ rest') := by
  obtain ⟨visible, noBlank, noComment⟩ := h
  match w with
  | [] => exact absurd rfl nonempty
  | [c] =>
    refine ⟨visible, noBlank, fun _ => ⟨?_, ?_⟩⟩
    · exact apart.ne (by decide) (by decide)
    · exact apart.ne (by decide) (by decide)
  | c :: d :: w => exact ⟨visible, noBlank, noComment⟩

end Moving

end Formula.Lexer
