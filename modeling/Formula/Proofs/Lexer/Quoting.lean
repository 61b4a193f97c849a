import Formula.Proofs.Lexer.Passing
import Formula.Proofs.Lexer.Spelling

/-! Text in quotes. A text constant that is read without a problem is closed, and what stands
between its delimiters says its content; wherever the same characters stand again, the same constant
is read. -/
namespace Formula

namespace Reader.Stands

variable {cs : List Char} {ps : List Problem} {r : Reader}

theorem complete (h : Stands cs ps r) : r.Complete := ⟨h.quiet, h.whole⟩

theorem report (h : Stands cs ps r) (p : Problem) : Stands cs (ps ++ [p]) (r.report p) :=
  ⟨h.rest, congrArg (· ++ [p]) h.problems, h.quiet, h.whole⟩

end Reader.Stands

namespace Lexer

open Reader (Stands)

/-- The inside of a text constant, and the content that it gives. -/
inductive Quoted (delimiter : Char) (escape : SettingValue) : List Char → List Char → Prop
  | done : Quoted delimiter escape [] []
  | plain {c : Char} {cs content : List Char} (inside : endsString delimiter c = false)
      (noEscape : escape.isChar c = false) (more : Quoted delimiter escape cs content) :
      Quoted delimiter escape (c :: cs) (c :: content)
  | escaped {c d : Char} {s : String} {cs content : List Char}
      (inside : endsString delimiter c = false)
      (is : escape.isChar c) (known : unescape? delimiter escape d = some s)
      (more : Quoted delimiter escape cs content) :
      Quoted delimiter escape (c :: d :: cs) (s.toList ++ content)

variable {delimiter : Char} {escape : SettingValue} {cs rest : List Char}
  {ps : List Problem} {r r' : Reader}
  {b b' : TokenBuilder}

theorem Collects.not_clean {p : Problem} (stands : Stands cs (ps ++ [p]) r)
    (collects : Collects b r b' r') :
    r'.problems ≠ ps := by
  intro clean
  obtain ⟨w, qs, passes, _⟩ := collects.passes stands.complete
  have found : ps = ps ++ [p] ++ qs := by rw [← stands.problems, ← passes.problems, clean]
  rw [List.append_assoc] at found
  simpa using congrArg List.length found

theorem visible_of_unescape? {c : Char} {s : String}
    (known : unescape? delimiter escape c = some s) :
    c ≠ endMark := by
  rintro rfl
  simp [unescape?] at known

theorem scanStringTail_end (escape : SettingValue)
    (ends : endsString delimiter (cs.getD 0 endMark)) (n : Nat)
    (b : TokenBuilder) (stands : Stands cs ps r) :
    ∃ r', scanStringTail delimiter escape n b r = (b, r') ∧ Stands cs ps r' := by
  cases n with
  | zero => exact ⟨r, rfl, stands⟩
  | succ n =>
    have here := (stands.reach 0).char 0
    refine ⟨r.reach 0, ?_, stands.reach 0⟩
    simp only [scanStringTail, here, ends, if_true]

theorem scanStringTail_cons (escape : SettingValue) {c : Char}
    (inside : endsString delimiter c = false) (n : Nat)
    (b : TokenBuilder) (stands : Stands (c :: cs) ps r) :
    ∃ r₁, Stands cs ps r₁ ∧ scanStringTail delimiter escape (n + 1) b r =
      if escape.isChar c then
        match unescape? delimiter escape (cs.getD 0 endMark) with
        | some s => scanStringTail delimiter escape n
            (((b.addSource c).addSilently s).addSource (cs.getD 0 endMark)) r₁.advance
        | none => scanStringTail delimiter escape n (b.addSource c) (r₁.report ⟨.error, r₁.position,
            "Cannot use '" ++ (r₁.characterAt 0).text ++ "' as escaped character"⟩)
      else scanStringTail delimiter escape n (b.addContent c) r₁ := by
  have here : (r.reach 0).char 0 = c := (stands.reach 0).char 0
  have behind := (stands.reach 0).advance
  have next := (behind.reach 0).char 0
  cases is : escape.isChar c with
  | true =>
    refine ⟨_, behind.reach 0, ?_⟩
    cases known : unescape? delimiter escape (cs.getD 0 endMark) with
    | some s =>
      simp only [scanStringTail, here, inside, is, next, known, Bool.false_eq_true,
        if_false, if_true]
    | none =>
      simp only [scanStringTail, here, inside, is, next, known, Bool.false_eq_true,
        if_false, if_true]
  | false =>
    refine ⟨_, behind, ?_⟩
    simp only [scanStringTail, here, inside, is, Bool.false_eq_true, if_false]

theorem scanStringTail_quoted {body content : List Char}
    (inside : Quoted delimiter escape body content)
    (n : Nat) (b : TokenBuilder) (stands : Stands (body ++ delimiter :: rest) ps r)
    (enough : body.length ≤ n) :
    ∃ b' r', scanStringTail delimiter escape n b r = (b', r') ∧ Stands (delimiter :: rest) ps r'
      ∧ b'.kind = b.kind ∧ Extends b content b' := by
  induction inside generalizing n b r with
  | done =>
    have ends : endsString delimiter ((delimiter :: rest).getD 0 endMark) := by simp [endsString]
    obtain ⟨r', run, stands'⟩ := scanStringTail_end escape ends n b stands
    exact ⟨b, r', run, stands', rfl, .refl b⟩
  | @plain c cs content inside noEscape _ ih =>
    obtain ⟨n, rfl⟩ : ∃ m, n = m + 1 := ⟨n - 1, by simp at enough; omega⟩
    obtain ⟨r₁, stands₁, step⟩ := scanStringTail_cons escape inside n b stands
    obtain ⟨b', r', run, stands', kind, grown⟩ :=
      ih n (b.addContent c) stands₁ (Nat.le_of_succ_le_succ enough)
    refine ⟨b', r', ?_, stands', kind, (Extends.addContent b c).trans grown⟩
    rw [step, noEscape]
    exact run
  | @escaped c d s cs content inside is known _ ih =>
    obtain ⟨n, rfl⟩ : ∃ m, n = m + 1 := ⟨n - 1, by simp at enough; omega⟩
    obtain ⟨r₁, stands₁, step⟩ := scanStringTail_cons escape inside n b stands
    let b₁ := ((b.addSource c).addSilently s).addSource d
    have meant : Extends b s.toList b₁ :=
      ⟨rfl, by simp [b₁, TokenBuilder.addSource, TokenBuilder.addSilently]⟩
    obtain ⟨b', r', run, stands', kind, grown⟩ := ih n b₁ stands₁.advance (by simp at enough; omega)
    refine ⟨b', r', ?_, stands', kind, meant.trans grown⟩
    rw [step, is, if_pos rfl, List.append_eq, List.cons_append, List.getD_cons_zero, known]
    exact run

theorem scanString_quoted {body content : List Char} (inside : Quoted delimiter escape body content)
    (stands : Stands (delimiter :: (body ++ delimiter :: rest)) ps r) :
    ∃ t r', scanString escape r = (t, r') ∧ Stands rest ps r'
      ∧ t.word = ⟨.string, String.singleton delimiter, String.ofList content⟩ := by
  have here : r.char 0 = delimiter := stands.char 0
  let b : TokenBuilder :=
    TokenBuilder.addTrigger { kind := .string, position := r.position } delimiter
  obtain ⟨b', r', run, stands', kind, grown⟩ :=
    scanStringTail_quoted inside r.rest.length b stands.advance
    (by rw [stands.rest]; simp; omega)
  have closed : r'.char 0 = delimiter := stands'.char 0
  refine ⟨(b'.addSource delimiter).freeze, r'.advance, ?_, stands'.advance, ?_⟩
  · simp only [scanString, here]
    rw [run]
    simp only [closed, if_true]
  · have said : b'.content = String.ofList content := by
      rw [← String.toList_inj, grown.content]
      simp [b, TokenBuilder.addTrigger]
    simp only [Token.word, TokenBuilder.freeze, TokenBuilder.addSource, kind, grown.trigger, said]
    rfl

/-- What is read up to a delimiter without a problem is the inside of a text constant. -/
theorem quoted_of_scanStringTail (visible : delimiter ≠ endMark) (n : Nat) (b : TokenBuilder)
    (stands : Stands cs ps r) (enough : cs.length ≤ n)
    (run : scanStringTail delimiter escape n b r = (b', r')) (closed : r'.char 0 = delimiter)
    (clean : r'.problems = ps) :
    ∃ body content rest, cs = body ++ delimiter :: rest ∧ Quoted delimiter escape body content := by
  induction n generalizing cs b r with
  | zero =>
    obtain rfl := List.length_eq_zero_iff.mp (Nat.le_zero.mp enough)
    obtain ⟨_, rfl⟩ := Prod.mk.inj run
    exact absurd (closed.symm.trans (stands.char 0)) visible
  | succ n ih =>
    cases ends : endsString delimiter (cs.getD 0 endMark) with
    | true =>
      obtain ⟨r₁, same, stands₁⟩ := scanStringTail_end escape ends (n + 1) b stands
      obtain ⟨_, rfl⟩ := Prod.mk.inj (same.symm.trans run)
      have first : cs.getD 0 endMark = delimiter := (stands₁.char 0).symm.trans closed
      cases cs with
      | nil => exact absurd first.symm visible
      | cons c cs =>
        obtain rfl : c = delimiter := first
        exact ⟨[], [], cs, rfl, .done⟩
    | false =>
      cases cs with
      | nil => simp [endsString] at ends
      | cons c cs =>
        have inside : endsString delimiter c = false := ends
        obtain ⟨r₁, stands₁, step⟩ := scanStringTail_cons escape inside n b stands
        rw [step] at run
        cases is : escape.isChar c with
        | false =>
          rw [is, if_neg Bool.false_ne_true] at run
          obtain ⟨body, content, rest, rfl, more⟩ :=
            ih _ stands₁ (Nat.le_of_succ_le_succ enough) run
          exact ⟨c :: body, c :: content, rest, rfl, .plain inside is more⟩
        | true =>
          rw [is, if_pos rfl] at run
          cases known : unescape? delimiter escape (cs.getD 0 endMark) with
          -- What cannot be escaped is reported, and a problem is never taken back.
          | none =>
            rw [known] at run
            dsimp only at run
            have collects := scanStringTail_collects delimiter escape n (b.addSource c)
              (r₁.report ⟨.error, r₁.position,
                "Cannot use '" ++ (r₁.characterAt 0).text ++ "' as escaped character"⟩)
            rw [run] at collects
            exact absurd clean (collects.not_clean (stands₁.report _))
          | some s =>
            rw [known] at run
            cases cs with
            | nil => exact absurd rfl (visible_of_unescape? known)
            | cons d cs =>
              have short : cs.length ≤ n := by simp at enough; omega
              obtain ⟨body, content, rest, rfl, more⟩ := ih _ stands₁.advance short run
              exact ⟨c :: d :: body, s.toList ++ content, rest, rfl, .escaped inside is known more⟩

theorem quoted_of_scanString {t : Token} (visible : delimiter ≠ endMark)
    (stands : Stands (delimiter :: cs) ps r) (run : scanString escape r = (t, r'))
    (clean : r'.problems = ps) :
    ∃ body content rest, cs = body ++ delimiter :: rest ∧ Quoted delimiter escape body content := by
  have here : r.char 0 = delimiter := stands.char 0
  simp only [scanString, here] at run
  generalize tail : scanStringTail delimiter escape r.rest.length
    (TokenBuilder.addTrigger { kind := .string, position := r.position } delimiter)
    r.advance = out at run
  obtain ⟨b', r₁⟩ := out
  have collects := scanStringTail_collects delimiter escape r.rest.length
    (TokenBuilder.addTrigger { kind := .string, position := r.position } delimiter) r.advance
  rw [tail] at collects
  obtain ⟨w, qs, passes, _⟩ := collects.passes stands.advance.complete
  dsimp only at run
  split at run
  · rename_i closed
    obtain ⟨_, rfl⟩ := Prod.mk.inj run
    have problems : r₁.problems = ps := by
      have same : r₁.advance.problems = r₁.problems := by
        unfold Reader.advance
        cases r₁.rest <;> rfl
      exact same.symm.trans clean
    have enough : cs.length ≤ r.rest.length := by
      rw [stands.rest]
      exact Nat.le_succ _
    exact quoted_of_scanStringTail visible _ _ stands.advance enough tail closed problems
  -- a constant that is not closed is a problem, and so is not read without one
  · obtain ⟨_, rfl⟩ := Prod.mk.inj run
    have found : ps = ps ++ qs ++ [⟨.error, r₁.position, "Premature end of string constant"⟩] := by
      rw [← stands.advance.problems, ← passes.problems]
      exact (stands.advance.problems.trans clean.symm)
    rw [List.append_assoc] at found
    simpa using congrArg List.length found

theorem escapeOf?_standard {c : Char} (is : ({} : Settings).escapeOf? c = some escape) :
    c = '"' ∨ c = '\'' := by
  by_contra other
  have single {d : Char} (differs : c ≠ d) :
      (String.singleton d == String.singleton c) = false := by
    apply beq_eq_false_iff_ne.mpr
    intro same
    exact differs (by simpa using (congrArg String.toList same).symm)
  obtain ⟨noDouble, noSingle⟩ := not_or.mp other
  have none : ({} : Settings).stringDelimiters.find? (·.1 == String.singleton c) = none := by
    have first := single noDouble
    have second := single noSingle
    apply List.find?_eq_none.mpr
    intro e he
    rcases List.mem_cons.mp he with rfl | he
    · exact ne_true_of_eq_false first
    · obtain rfl := List.mem_singleton.mp he
      exact ne_true_of_eq_false second
  simp only [Settings.escapeOf?, none] at is
  cases is

end Lexer

end Formula
