import Formula.Proofs.Lexer.Spelling

/-! Skipping. Blanks and comments between two tokens are skipped without a problem, and what stands
behind them is read as if it stood alone. -/
namespace Formula.Lexer

open Formula.Text (isDigit isLetter isBlank isControl)
open Reader (Stands)

variable {st : Settings} {cs rest : List Char} {ps : List Problem} {r : Reader}

theorem agreement_pair {a b : Char} (first : a ≠ endMark) (second : b ≠ endMark) :
    agreement [a, b] cs = 2 ↔ cs.getD 0 endMark = a ∧ cs.getD 1 endMark = b := by
  match cs with
  | [] => simp [agreement, first.symm]
  | [c] =>
    by_cases h : a = c <;> simp [agreement, h, second.symm]
    split <;> simp
  | c :: d :: cs =>
    simp only [agreement, ne_eq, first, second, not_false_eq_true, and_true, List.getD_cons_zero,
      List.getD_cons_succ, eq_comm (a := c), eq_comm (a := d)]
    by_cases h : a = c <;> by_cases h' : b = d <;> simp [h, h']

theorem findMarker_pair {s : String} {a b : Char} (spelled : s.toList = [a, b])
    (first : a ≠ endMark) (second : b ≠ endMark) (stands : Stands cs ps r) :
    ∃ r', Stands cs ps r' ∧ findMarker (.text s) r =
      (.ok (if cs.getD 0 endMark = a ∧ cs.getD 1 endMark = b then 2 else 0), r') := by
  have agrees : agreement [a, b] cs = 2 ↔ cs.getD 0 endMark = a ∧ cs.getD 1 endMark = b :=
    agreement_pair first second
  simp only [findMarker, stands.rest, spelled, List.isEmpty_cons, Bool.false_eq_true, if_false,
    List.length_cons, List.length_nil, Nat.reduceAdd, ← agrees]
  split
  · rename_i found
    exact ⟨_, stands.reach _, by rw [found]⟩
  · exact ⟨_, stands.reach _, rfl⟩

def inLine (c : Char) : Bool := !(c == endMark || c == '\n')

theorem skipLine_stands (n : Nat) (stands : Stands cs ps r) (enough : cs.length < n) :
    Stands (cs.dropWhile inLine) ps (skipLine n r) := by
  induction cs generalizing n r with
  | nil =>
    obtain ⟨n, rfl⟩ : ∃ m, n = m + 1 := ⟨n - 1, by simp at enough; omega⟩
    have here : (r.reach 0).char 0 = endMark := (stands.reach 0).char 0
    simp only [skipLine, here, beq_self_eq_true, Bool.true_or, if_true]
    exact stands.reach 0
  | cons c cs ih =>
    obtain ⟨n, rfl⟩ : ∃ m, n = m + 1 := ⟨n - 1, by simp at enough; omega⟩
    have here : (r.reach 0).char 0 = c := (stands.reach 0).char 0
    simp only [skipLine, here]
    cases ends : (c == endMark || c == '\n') with
    | true => simpa [inLine, ends] using stands.reach 0
    | false =>
      simpa [inLine, ends] using ih n (stands.reach 0).advance (Nat.lt_of_succ_lt_succ enough)

theorem skipBlock_cons {c : Char} (visible : c ≠ endMark) (n : Nat)
    (stands : Stands (c :: cs) ps r) :
    ∃ r₁, Stands (c :: cs) ps r₁ ∧ skipBlock (.text "*/") (n + 1) r =
      if c = '*' ∧ cs.getD 0 endMark = '/' then (.ok (), r₁.skip 2)
      else skipBlock (.text "*/") n r₁.advance := by
  have here : (r.reach 0).char 0 = c := (stands.reach 0).char 0
  obtain ⟨r₁, stands₁, found⟩ := findMarker_pair (s := "*/") (a := '*') (b := '/') rfl (by decide)
    (by decide) (stands.reach 0)
  refine ⟨r₁, stands₁, ?_⟩
  rw [List.getD_cons_zero, List.getD_cons_succ] at found
  simp only [skipBlock, here, beq_eq_false_iff_ne.mpr visible, Bool.false_eq_true, if_false, found]
  by_cases ended : c = '*' ∧ cs.getD 0 endMark = '/'
  · simp only [ended, and_self, if_true]
  · simp only [ended, if_false]

theorem skipBlock_inside {body : List Char} (inside : BlockBody body) (n : Nat)
    (stands : Stands (body ++ rest) ps r) (enough : body.length ≤ n) :
    ∃ r', skipBlock (.text "*/") n r = (.ok (), r') ∧ Stands rest ps r' := by
  induction inside generalizing n r with
  | last =>
    obtain ⟨n, rfl⟩ : ∃ m, n = m + 1 := ⟨n - 1, by simp at enough; omega⟩
    obtain ⟨r₁, stands₁, step⟩ := skipBlock_cons (by decide) n stands
    exact ⟨r₁.skip 2, step.trans (if_pos ⟨rfl, rfl⟩), stands₁.advance.advance⟩
  | @more c body visible goesOn inside ih =>
    obtain ⟨n, rfl⟩ : ∃ m, n = m + 1 := ⟨n - 1, by simp at enough; omega⟩
    obtain ⟨r₁, stands₁, step⟩ := skipBlock_cons visible n stands
    obtain ⟨r', run, stands'⟩ := ih n stands₁.advance (Nat.le_of_succ_le_succ enough)
    refine ⟨r', ?_, stands'⟩
    have open_ : ¬ (c = '*' ∧ (body ++ rest).getD 0 endMark = '/') := by
      rintro ⟨star, slash⟩
      cases inside <;> exact goesOn star slash
    exact (step.trans (if_neg open_)).trans run

theorem skipComment_eq (stands : Stands cs ps r) :
    ∃ r₁, Stands cs ps r₁ ∧ skipComment {} r =
      if cs.getD 0 endMark = '/' ∧ cs.getD 1 endMark = '/' then
        (.ok true, skipLine (cs.length + 1) (r₁.skip 2))
      else if cs.getD 0 endMark = '/' ∧ cs.getD 1 endMark = '*' then
        match skipBlock (.text "*/") (cs.length + 1) (r₁.skip 2) with
        | (.error f, r) => (.error f, r)
        | (.ok (), r) => (.ok true, r)
      else (.ok false, r₁) := by
  obtain ⟨r₁, stands₁, line⟩ := findMarker_pair (s := "//") (a := '/') (b := '/') rfl (by decide)
    (by decide) stands
  obtain ⟨r₂, stands₂, block⟩ := findMarker_pair (s := "/*") (a := '/') (b := '*') rfl (by decide)
    (by decide) stands₁
  simp only [skipComment, line]
  by_cases isLine : cs.getD 0 endMark = '/' ∧ cs.getD 1 endMark = '/'
  · exact ⟨r₁, stands₁, by simp only [isLine, and_self, if_true, stands₁.rest]⟩
  · refine ⟨r₂, stands₂, ?_⟩
    simp only [isLine, if_false, block]
    by_cases isBlock : cs.getD 0 endMark = '/' ∧ cs.getD 1 endMark = '*'
    · rcases ran : skipBlock (.text "*/") (cs.length + 1) (r₂.skip 2) with ⟨f | _, r₃⟩
      · simp only [isBlock, and_self, if_true, stands₂.rest, ran]
      · simp only [isBlock, and_self, if_true, stands₂.rest, ran]
    · simp only [isBlock, if_false]

theorem skipBlanks_stop (stop : isBlank (cs.getD 0 endMark) = false) (n : Nat)
    (stands : Stands cs ps r) : Stands cs ps (skipBlanks n r) := by
  cases n with
  | zero => exact stands
  | succ n =>
    have here := (stands.reach 0).char 0
    simp only [skipBlanks, here, stop, Bool.false_and, Bool.false_eq_true, if_false]
    exact stands.reach 0

theorem step_blank {c : Char} (is : isBlank c) (stands : Stands (c :: cs) ps r) :
    ∃ r₁, Stands cs ps r₁ ∧ step {} r = step {} r₁ := by
  have here : (r.reach 0).char 0 = c := (stands.reach 0).char 0
  have visible : c ≠ endMark := by
    rintro rfl
    exact absurd is (by decide)
  have skipped : skipBlanks (r.rest.length + 1) r =
      skipBlanks ((r.reach 0).advance.rest.length + 1) (r.reach 0).advance := by
    rw [stands.rest, (stands.reach 0).advance.rest]
    simp [skipBlanks, here, is, visible]
  exact ⟨_, (stands.reach 0).advance, by simp only [step, skipped]⟩

theorem step_eq (noBlank : isBlank (cs.getD 0 endMark) = false) (stands : Stands cs ps r) :
    ∃ r₁, Stands cs ps r₁ ∧ step st r =
      if cs.getD 0 endMark = endMark then (.ok (.done none), r₁)
      else match skipComment st r₁ with
        | (.error f, r) => (.error f, r)
        | (.ok true, r) => (.ok .skipped, r)
        | (.ok false, r) => scanToken st r := by
  have stands₁ := skipBlanks_stop noBlank (r.rest.length + 1) stands
  refine ⟨_, stands₁, ?_⟩
  rcases ran : skipComment st (skipBlanks (r.rest.length + 1) r) with ⟨f | _ | _, r₁⟩
  all_goals simp only [step, stands₁.char 0, beq_iff_eq, ran]

theorem step_end (ended : cs.getD 0 endMark = endMark) (stands : Stands cs ps r) :
    ∃ r', step st r = (.ok (.done none), r') ∧ Stands cs ps r' := by
  have noBlank : isBlank (cs.getD 0 endMark) = false := by
    rw [ended]
    decide
  obtain ⟨r₁, stands₁, same⟩ := step_eq noBlank stands
  exact ⟨r₁, same.trans (if_pos ended), stands₁⟩

theorem step_slash (stands : Stands ('/' :: cs) ps r) :
    ∃ r₁, Stands ('/' :: cs) ps r₁ ∧ step {} r = match skipComment {} r₁ with
      | (.error f, r) => (.error f, r)
      | (.ok true, r) => (.ok .skipped, r)
      | (.ok false, r) => scanToken {} r := by
  have noBlank : isBlank (('/' :: cs).getD 0 endMark) = false := show isBlank '/' = false by decide
  obtain ⟨r₁, stands₁, same⟩ := step_eq noBlank stands
  exact ⟨r₁, stands₁, same.trans (if_neg (show ¬ '/' = endMark by decide))⟩

theorem dropWhile_inLine {body : List Char} (inside : ∀ c ∈ body, c ≠ '\n' ∧ c ≠ endMark)
    (ends : cs.getD 0 endMark = '\n' ∨ cs.getD 0 endMark = endMark) :
    (body ++ cs).dropWhile inLine = cs := by
  rw [List.dropWhile_append_of_pos fun c hc => by simp [inLine, inside c hc]]
  cases cs with
  | nil => rfl
  | cons c cs => exact List.dropWhile_cons_of_neg (by rcases ends with rfl | rfl <;> decide)

theorem step_line {body : List Char} (inside : ∀ c ∈ body, c ≠ '\n' ∧ c ≠ endMark)
    (ends : cs.getD 0 endMark = '\n' ∨ cs.getD 0 endMark = endMark)
    (stands : Stands ('/' :: '/' :: (body ++ cs)) ps r) :
    ∃ r', step {} r = (.ok .skipped, r') ∧ Stands cs ps r' := by
  obtain ⟨r₁, stands₁, same⟩ := step_slash stands
  obtain ⟨r₂, stands₂, comment⟩ := skipComment_eq stands₁
  rw [if_pos ⟨rfl, rfl⟩] at comment
  have start : Stands (body ++ cs) ps (r₂.skip 2) := stands₂.advance.advance
  have ended := skipLine_stands (('/' :: '/' :: (body ++ cs)).length + 1) start (by simp; omega)
  rw [dropWhile_inLine inside ends] at ended
  exact ⟨_, by rw [same, comment], ended⟩

theorem step_block {body : List Char} (inside : BlockBody body)
    (stands : Stands ('/' :: '*' :: (body ++ cs)) ps r) :
    ∃ r', step {} r = (.ok .skipped, r') ∧ Stands cs ps r' := by
  obtain ⟨r₁, stands₁, same⟩ := step_slash stands
  obtain ⟨r₂, stands₂, comment⟩ := skipComment_eq stands₁
  have start : Stands (body ++ cs) ps (r₂.skip 2) := stands₂.advance.advance
  obtain ⟨r', run, stands'⟩ :=
    skipBlock_inside inside (('/' :: '*' :: (body ++ cs)).length + 1) start
    (by simp; omega)
  have noLine : ¬ ('*' = '/') := by decide
  rw [if_neg fun h => noLine h.2, if_pos ⟨rfl, rfl⟩, run] at comment
  exact ⟨r', by rw [same, comment], stands'⟩

theorem step_starts (starts : StartsWord cs) (stands : Stands cs ps r)
    (comments : skipComment st = skipComment {}) :
    ∃ r₁, Stands cs ps r₁ ∧ step st r = scanToken st r₁ := by
  obtain ⟨r₁, stands₁, same⟩ := @step_eq st cs ps r starts.noBlank stands
  obtain ⟨r₂, stands₂, comment⟩ := skipComment_eq stands₁
  rw [if_neg fun h => (starts.noComment h.1).1 h.2, if_neg fun h => (starts.noComment h.1).2 h.2]
    at comment
  rw [if_neg starts.visible, comments, comment] at same
  exact ⟨r₂, stands₂, same⟩

/-- A gap does not change what is read behind it. -/
theorem scanWithin_gap (gap : Gap cs rest) (n : Nat) (stands : Stands cs ps r)
    (enough : cs.length < n) :
    ∃ r₁ m, scanWithin {} n r = scanWithin {} m r₁ ∧ Stands rest ps r₁ ∧ rest.length < m := by
  induction gap generalizing n r with
  | none => exact ⟨r, n, rfl, stands, enough⟩
  -- Blanks are skipped within one step, comments by a step of their own.
  | blank is more ih =>
    obtain ⟨r₁, stands₁, same⟩ := step_blank is stands
    obtain ⟨r₂, m, same₂, more⟩ := ih n stands₁ (by simp at enough; omega)
    refine ⟨r₂, m, ?_, more⟩
    obtain ⟨n, rfl⟩ : ∃ m, n = m + 1 := ⟨n - 1, by omega⟩
    rw [← same₂, scanWithin, scanWithin, same]
  | line inside ends more ih =>
    obtain ⟨n, rfl⟩ : ∃ m, n = m + 1 := ⟨n - 1, by omega⟩
    obtain ⟨r₁, same, stands₁⟩ := step_line inside ends stands
    obtain ⟨r₂, m, same₂, more⟩ := ih n stands₁ (by simp at enough; omega)
    refine ⟨r₂, m, ?_, more⟩
    rw [← same₂, scanWithin, same]
    rfl
  | block inside more ih =>
    obtain ⟨n, rfl⟩ : ∃ m, n = m + 1 := ⟨n - 1, by omega⟩
    obtain ⟨r₁, same, stands₁⟩ := step_block inside stands
    obtain ⟨r₂, m, same₂, more⟩ := ih n stands₁ (by simp at enough; omega)
    refine ⟨r₂, m, ?_, more⟩
    rw [← same₂, scanWithin, same]
    rfl

theorem scan_behind (gap : Gap cs rest) (stands : Stands cs ps r) :
    ∃ r₁, Stands rest ps r₁ ∧ ∀ t r', step {} r₁ = (.ok (.done t), r') →
      scan {} r = (.ok t, r') := by
  obtain ⟨r₁, m, same, stands₁, enough⟩ :=
    scanWithin_gap gap (r.rest.length + 1) stands (by rw [stands.rest]; omega)
  refine ⟨r₁, stands₁, fun t r' read => ?_⟩
  obtain ⟨m, rfl⟩ : ∃ k, m = k + 1 := ⟨m - 1, by omega⟩
  rw [scan, same, scanWithin, read]
  rfl

/-- The word behind a gap is read. -/
theorem scan_word {w : List Char} {word : Word} (gap : Gap cs (w ++ rest))
    (starts : StartsWord (w ++ rest)) (spells : Spells w word rest) (stands : Stands cs ps r) :
    ∃ t r', scan {} r = (.ok (some t), r') ∧ Stands rest ps r' ∧ t.word = word := by
  obtain ⟨r₁, stands₁, behind⟩ := scan_behind gap stands
  obtain ⟨r₂, stands₂, same⟩ := step_starts starts stands₁ rfl
  obtain ⟨t, r', read, done⟩ := scanToken_spelled spells stands₂
  exact ⟨t, r', behind _ _ (same.trans read), done⟩

theorem scan_end (gap : Gap cs rest) (ended : rest.getD 0 endMark = endMark)
    (stands : Stands cs ps r) :
    ∃ r', scan {} r = (.ok none, r') ∧ Stands rest ps r' := by
  obtain ⟨r₁, stands₁, behind⟩ := scan_behind gap stands
  obtain ⟨r', read, done⟩ := step_end ended stands₁
  exact ⟨r', behind _ _ read, done⟩

end Formula.Lexer
