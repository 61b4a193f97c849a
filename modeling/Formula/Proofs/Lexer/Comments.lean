import Formula.Proofs.Lexer.Passing

/-! What is between tokens. Whatever the settings are, the characters that belong to no token are
blanks, comments and control characters, and each control character and each comment without an end
is a problem. -/
namespace Formula.Lexer

open Formula.Text (isBlank isControl)
open Reader (Complete Passes)

/-- The value marks comments by these characters. Nothing is marked by no characters, or by the one
that stands for the end of the input. -/
def SettingValue.Marks (v : SettingValue) (m : List Char) : Prop :=
  m ≠ [] ∧ endMark ∉ m ∧ ∃ s, v = .text s ∧ s.toList = m

def EndsLine (rest : List Char) : Prop := rest.getD 0 endMark = '\n' ∨ rest.getD 0 endMark = endMark

/-- Comments, with the problems found in them and what follows. The end marker of a block comment is
the first one; without an end marker the comment goes on to the end of the text. -/
inductive Comment (st : Settings) : List Char → List Problem → List Char → Prop
  | line {m body rest : List Char} (marks : st.lineComment.Marks m) (inside : '\n' ∉ body)
      (ends : EndsLine rest) : Comment st (m ++ body) [] rest
  | block {m body e rest : List Char} (marks : st.blockCommentStart.Marks m)
      (ends : st.blockCommentEnd.Marks e) (first : ∀ v, v <:+ body → v ≠ [] → ¬ e <+: v ++ e) :
      Comment st (m ++ (body ++ e)) [] rest
  | unended {m body rest : List Char} {at_ : Position} (marks : st.blockCommentStart.Marks m)
      (never : ∀ e, st.blockCommentEnd.Marks e → ¬ e <:+: body)
      (ended : rest.getD 0 endMark = endMark) :
      Comment st (m ++ body) [⟨.error, at_, "Premature end of block comment"⟩] rest

/-- Characters behind a text that belong to no token, with the problems found in them and what
follows. -/
inductive Skipped (st : Settings) : List Char → List Char → List Problem → List Char → Prop
  | none {before rest : List Char} : Skipped st before [] [] rest
  | blank {before g rest : List Char} {c : Char} {ps : List Problem} (is : isBlank c)
      (more : Skipped st (before ++ [c]) g ps rest) : Skipped st before (c :: g) ps rest
  | control {before g rest : List Char} {c : Char} {ps : List Problem} (is : isControl c)
      (noBlank : isBlank c = false) (more : Skipped st (before ++ [c]) g ps rest) :
      Skipped st before (c :: g)
        (⟨.error, .behind before,
          "Invalid character in input: '" ++ String.singleton c ++ "'"⟩ :: ps) rest
  | comment {before w g rest : List Char} {ps qs : List Problem} (is : Comment st w ps (g ++ rest))
      (more : Skipped st (before ++ w) g qs rest) : Skipped st before (w ++ g) (ps ++ qs) rest

section Markers

variable {v : SettingValue} {m cs : List Char} {r : Reader}

theorem agreement_eq_length {ms : List Char} :
    agreement ms cs = ms.length ↔ ms <+: cs ∧ endMark ∉ ms := by
  induction ms generalizing cs with
  | nil => simp [agreement]
  | cons m ms ih =>
    cases cs with
    | nil => simp [agreement]
    | cons c cs =>
      simp only [agreement, List.length_cons, List.cons_prefix_cons, List.mem_cons, not_or]
      split
      · rename_i same
        simp [ih, same.1, Ne.symm (same.1 ▸ same.2)]
      · rename_i differs
        constructor
        · intro short
          simp at short
        · rintro ⟨⟨same, _⟩, visible, _⟩
          exact absurd ⟨same, Ne.symm visible⟩ differs

theorem findMarker_spec (typed : v.IsMarker) (complete : r.Complete) :
    ∃ n r', findMarker v r = (.ok n, r') ∧ r.Passes [] [] r' ∧
      ((∃ m, v.Marks m ∧ m <+: r.rest ∧ n = m.length) ∨
        n = 0 ∧ ∀ m, v.Marks m → ¬ m <+: r.rest) := by
  -- A text marks by its characters, and what is switched off marks nothing.
  rcases typed with ⟨s, rfl⟩ | off
  · simp only [findMarker]
    by_cases empty : s.toList = []
    · refine ⟨0, r, by simp [empty], complete.stays, .inr ⟨rfl, ?_⟩⟩
      rintro m ⟨nonempty, _, t, same, rfl⟩
      cases same
      exact absurd empty nonempty
    · simp only [List.isEmpty_iff, empty, if_false]
      split
      · rename_i found
        have here := agreement_eq_length.mp found
        exact ⟨_, _, rfl, complete.reach _,
          .inl ⟨s.toList, ⟨empty, here.2, s, rfl, rfl⟩, here.1, found⟩⟩
      · rename_i differs
        refine ⟨_, _, rfl, complete.reach _, .inr ⟨rfl, ?_⟩⟩
        rintro m ⟨_, visible, t, same, rfl⟩ here
        cases same
        exact differs (agreement_eq_length.mpr ⟨here, visible⟩)
  · refine ⟨0, r, ?_, complete.stays, .inr ⟨rfl, ?_⟩⟩
    · cases v with
      | text s =>
        have empty : s = "" := by simpa [SettingValue.isOn] using off
        simp [findMarker, empty]
      | _ => simp [findMarker, off]
    · rintro m ⟨nonempty, _, s, rfl, rfl⟩
      have empty : s = "" := by simpa [SettingValue.isOn] using off
      simp [empty] at nonempty

theorem passes_skip (complete : r.Complete) (here : m <+: r.rest) (visible : endMark ∉ m) :
    r.Passes m [] (r.skip m.length) := by
  induction m generalizing r with
  | nil => exact complete.stays
  | cons c m ih =>
    obtain ⟨rest, spelled⟩ := here
    have first : r.char 0 = c := by simp [Reader.char, ← spelled]
    have noEnd : r.char 0 ≠ endMark := fun ended => visible (by simp [← ended, first])
    have step := complete.advance noEnd
    have more : m <+: r.advance.rest := ⟨rest, by rw [Reader.rest_advance, ← spelled]; rfl⟩
    simpa [first, Reader.skip] using step.trans
      (ih step.complete more (fun hm => visible (List.mem_cons_of_mem c hm)))

end Markers

section Comments

variable {st : Settings} {r : Reader}

theorem skipBlanks_passes (n : Nat) (complete : r.Complete) (enough : r.rest.length < n) :
    ∃ g, r.Passes g [] (skipBlanks n r) ∧ (∀ c ∈ g, isBlank c)
      ∧ isBlank ((skipBlanks n r).char 0) = false := by
  induction n generalizing r with
  | zero => omega
  | succ n ih =>
    have looked := complete.reach 0
    simp only [skipBlanks]
    split
    · rename_i blank
      simp only [Bool.and_eq_true, Bool.not_eq_true', beq_eq_false_iff_ne] at blank
      have step := looked.advance blank.2
      obtain ⟨g, passes, blanks, stop⟩ := ih step.complete (by
        have shorter := congrArg List.length step.rest
        simp only [List.nil_append, List.singleton_append, List.length_cons] at shorter
        omega)
      refine ⟨_, step.trans passes, ?_, stop⟩
      rintro c (_ | ⟨_, hc⟩)
      · exact blank.1
      · exact blanks c hc
    · rename_i other
      refine ⟨[], looked, by simp, ?_⟩
      by_cases ended : (r.reach 0).char 0 = endMark
      · rw [ended]
        decide +kernel
      · rw [beq_eq_false_iff_ne.mpr ended, Bool.not_false, Bool.and_true] at other
        exact Bool.eq_false_iff.mpr other

theorem skipLine_passes (n : Nat) (complete : r.Complete) (enough : r.rest.length < n) :
    ∃ body, r.Passes body [] (skipLine n r) ∧ '\n' ∉ body ∧ EndsLine (skipLine n r).rest := by
  induction n generalizing r with
  | zero => omega
  | succ n ih =>
    have looked := complete.reach 0
    simp only [skipLine]
    split
    · rename_i ends
      refine ⟨[], looked, by simp, ?_⟩
      simpa [EndsLine, Reader.char, or_comm] using ends
    · rename_i inside
      simp only [Bool.or_eq_true, beq_iff_eq, not_or] at inside
      have step := looked.advance inside.1
      obtain ⟨body, passes, line, ends⟩ := ih step.complete (by
        have shorter := congrArg List.length step.rest
        simp only [List.nil_append, List.singleton_append, List.length_cons] at shorter
        omega)
      refine ⟨_, step.trans passes, ?_, ends⟩
      simpa [line] using Ne.symm inside.2

theorem skipBlock_passes {v : SettingValue} (typed : v.IsMarker) (n : Nat) (complete : r.Complete)
    (enough : r.rest.length < n) :
    ∃ w ps r', skipBlock v n r = (.ok (), r') ∧ r.Passes w ps r' ∧
      ((ps = [] ∧ ∃ body e, w = body ++ e ∧ v.Marks e ∧ ∀ u, u <:+ body → u ≠ [] → ¬ e <+: u ++ e) ∨
        ((∃ at_, ps = [⟨.error, at_, "Premature end of block comment"⟩]) ∧ r'.char 0 = endMark
          ∧ ∀ e, v.Marks e → ¬ e <:+: w)) := by
  induction n generalizing r with
  | zero => omega
  | succ n ih =>
    have looked := complete.reach 0
    simp only [skipBlock]
    split
    · rename_i ended
      refine ⟨[], _, _, rfl, looked.report _,
        .inr ⟨⟨_, rfl⟩, by simpa [Reader.char] using ended, ?_⟩⟩
      rintro e ⟨nonempty, _⟩ within
      exact nonempty (List.infix_nil.mp within)
    · rename_i visible
      have visible : (r.reach 0).char 0 ≠ endMark := by simpa using visible
      obtain ⟨found, r₁, run, still, outcome⟩ := findMarker_spec typed looked.complete
      rw [run]
      have here : r₁.rest = r.rest := by simpa using still.rest.symm
      rcases outcome with ⟨e, marks, stands, rfl⟩ | ⟨rfl, absent⟩
      · obtain ⟨k, hk⟩ : ∃ k, e.length = k + 1 :=
          Nat.exists_eq_succ_of_ne_zero (mt List.length_eq_zero_iff.mp marks.1)
        have ends := passes_skip (r := r₁) still.complete (by simpa [here] using stands) marks.2.1
        rw [hk] at ends ⊢
        refine ⟨e, [], _, rfl,
          by simpa using (looked.trans still).trans ends, .inl ⟨rfl, [], e, rfl, marks, ?_⟩⟩
        intro u suffix_ nonempty
        exact absurd (List.suffix_nil.mp suffix_) nonempty
      · have same : r₁.char 0 = r.char 0 := by simp [Reader.char, here]
        have step := (looked.trans still).advance (by simpa [same] using visible)
        rw [same] at step
        obtain ⟨w, ps, r', run', passes, outcome⟩ := ih step.complete (by
          have shorter := congrArg List.length step.rest
          simp only [List.nil_append, List.append_nil, List.singleton_append,
            List.length_cons] at shorter
          omega)
        have whole : r.Passes (r.char 0 :: w) ps r' := by simpa using step.trans passes
        refine ⟨_, _, r', run', whole, ?_⟩
        -- the marker does not stand at this place, so the next one to be found is still the first
        have notHere {e u : List Char} (marks : v.Marks e) (starts : e <+: r.char 0 :: w ++ u)
            (spelled : r.rest = r.char 0 :: w ++ u) : False :=
          absent e marks (by simpa [spelled] using starts)
        rcases outcome with ⟨rfl, body, e, rfl, marks, first⟩ | ⟨found, ended, never⟩
        · refine .inl ⟨rfl, r.char 0 :: body, e, rfl, marks, fun u suffix_ nonempty starts => ?_⟩
          rcases List.suffix_cons_iff.mp suffix_ with rfl | inside
          · exact notHere marks (starts.trans (List.prefix_append _ _)) whole.rest
          · exact first u inside nonempty starts
        · refine .inr ⟨found, ended, fun e marks within => ?_⟩
          rcases List.infix_cons_iff.mp within with starts | inside
          · exact notHere marks (starts.trans (List.prefix_append _ _)) whole.rest
          · exact never e marks inside

structure NoComment (st : Settings) (cs : List Char) : Prop where
  line : ∀ m, st.lineComment.Marks m → ¬ m <+: cs
  block : ∀ m, st.blockCommentStart.Marks m → ¬ m <+: cs

theorem skipComment_passes (typed : st.WellTyped) (complete : r.Complete) :
    ∃ w ps r', r.Passes w ps r' ∧ (skipComment st r = (.ok true, r') ∧ w ≠ [] ∧
      Comment st w ps r'.rest
      ∨ skipComment st r = (.ok false, r') ∧ w = [] ∧ ps = [] ∧ NoComment st r'.rest) := by
  -- The marker of line comments is looked for first, then that of block comments.
  obtain ⟨line, r₁, run₁, still₁, outcome₁⟩ := findMarker_spec typed.line complete
  have here₁ : r₁.rest = r.rest := by simpa using still₁.rest.symm
  simp only [skipComment, run₁]
  rcases outcome₁ with ⟨m, marks, stands, rfl⟩ | ⟨rfl, noLine⟩
  · obtain ⟨k, hk⟩ : ∃ k, m.length = k + 1 :=
      Nat.exists_eq_succ_of_ne_zero (mt List.length_eq_zero_iff.mp marks.1)
    have start := still₁.trans
      (passes_skip still₁.complete (by simpa [here₁] using stands) marks.2.1)
    rw [hk] at start ⊢
    obtain ⟨body, passes, inside, ends⟩ := skipLine_passes (r₁.rest.length + 1) start.complete (by
      rw [Reader.rest_skip, List.length_drop]
      omega)
    refine ⟨_, _, _, start.trans passes, .inl ⟨rfl, by simp [marks.1], ?_⟩⟩
    exact .line marks inside ends
  · obtain ⟨block, r₂, run₂, still₂, outcome₂⟩ := findMarker_spec typed.blockStart still₁.complete
    have here₂ : r₂.rest = r.rest := by simpa [here₁] using still₂.rest.symm
    simp only [run₂]
    rcases outcome₂ with ⟨m, marks, stands, rfl⟩ | ⟨rfl, noBlock⟩
    · obtain ⟨k, hk⟩ : ∃ k, m.length = k + 1 :=
        Nat.exists_eq_succ_of_ne_zero (mt List.length_eq_zero_iff.mp marks.1)
      have start := (still₁.trans still₂).trans
        (passes_skip still₂.complete (by simpa [here₁, here₂] using stands) marks.2.1)
      rw [hk] at start ⊢
      obtain ⟨w, ps, r', run, passes, outcome⟩ :=
        skipBlock_passes typed.blockEnd (r₂.rest.length + 1) start.complete (by
          rw [Reader.rest_skip, List.length_drop]
          omega)
      simp only [run]
      refine ⟨_, _, r', start.trans passes, .inl ⟨rfl, by simp [marks.1], ?_⟩⟩
      rcases outcome with ⟨rfl, body, e, rfl, ends, first⟩ | ⟨⟨at_, rfl⟩, ended, never⟩
      · exact .block marks ends first
      · exact .unended marks never ended
    · refine ⟨[], [], r₂, by simpa using still₁.trans still₂, .inr ⟨rfl, rfl, rfl, ?_⟩⟩
      constructor
      · rwa [here₂]
      · rwa [here₂, ← here₁]

theorem Skipped.blanks {before g g' rest : List Char} {ps : List Problem}
    (blanks : ∀ c ∈ g, isBlank c)
    (more : Skipped st (before ++ g) g' ps rest) : Skipped st before (g ++ g') ps rest := by
  induction g generalizing before with
  | nil => simpa using more
  | cons c g ih =>
    apply Skipped.blank (blanks c List.mem_cons_self)
    apply ih (fun d hd => blanks d (List.mem_cons_of_mem c hd))
    simpa using more

end Comments

end Formula.Lexer
