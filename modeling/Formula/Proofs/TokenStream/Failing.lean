import Formula.Proofs.Lexer.Alike
import Formula.Proofs.Lexer.Delivery
import Formula.Proofs.Lexer.Moves
import Formula.Proofs.TokenStream.Splitting

/-! Texts behind which the source fails. The failure is found once, where the text ends, whatever
was looked at when it came up; apart from that the tokens and the problems are those of the text
alone, and the source is not read again. -/
namespace Formula

namespace Reader

theorem last_reach (r : Reader) (n : Nat) : (r.reach n).last = r.last := by
  unfold reach
  split
  · rfl
  · cases r.ending with
    | quiet => rfl
    | failing reason => cases r.ended <;> rfl
    | breaking => cases r.broken <;> rfl

theorem ended_reach {r : Reader} (steady : r.ending ≠ .breaking) (n : Nat) :
    (r.reach n).ended = (r.ended || decide (r.rest.length ≤ n)) := by
  unfold reach
  split
  · rename_i inside
    simp [Nat.not_le.mpr inside]
  · rename_i outside
    have short := Nat.not_lt.mp outside
    cases ending : r.ending with
    | quiet => simp [short]
    | failing reason => cases r.ended <;> simp [short]
    | breaking => exact absurd ending steady

theorem ended_advance (r : Reader) : r.advance.ended = r.ended := by
  unfold advance
  cases r.rest <;> rfl

/-- The lookahead over the stream was asked for what the reader was asked for, one step after
another, and has shown the same characters. -/
inductive Follows (text : List Char) (reason : String) :
    Reader → Lookahead Delivery Character → Prop
  | start : Follows text reason (.ofSource { text := text, ending := .failing reason })
      { source := { rest := text, reason := reason } }
  | look {r : Reader} {d d' : Lookahead Delivery Character} {n : Nat}
      (before : Follows text reason r d)
      (run : Lookahead.at? n d = .ok (r.characterAt n) d') : Follows text reason (r.reach n) d'
  | take {r : Reader} {d d' : Lookahead Delivery Character} (before : Follows text reason r d)
      (more : r.rest ≠ []) (run : Lookahead.drop 1 d = .ok () d') : Follows text reason r.advance d'
  | report {r : Reader} {d : Lookahead Delivery Character} (p : Problem)
      (before : Follows text reason r d) :
      Follows text reason (r.report p) d

namespace Follows

variable {text : List Char} {reason : String} {r : Reader} {d : Lookahead Delivery Character}

theorem ending (h : Follows text reason r d) : r.ending = .failing reason := by
  induction h with
  | start => rfl
  | look _ _ ih => rw [ending_reach, ih]
  | take _ _ _ ih => rw [ending_advance, ih]
  | report _ _ ih => exact ih

theorem holds (h : Follows text reason r d) :
    Holds text reason r.last r.rest d ∧ d.ended = r.ended := by
  induction h with
  | start => exact ⟨.start text reason, rfl⟩
  | @look r d d' n before run ih =>
    obtain ⟨d₁, shown, holds, ended⟩ := ih.1.at? n
    obtain ⟨_, rfl⟩ := EStateM.Result.ok.inj (run.symm.trans shown)
    have steady : r.ending ≠ .breaking := by simp [before.ending]
    rw [last_reach, rest_reach, ended_reach steady]
    exact ⟨holds, by rw [ended, ih.2]⟩
  | @take r d d' before more run ih =>
    obtain ⟨c, cs, next⟩ := List.exists_cons_of_ne_nil more
    obtain ⟨d₁, dropped, holds, ended⟩ := (next ▸ ih.1).drop
    obtain ⟨_, rfl⟩ := EStateM.Result.ok.inj (run.symm.trans dropped)
    rw [ended_advance, ended]
    refine ⟨?_, ih.2⟩
    unfold advance
    rwa [next]
  | report _ _ ih => exact ih

theorem character (r : Reader) (n : Nat) :
    (placed r.last r.rest).getD n ⟨endMark, r.last.afterAll r.rest⟩ = r.characterAt n := by
  rw [List.getD_eq_getElem?_getD, getElem?_placed]
  unfold characterAt char positionAt
  rw [List.getD_eq_getElem?_getD]
  by_cases inside : n < r.rest.length
  · simp [inside]
  · rw [List.getElem?_eq_none (Nat.not_lt.mp inside), List.take_of_length_le (Nat.not_lt.mp inside)]
    simp [inside]

theorem exists_look (h : Follows text reason r d) (n : Nat) :
    ∃ d', Follows text reason (r.reach n) d' := by
  obtain ⟨d', run, _⟩ := h.holds.1.at? n
  rw [character] at run
  exact ⟨d', .look h run⟩

theorem exists_take (h : Follows text reason r d) : ∃ d', Follows text reason r.advance d' := by
  cases next : r.rest with
  | nil =>
    refine ⟨d, ?_⟩
    unfold advance
    rwa [next]
  | cons c cs =>
    have more : r.rest ≠ [] := by simp [next]
    obtain ⟨d', run, _⟩ := (next ▸ h.holds.1).drop
    exact ⟨d', .take h more run⟩

theorem reads_le (h : Follows text reason r d) : d.source.reads ≤ text.length + 1 := by
  have reads := h.holds.1.reads
  have once := Bool.toNat_le d.ended
  omega

end Follows

/-- Two readers at the same place of the same text, behind which the second one fails. The failure
is the only difference between their problems, and there is none before the end was looked at. -/
structure Twins (reason : String) (q f : Reader) : Prop where
  rest : f.rest = q.rest
  last : f.last = q.last
  ended : f.ended = q.ended
  quiet : q.ending = .quiet
  failing : f.ending = .failing reason
  whole : f.broken = none
  before : q.ended = false → f.problems = q.problems
  behind : q.ended = true → ∃ earlier later, q.problems = earlier ++ later ∧
    f.problems = earlier ++ ⟨.error, q.last.afterAll q.rest, reason⟩ :: later

namespace Twins

variable {reason : String} {q f : Reader}

theorem start (text : List Char) (reason : String) :
    Twins reason (.ofSource { text := text })
      (.ofSource { text := text, ending := .failing reason }) where
  rest := rfl
  last := rfl
  ended := rfl
  quiet := rfl
  failing := rfl
  whole := rfl
  before _ := rfl
  behind := nofun

theorem reach (h : Twins reason q f) (n : Nat) : Twins reason (q.reach n) (f.reach n) := by
  have steady : f.ending ≠ .breaking := by simp [h.failing]
  have steady' : q.ending ≠ .breaking := by simp [h.quiet]
  constructor
  · simp [h.rest]
  · simp [last_reach, h.last]
  · rw [ended_reach steady, ended_reach steady', h.ended, h.rest]
  · simp [h.quiet]
  · simp [h.failing]
  · rw [broken_reach steady, h.whole]
  · intro more
    simp only [ended_reach steady', Bool.or_eq_false_iff, decide_eq_false_iff_not,
      Nat.not_le] at more
    obtain ⟨notEnded, inside⟩ := more
    simpa [Reader.reach, h.rest, inside] using h.before notEnded
  -- The end was looked at before, or it is now, and only then the failure is reported.
  · intro past
    simp only [last_reach, rest_reach]
    by_cases inside : n < q.rest.length
    · have ended : q.ended = true := by simpa [Reader.reach, inside] using past
      simpa [Reader.reach, h.rest, inside] using h.behind ended
    · cases ended : q.ended with
      | true =>
        simpa [Reader.reach, h.rest, inside, h.quiet, h.failing, h.ended, ended]
          using h.behind ended
      | false =>
        refine ⟨q.problems, [], ?_, ?_⟩
        · simp [Reader.reach, inside, h.quiet]
        · simp [Reader.reach, h.rest, h.last, inside, h.failing, h.ended, ended,
            Reader.report, h.before ended]

theorem advance (h : Twins reason q f) : Twins reason q.advance f.advance := by
  have place : q.advance.last.afterAll q.advance.rest = q.last.afterAll q.rest := by
    unfold Reader.advance
    cases next : q.rest <;> simp [next, Position.afterAll]
  have same (r : Reader) : r.advance.problems = r.problems := by
    unfold Reader.advance
    cases r.rest <;> rfl
  constructor
  · simp [h.rest]
  · unfold Reader.advance
    rw [h.rest]
    cases q.rest <;> simp [h.last]
  · rw [ended_advance, ended_advance, h.ended]
  · rw [ending_advance, h.quiet]
  · rw [ending_advance, h.failing]
  · rw [broken_advance, h.whole]
  · rw [ended_advance, same, same]
    exact h.before
  · rw [ended_advance, same, same, place]
    exact h.behind

theorem report (h : Twins reason q f) (p : Problem) : Twins reason (q.report p) (f.report p) := by
  refine { h with before := fun more => ?_, behind := fun past => ?_ }
  · exact congrArg (· ++ [p]) (h.before more)
  · obtain ⟨earlier, later, quiet, failing⟩ := h.behind past
    refine ⟨earlier, later ++ [p], ?_, ?_⟩
    · simp [Reader.report, quiet]
    · simp [Reader.report, failing]

end Twins

/-- No step of a lexer tells the twins apart, and the stream behind the second one is read along
with it. -/
theorem alike_twins (text : List Char) (reason : String) :
    Alike fun q f => Twins reason q f ∧ ∃ d, Follows text reason f d := by
  constructor
  · exact fun h => h.1.rest
  · exact fun h => h.1.last
  · rintro q f ⟨twins, d, follows⟩ n
    exact ⟨twins.reach n, follows.exists_look n⟩
  · rintro q f ⟨twins, d, follows⟩
    exact ⟨twins.advance, follows.exists_take⟩
  · rintro q f ⟨twins, d, follows⟩ p
    exact ⟨twins.report p, d, .report p follows⟩

end Reader

namespace Lexer

open Reader (Alike)

variable {R : Reader → Reader → Prop} {st : Settings} {r r' : Reader} {l l' : Lexer}

theorem next_alike (alike : Alike R) (whole : ∀ {r r' : Reader}, R r r' → r'.broken = none)
    (h : R l.reader r) {t : Option Token} (run : l.next = (.ok t, l')) :
    ∃ r', Lexer.next { l with reader := r } = (.ok t, { l' with reader := r' }) ∧
      R l'.reader r' := by
  obtain ⟨r₁, read, rfl⟩ := next_eq_token run
  have same := scan_alike alike l.settings h
  rw [read] at same
  generalize read' : scan l.settings r = out at same
  obtain @⟨_, _, r', related⟩ := same
  exact ⟨r', next_of_scan read' (whole related), related⟩

theorem endToken_alike (alike : Alike R) (h : R l.reader r) :
    Lexer.endToken { l with reader := r } = l.endToken := by
  unfold endToken
  rw [alike.characterAt h]

theorem skipBlanks_looked (n : Nat) (r : Reader) (enough : r.rest.length < n) :
    ∃ r₁ : Reader, skipBlanks n r = r₁.reach 0 := by
  induction n generalizing r with
  | zero => omega
  | succ n ih =>
    simp only [skipBlanks]
    split
    · rename_i blank
      have visible : (r.reach 0).char 0 ≠ endMark := by
        simp only [Bool.and_eq_true, Bool.not_eq_true', beq_eq_false_iff_ne] at blank
        exact blank.2
      have more := List.length_pos_iff.mpr (Reader.rest_ne_nil_of_char visible)
      apply ih
      simp only [Reader.rest_advance, Reader.rest_reach, List.length_tail] at more ⊢
      omega
    · exact ⟨r, rfl⟩

theorem step_stopped (run : step st r = (.ok (.done none), r')) :
    ∃ r₁ : Reader, r' = r₁.reach 0 := by
  have looked := skipBlanks_looked (r.rest.length + 1) r (Nat.lt_succ_self _)
  simp only [step, scanToken] at run
  generalize skipBlanks (r.rest.length + 1) r = r₀ at run looked
  repeat' split at run
  all_goals cases run
  exact looked

theorem scanWithin_stopped (typed : st.WellTyped) (n : Nat) (before : List Char)
    (complete : r.Complete)
    (place : r.last = Position.start.afterAll before) (enough : r.rest.length < n)
    (run : scanWithin st n r = (.ok none, r')) : ∃ r₁ : Reader, r' = r₁.reach 0 := by
  induction n generalizing before r with
  | zero => omega
  | succ n ih =>
    have stepped := step_stepped typed complete place
    rw [scanWithin] at run
    generalize read : step st r = out at run stepped
    cases stepped with
    | ended =>
      cases run
      exact step_stopped read
    | token => cases run
    | @skipped w ps r₁ passes nonempty =>
      have shorter := passes.length_lt nonempty
      exact ih (before ++ w) passes.complete (passes.place place) (by omega) run

theorem ended_of_next (typed : l.settings.WellTyped) {before : List Char}
    (complete : l.reader.Complete)
    (place : l.reader.last = Position.start.afterAll before) (run : l.next = (.ok none, l'))
    (steady : l'.reader.ending = .quiet) (nothing : l'.reader.rest = []) :
    l'.reader.ended = true := by
  obtain ⟨r, read, rfl⟩ := next_eq_token run
  obtain ⟨r₁, rfl⟩ := scanWithin_stopped typed _ before complete place (Nat.lt_succ_self _) read
  simp only [Reader.ending_reach, Reader.rest_reach] at steady nothing
  rw [Reader.ended_reach (by simp [steady]), nothing]
  exact Bool.or_true _

end Lexer

namespace TokenStream

open Reader (Alike Twins Follows)

variable {R : Reader → Reader → Prop}

theorem tokensWithin_alike (alike : Alike R)
    (whole : ∀ {r r' : Reader}, R r r' → r'.broken = none) (n : Nat)
    {l : Lexer} {r : Reader} (h : R l.reader r) {ts : List Token} {s : TokenStream}
    (run : tokensWithin n { source := l } = .ok ts s) :
    ∃ r', tokensWithin n { source := { l with reader := r } }
        = .ok ts { s with source := { s.source with reader := r' } } ∧ R s.source.reader r' := by
  induction n generalizing l r ts with
  | zero =>
    cases run
    exact ⟨r, rfl, h⟩
  | succ n ih =>
    simp only [tokensWithin, bind, EStateM.bind, consume_fresh] at run ⊢
    obtain ⟨out, l', read⟩ : ∃ out l', l.next = (out, l') := ⟨_, _, rfl⟩
    rw [read] at run
    -- The lexer fails, comes to the end, or reads a token.
    rcases out with f | _ | t
    · cases run
    · obtain ⟨r', read', related⟩ := Lexer.next_alike alike whole h read
      have mark := Lexer.endToken_alike alike related
      cases run
      refine ⟨r', ?_, related⟩
      rw [read']
      dsimp only
      rw [mark]
      rfl
    · obtain ⟨r', read', related⟩ := Lexer.next_alike alike whole h read
      rw [read']
      dsimp only at run ⊢
      cases isEnd : t.isEnd with
      | true =>
        simp only [isEnd, if_true] at run ⊢
        cases run
        exact ⟨r', rfl, related⟩
      | false =>
        simp only [isEnd, Bool.false_eq_true, if_false, EStateM.bind] at run ⊢
        cases later : tokensWithin n { source := l' } with
        | error f s' => simp [later] at run
        | ok ts' s' =>
          rw [later] at run
          cases run
          obtain ⟨r'', run'', related''⟩ := ih related later
          exact ⟨r'', by rw [run'']; rfl, related''⟩

theorem tokensWithin_stops (n : Nat) (before : List Char) {l : Lexer} (typed : l.settings.WellTyped)
    (complete : l.reader.Complete) (place : l.reader.last = Position.start.afterAll before)
    (noNull : endMark ∉ l.reader.rest) (enough : l.reader.rest.length < n) :
    ∃ ts l', tokensWithin n { source := l }
        = .ok (ts ++ [l'.endToken]) { source := l', ended := true, endMark := some l'.endToken } ∧
      l'.reader.rest = [] ∧ l'.reader.ended = true := by
  -- `before` is what was read so far, by which the positions are told.
  induction n generalizing before l with
  | zero => omega
  | succ n ih =>
    simp only [tokensWithin, bind, EStateM.bind, consume_fresh]
    obtain ⟨t, r', read, scans⟩ := Lexer.next_scans typed complete place
    rw [read]
    cases scans with
    | @ended g ps _ skipped passes ended =>
      have nothing : r'.rest = [] := by
        cases rest : r'.rest with
        | nil => rfl
        | cons c cs =>
          obtain rfl : c = endMark := by simpa [Reader.char, rest] using ended
          rw [passes.rest, rest] at noNull
          exact absurd (List.mem_append_right g List.mem_cons_self) noNull
      refine ⟨[], _, rfl, nothing, ?_⟩
      exact Lexer.ended_of_next typed complete place read passes.complete.quiet nothing
    | @token g w ps qs t r₁ _ skipped passes _ covers nonempty place' =>
      let l' : Lexer := { l with reader := r', started := true }
      have whole := passes.trans covers.passes
      have shorter : r'.rest.length < l.reader.rest.length := whole.length_lt (by simp [nonempty])
      have noNull : endMark ∉ r'.rest := fun null =>
        noNull (whole.rest ▸ List.mem_append_right _ null)
      obtain ⟨ts, l'', run, nothing, ended⟩ :=
        ih (before ++ (g ++ w)) (l := l') typed whole.complete (whole.place place) noNull
          (Nat.lt_of_lt_of_le shorter (by omega))
      refine ⟨t :: ts, l'', ?_, nothing, ended⟩
      simp only [covers.notEnd, Bool.false_eq_true, if_false, EStateM.bind]
      rw [run]
      rfl

theorem tokens_ofSource (src : Source) (st : Lexer.Settings) :
    ((ofSource src).changeSettings fun _ => st).tokens
      = tokensWithin (src.text.length + 1)
        { source := { reader := .ofSource src, settings := st } } := by
  rw [tokens_eq]
  simp [ofSource, changeSettings, mapLexer, Reader.ofSource]

/-- A text behind which the source fails has the tokens of the text alone and its problems, among
which the failure stands once, where the text ends. The stream is read once for each character and
once behind the last one, and nothing more is read however often the end is asked for. -/
theorem tokens_failing {text : List Char} {st : Lexer.Settings} (typed : st.WellTyped)
    (noNull : endMark ∉ text) (reason : String) :
    ∃ ts mark s s' earlier later d,
      ((ofSource { text := text }).changeSettings fun _ => st).tokens = .ok (ts ++ [mark]) s ∧
      ((ofSource { text := text, ending := .failing reason }).changeSettings fun _ => st).tokens
        = .ok (ts ++ [mark]) s' ∧
      mark.isEnd ∧ s.problems = earlier ++ later ∧
      s'.problems = earlier ++ ⟨.error, mark.position, reason⟩ :: later ∧ consume s' = .ok mark s' ∧
      Follows text reason s'.source.reader d ∧ d.source.reads = text.length + 1 ∧
      d.source.problems = [⟨.error, mark.position, reason⟩] := by
  have alike := Reader.alike_twins text reason
  let l : Lexer := { reader := .ofSource { text := text }, settings := st }
  -- The complete text is read to its end, and the failing one step for step with it.
  obtain ⟨ts, l₁, run, nothing, ended⟩ :=
    tokensWithin_stops (text.length + 1) [] (l := l) typed ⟨rfl, rfl⟩ rfl noNull
      (Nat.lt_succ_self _)
  obtain ⟨r, run', twins, d, follows⟩ :=
    tokensWithin_alike alike (fun h => h.1.whole) (text.length + 1) (l := l)
    ⟨.start text reason, _, .start⟩ run
  have position : l₁.endToken.position = l₁.reader.last := by
    simp [Lexer.endToken, TokenBuilder.freeze, TokenBuilder.ofCharacter, Reader.characterAt,
      Reader.positionAt, nothing, Position.afterAll]
  obtain ⟨earlier, later, quiet, failing⟩ := twins.behind ended
  rw [nothing, Position.afterAll_nil, ← position] at failing
  obtain ⟨holds, same⟩ := follows.holds
  rw [twins.rest, twins.last, nothing] at holds
  obtain ⟨reads, problems⟩ := holds.behind (by rw [same, twins.ended, ended])
  rw [← position] at problems
  let atEnd (l : Lexer) : TokenStream := { source := l, ended := true, endMark := some l₁.endToken }
  refine ⟨ts, l₁.endToken, atEnd l₁, atEnd { l₁ with reader := r }, earlier, later, d, ?_, ?_,
    rfl, quiet, failing,
    ?_, follows, reads, problems⟩
  · rw [tokens_ofSource, ← run]
  · rw [tokens_ofSource, ← run']
  · rfl

/-- A text constant that is not closed is found wrong where the source fails. -/
theorem tokens_failing_commas :
    let st : Lexer.Settings :=
  { decimalSeparator := .text ",", lineComment := .text "#", blockCommentEnd := .absent }
    let text := "1,5 $ 'a".toList
    st.WellTyped ∧ endMark ∉ text ∧ ∃ ts mark s s' earlier later d,
      ((ofSource { text := text }).changeSettings fun _ => st).tokens = .ok (ts ++ [mark]) s ∧
      ((ofSource { text := text, ending := .failing "gone" }).changeSettings fun _ => st).tokens
        = .ok (ts ++ [mark]) s' ∧
      mark.isEnd ∧ s.problems = earlier ++ later ∧
      s'.problems = earlier ++ ⟨.error, mark.position, "gone"⟩ :: later ∧ consume s' = .ok mark s' ∧
      Follows text "gone" s'.source.reader d ∧ d.source.reads = text.length + 1 ∧
      d.source.problems = [⟨.error, mark.position, "gone"⟩] := by
  intro st text
  have typed : st.WellTyped := by
    constructor
    · exact ⟨".", rfl⟩
    · exact ⟨"e", rfl⟩
    · exact .inl ⟨"#", rfl⟩
    · exact .inl ⟨"/*", rfl⟩
    · exact .inr rfl
  have noNull : endMark ∉ text := by decide
  exact ⟨typed, noNull, tokens_failing typed noNull "gone"⟩

end TokenStream

end Formula
