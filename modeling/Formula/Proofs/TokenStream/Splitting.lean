import Formula.Proofs.Lexer.Comments
import Formula.Proofs.TokenStream.Ahead

/-! Lossless lexing. Whatever the settings are, the tokens of a text split it into their sources and
the parts between them, and no character is lost or used twice. -/
namespace Formula

namespace Lexer

open Formula.Text (isBlank isControl)
open Reader (Complete Passes)

variable {st : Settings} {before : List Char} {r : Reader}

structure Found (st : Settings) (r : Reader) (t : Token) (r' : Reader) : Prop where
  visible : r.char 0 ≠ endMark
  noBlank : isBlank (r.char 0) = false
  noComment : NoComment st r.rest
  read : scanToken st r = (.ok (.done (some t)), r')

inductive Stepped (st : Settings) (before : List Char) (r : Reader) : Scanned Step → Prop
  | ended {g : List Char} {r' : Reader} (blanks : ∀ c ∈ g, isBlank c) (passes : r.Passes g [] r')
      (ended : r'.char 0 = endMark) : Stepped st before r (.ok (.done none), r')
  | token {g w : List Char} {ps : List Problem} {t : Token} {r₁ r' : Reader}
      (blanks : ∀ c ∈ g, isBlank c)
      (passes : r.Passes g [] r₁) (found : Found st r₁ t r') (covers : Covers t r₁ w ps r')
      (nonempty : w ≠ [])
      (place : t.position = .behind (before ++ g)) : Stepped st before r (.ok (.done (some t)), r')
  | skipped {w : List Char} {ps : List Problem} {r' : Reader} (passes : r.Passes w ps r')
      (nonempty : w ≠ [])
      (skips : ∀ {g rest : List Char} {qs : List Problem}, r'.rest = g ++ rest →
        Skipped st (before ++ w) g qs rest → Skipped st before (w ++ g) (ps ++ qs) rest) :
      Stepped st before r (.ok .skipped, r')

/-- The outcomes of a scan behind a text. -/
inductive Scans (st : Settings) (before : List Char) (r : Reader) : Scanned (Option Token) → Prop
  | ended {g : List Char} {ps : List Problem} {r' : Reader}
      (skipped : Skipped st before g ps r'.rest)
      (passes : r.Passes g ps r') (ended : r'.char 0 = endMark) : Scans st before r (.ok none, r')
  | token {g w : List Char} {ps qs : List Problem} {t : Token} {r₁ r' : Reader}
      (skipped : Skipped st before g ps r₁.rest) (passes : r.Passes g ps r₁)
      (found : Found st r₁ t r')
      (covers : Covers t r₁ w qs r') (nonempty : w ≠ [])
      (place : t.position = .behind (before ++ g)) :
      Scans st before r (.ok (some t), r')

theorem position_of_passes {r' : Reader} (still : r.Passes [] [] r') :
    r'.position = r.position := by
  have here : r.rest = r'.rest := still.rest
  have last : r'.last = r.last := still.last
  simp [Reader.position, here, last]

theorem Covers.after {t : Token} {w : List Char} {ps : List Problem} {r₁ r' : Reader}
    (still : r.Passes [] [] r₁) (covers : Covers t r₁ w ps r') : Covers t r w ps r' := by
  constructor
  · simpa using still.trans covers.passes
  · exact covers.source
  · exact covers.position.trans (position_of_passes still)
  · exact covers.wrong
  · exact covers.notEnd

theorem atBracket_passes (st : Settings) (complete : r.Complete) :
    r.Passes [] [] (atBracket st r).2 := by
  simp only [atBracket]
  repeat' split
  · exact complete.stays
  · exact complete.reach 1
  · exact complete.stays

theorem scanToken_covers (typed : st.WellTyped) (complete : r.Complete)
    (visible : r.char 0 ≠ endMark) :
    (∃ t w ps r', scanToken st r = (.ok (.done (some t)), r') ∧ Covers t r w ps r') ∨
      ∃ r', scanToken st r = (.ok .skipped, r') ∧ isControl (r.char 0) ∧
        r.Passes [r.char 0] [⟨.error, r.last.next,
          "Invalid character in input: '" ++ String.singleton (r.char 0) ++ "'"⟩] r' := by
  have looked := complete.reach (st.numberReach r.rest)
  have here : (r.reach (st.numberReach r.rest)).char 0 = r.char 0 := by simp
  simp only [scanToken]
  generalize r.reach (st.numberReach r.rest) = r₀ at looked here ⊢
  have visible₀ : r₀.char 0 ≠ endMark := here ▸ visible
  split
  · obtain ⟨t, w, ps, r', run, covers⟩ := scanNumber_covers looked.complete visible₀ typed
    exact .inl ⟨t, w, ps, r', by rw [run], covers.after looked⟩
  · split
    · obtain ⟨w, ps, covers⟩ := scanName_covers looked.complete visible₀ st
      exact .inl ⟨_, w, ps, _, rfl, covers.after looked⟩
    · split
      · rename_i escape _
        obtain ⟨w, ps, covers⟩ := scanString_covers looked.complete visible₀ escape
        exact .inl ⟨_, w, ps, _, rfl, covers.after looked⟩
      -- The test for a bracket may look ahead, so the rest is about the reader behind it.
      · have bracket := looked.trans (atBracket_passes st looked.complete)
        generalize atBracket st r₀ = out at bracket ⊢
        obtain ⟨isBracket, r₁⟩ := out
        have here₁ : r₁.char 0 = r.char 0 := by
          have same : r.rest = r₁.rest := bracket.rest
          simp [Reader.char, same]
        have visible₁ : r₁.char 0 ≠ endMark := here₁ ▸ visible
        cases isBracket with
        | true =>
          exact .inl ⟨_, _, _, _, rfl, (scanBracket_covers bracket.complete visible₁).after bracket⟩
        | false =>
          dsimp only
          split
          · obtain ⟨w, ps, covers⟩ := scanSpecialName_covers bracket.complete visible₁ st
            exact .inl ⟨_, w, ps, _, rfl, covers.after bracket⟩
          · split
            · rename_i control
              have place : r₁.position = r.last.next := by
                rw [Reader.position_eq visible₁, bracket.last]
                rfl
              rw [place]
              generalize (⟨.error, r.last.next, _⟩ : Problem) = p
              have reported := (bracket.report p).advance visible₁
              rw [show (r₁.report p).char 0 = r.char 0 from here₁] at reported
              exact .inr ⟨_, rfl, control, reported⟩
            · obtain ⟨w, ps, covers⟩ := scanSymbol_covers bracket.complete visible₁
              exact .inl ⟨_, w, ps, _, rfl, covers.after bracket⟩

theorem step_stepped (typed : st.WellTyped) (complete : r.Complete)
    (place : r.last = Position.start.afterAll before) : Stepped st before r (step st r) := by
  obtain ⟨g, blank, blanks, stop⟩ := skipBlanks_passes (r.rest.length + 1) complete (by omega)
  simp only [step]
  generalize skipBlanks (r.rest.length + 1) r = r₀ at blank stop ⊢
  have place₀ : r₀.last = Position.start.afterAll (before ++ g) := blank.place place
  split
  · rename_i ended
    exact .ended blanks blank (by simpa using ended)
  · rename_i visible
    have visible : r₀.char 0 ≠ endMark := by simpa using visible
    obtain ⟨w, ps, r₁, comment, outcome⟩ := skipComment_passes typed blank.complete
    -- Behind the blanks stands a comment, a token or a control character.
    rcases outcome with ⟨run, nonempty, is⟩ | ⟨run, rfl, rfl, noComment⟩
    · rw [run]
      refine .skipped (blank.trans comment) (by simp [nonempty]) fun {g' rest qs} here more => ?_
      rw [List.append_assoc, List.nil_append]
      apply Skipped.blanks blanks
      apply Skipped.comment (here ▸ is)
      rwa [List.append_assoc]
    · rw [run]
      have here : r₁.char 0 = r₀.char 0 := by
        have same : r₀.rest = r₁.rest := comment.rest
        simp [Reader.char, same]
      have place₁ : r₁.last = Position.start.afterAll (before ++ g) := comment.last.trans place₀
      have visible₁ : r₁.char 0 ≠ endMark := here ▸ visible
      have behind : r₁.last.next = .behind (before ++ g) := by rw [place₁, Position.next_afterAll]
      have passes : r.Passes g [] r₁ := by simpa using blank.trans comment
      rcases scanToken_covers typed comment.complete visible₁ with
        ⟨t, w, ps, r', read, covers⟩ | ⟨r', read, control, passed⟩
      · dsimp only
        rw [read]
        refine .token blanks passes ⟨visible₁, here ▸ stop, noComment, read⟩ covers ?_
          (covers.position.trans ?_)
        -- a token takes at least the character with which it starts
        · rintro rfl
          have takes := scanToken_takes st r₁
          rw [read] at takes
          have taken := (takes.taken _ rfl).length_le
          have more := Reader.rest_ne_nil_of_char visible₁
          have same : r₁.rest = r'.rest := covers.passes.rest
          rw [← same, List.length_tail] at taken
          have := List.length_pos_iff.mpr more
          omega
        · rw [Reader.position_eq visible₁, behind]
      · dsimp only
        rw [read]
        refine .skipped (passes.trans passed) (by simp) fun {g' rest qs} _ more => ?_
        rw [List.append_assoc, List.nil_append]
        apply Skipped.blanks blanks
        rw [behind]
        apply Skipped.control control (here ▸ stop)
        rwa [List.append_assoc]

theorem Scans.after {w : List Char} {ps : List Problem} {r₁ : Reader} {out : Scanned (Option Token)}
    (passes : r.Passes w ps r₁)
    (skips : ∀ {g rest : List Char} {qs : List Problem}, r₁.rest = g ++ rest →
      Skipped st (before ++ w) g qs rest → Skipped st before (w ++ g) (ps ++ qs) rest)
    (h : Scans st (before ++ w) r₁ out) : Scans st before r out := by
  cases h with
  | ended skipped passed ended =>
    exact .ended (skips passed.rest skipped) (passes.trans passed) ended
  | token skipped passed found covers nonempty place =>
    refine .token (skips passed.rest skipped) (passes.trans passed) found covers nonempty ?_
    rw [place, List.append_assoc]

theorem scanWithin_scans (typed : st.WellTyped) (n : Nat) (complete : r.Complete)
    (place : r.last = Position.start.afterAll before) (enough : r.rest.length < n) :
    Scans st before r (scanWithin st n r) := by
  induction n generalizing before r with
  | zero => omega
  | succ n ih =>
    have stepped := step_stepped typed complete place
    rw [scanWithin]
    generalize step st r = out at stepped ⊢
    cases stepped with
    | ended blanks passes ended =>
      exact .ended (by simpa using Skipped.blanks blanks .none) passes ended
    | token blanks passes found covers nonempty place =>
      exact .token (by simpa using Skipped.blanks blanks .none) passes found covers nonempty place
    | @skipped w ps r₁ passes nonempty skips =>
      have shorter := passes.length_lt nonempty
      exact Scans.after passes skips (ih passes.complete (passes.place place) (by omega))

/-- A text splits into tokens and what is between them, up to its end or to the first null
character. Each token is where its source is, and has all problems with the source. -/
inductive Splits (st : Settings) (stop : List Char) :
    List Char → List Token → List Char → List Problem → Prop
  | done {before g : List Char} {ps : List Problem} (skipped : Skipped st before g ps stop) :
      Splits st stop before [] g ps
  | token {before g cs : List Char} {t : Token} {ts : List Token} {ps qs rs : List Problem}
      (skipped : Skipped st before g ps (t.source.toList ++ (cs ++ stop)))
      (nonempty : t.source.toList ≠ [])
      (position : t.position = .behind (before ++ g)) (notEnd : t.isEnd = false)
      (wrong : ∀ p ∈ qs, Misspelling p)
      (more : Splits st stop (before ++ g ++ t.source.toList) ts cs rs) :
      Splits st stop before (t :: ts) (g ++ t.source.toList ++ cs) (ps ++ qs ++ rs)

theorem Misspelling.isError {p : Problem} (h : Misspelling p) : p.isError := by
  cases h <;> rfl

theorem Skipped.isError {g rest : List Char} {ps : List Problem} (h : Skipped st before g ps rest) :
    ∀ p ∈ ps, p.isError := by
  induction h with
  | none => exact List.forall_mem_nil _
  | blank _ _ ih => exact ih
  | control _ _ _ ih => exact List.forall_mem_cons.mpr ⟨rfl, ih⟩
  | comment is _ ih =>
    refine List.forall_mem_append.mpr ⟨?_, ih⟩
    cases is with
    | line => exact List.forall_mem_nil _
    | block => exact List.forall_mem_nil _
    | unended => exact List.forall_mem_singleton.mpr rfl

theorem Splits.isError {stop cs : List Char} {ts : List Token} {ps : List Problem}
    (h : Splits st stop before ts cs ps) : ∀ p ∈ ps, p.isError := by
  induction h with
  | done skipped => exact skipped.isError
  | token skipped _ _ _ wrong _ ih =>
    have first := List.forall_mem_append.mpr ⟨skipped.isError, fun p hp => (wrong p hp).isError⟩
    exact List.forall_mem_append.mpr ⟨first, ih⟩

theorem next_scans {l : Lexer} (typed : l.settings.WellTyped) (complete : l.reader.Complete)
    (place : l.reader.last = Position.start.afterAll before) :
    ∃ t r', l.next = (.ok t, { l with reader := r', started := true }) ∧
      Scans l.settings before l.reader (.ok t, r') := by
  have scans := scanWithin_scans typed (l.reader.rest.length + 1) complete place (by omega)
  have read : scan l.settings l.reader =
      scanWithin l.settings (l.reader.rest.length + 1) l.reader := rfl
  rw [← read] at scans
  generalize h : scan l.settings l.reader = out at scans
  cases scans with
  | @ended g ps r' skipped passes ended =>
    exact ⟨none, r', next_of_scan h passes.complete.whole, .ended skipped passes ended⟩
  | @token g w ps qs t r₁ r' skipped passes found covers nonempty place =>
    exact ⟨some t, r', next_of_scan h covers.passes.complete.whole,
      .token skipped passes found covers nonempty place⟩

end Lexer

namespace TokenStream

open Lexer (Splits Settings)

theorem tokensWithin_splits (n : Nat) (before : List Char) {l : Lexer}
    (typed : l.settings.WellTyped)
    (complete : l.reader.Complete) (place : l.reader.last = Position.start.afterAll before)
    (enough : l.reader.rest.length < n) :
    ∃ ts mark s cs stop ps, tokensWithin n { source := l } = .ok (ts ++ [mark]) s ∧ mark.isEnd ∧
      l.reader.rest = cs ++ stop ∧ endMark ∉ cs ∧ stop.getD 0 endMark = endMark ∧
      Splits l.settings stop before ts cs ps ∧ s.problems = l.reader.problems ++ ps := by
  -- `before` holds all that was passed, from which the positions of the later tokens are counted
  induction n generalizing before l with
  | zero => omega
  | succ n ih =>
    simp only [tokensWithin, bind, EStateM.bind, consume_fresh]
    obtain ⟨t, r', read, scans⟩ := Lexer.next_scans typed complete place
    rw [read]
    cases scans with
    | @ended g ps _ skipped passes ended =>
      refine ⟨[], _, _, g, r'.rest, ps, rfl, rfl, passes.rest, ?_, ended, .done skipped,
        passes.problems⟩
      exact fun null => passes.visible _ null rfl
    | @token g w ps qs t r₁ _ skipped passes _ covers nonempty here =>
      let l' : Lexer := { l with reader := r', started := true }
      have whole := passes.trans covers.passes
      have place' : r'.last = Position.start.afterAll (before ++ g ++ w) :=
        List.append_assoc before g w ▸ whole.place place
      have shorter : r'.rest.length < l.reader.rest.length := whole.length_lt (by simp [nonempty])
      obtain ⟨ts, mark, s, cs, stop, rs, run, isEnd, rest, visible, ended, splits, found⟩ :=
        ih (before ++ g ++ w) (l := l') typed whole.complete place'
          (Nat.lt_of_lt_of_le shorter (by omega))
      refine ⟨t :: ts, mark, s, g ++ w ++ cs, stop, ps ++ qs ++ rs, ?_, isEnd, ?_,
        ?_, ended, ?_, ?_⟩
      · simp only [covers.notEnd, Bool.false_eq_true, if_false, EStateM.bind]
        rw [run]
        rfl
      · rw [whole.rest, List.append_assoc _ cs, ← rest]
      · simp only [List.mem_append, not_or]
        exact ⟨⟨fun null => passes.visible _ null rfl,
          fun null => covers.passes.visible _ null rfl⟩, visible⟩
      · obtain rfl := covers.source
        refine .token ?_ nonempty here covers.notEnd covers.wrong splits
        rw [← rest]
        exact covers.passes.rest ▸ skipped
      · rw [found, whole.problems, List.append_assoc]

/-- A text is split into its tokens, up to its end or to the first null character. -/
theorem splits_source {text : String} {st : Settings} (typed : st.WellTyped) :
    ∃ ts mark s cs stop ps, ((ofSource (.ofString text)).changeSettings fun _ => st).tokens
        = .ok (ts ++ [mark]) s ∧ mark.isEnd ∧ text.toList = cs ++ stop ∧ endMark ∉ cs ∧
      stop.getD 0 endMark = endMark ∧ Splits st stop [] ts cs ps ∧ s.problems = ps := by
  let l : Lexer := { reader := .ofSource (.ofString text), settings := st }
  obtain ⟨ts, mark, s, cs, stop, ps, run, isEnd, rest, visible, ended, splits, found⟩ :=
    tokensWithin_splits (l.reader.rest.length + 1) [] (l := l) typed ⟨rfl, rfl⟩ rfl (by omega)
  refine ⟨ts, mark, s, cs, stop, ps, ?_, isEnd, rest, visible, ended, splits, found⟩
  rw [tokens_eq, ← run]
  simp [l, ofSource, changeSettings, mapLexer]

/-- Lossless lexing: a text without null characters is its tokens and what is between them. -/
theorem tokens_split {text : String} {st : Settings} (typed : st.WellTyped)
    (noNull : endMark ∉ text.toList) :
    ∃ ts mark s, ((ofSource (.ofString text)).changeSettings fun _ => st).tokens =
      .ok (ts ++ [mark]) s ∧
      mark.isEnd ∧ Splits st [] [] ts text.toList s.problems := by
  obtain ⟨ts, mark, s, cs, stop, ps, run, isEnd, rest, _, ended, splits, rfl⟩ := splits_source typed
  have empty : stop = [] := by
    cases stop with
    | nil => rfl
    | cons c stop =>
      obtain rfl : c = endMark := ended
      exact absurd (rest ▸ List.mem_append_right cs List.mem_cons_self) noNull
  subst empty
  rw [List.append_nil] at rest
  exact ⟨ts, mark, s, run, isEnd, rest ▸ splits⟩

theorem tokens_split_commas :
    let st : Settings :=
  { decimalSeparator := .text ",", lineComment := .text "#", blockCommentEnd := .absent }
    st.WellTyped ∧ endMark ∉ "1,5 \x01# one\n$ /* 'a".toList ∧
      ∃ ts mark s, ((ofSource (.ofString "1,5 \x01# one\n$ /* 'a")).changeSettings
        fun _ => st).tokens
        = .ok (ts ++ [mark]) s ∧ mark.isEnd ∧
        Splits st [] [] ts "1,5 \x01# one\n$ /* 'a".toList s.problems := by
  intro st
  have typed : st.WellTyped := by
    constructor
    · exact ⟨".", rfl⟩
    · exact ⟨"e", rfl⟩
    · exact .inl ⟨"#", rfl⟩
    · exact .inl ⟨"/*", rfl⟩
    · exact .inr rfl
  have noNull : endMark ∉ "1,5 \x01# one\n$ /* 'a".toList := by decide
  exact ⟨typed, noNull, tokens_split typed noNull⟩

end TokenStream

end Formula
