import Formula.Proofs.Lexer.Lexemes
import Formula.Proofs.TokenStream.Reading
import Formula.Proofs.TokenStream.Splitting

/-! Layout. The tokens of a text say what their sources say, and with any layout between the sources
the same tokens are read again. -/
namespace Formula

def Token.spelling (t : Token) : Lexer.Word × String := (t.word, t.source)

namespace Lexer

def endSpelling : Word × String := (⟨.endOfInput, "", ""⟩, "<End Of Input>")

open Formula.Text (isBlank)
open Reader (Stands)

/-- Blanks, block comments, and line comments with their line feeds. -/
inductive Filler : List Char → Prop
  | none : Filler []
  | blank {c : Char} {cs : List Char} (is : isBlank c) (more : Filler cs) : Filler (c :: cs)
  | block {body cs : List Char} (visible : endMark ∉ body) (inside : ¬ ['*', '/'] <:+: body)
      (more : Filler cs) :
      Filler ('/' :: '*' :: (body ++ '*' :: '/' :: cs))
  | line {body cs : List Char} (visible : endMark ∉ body) (inside : '\n' ∉ body)
      (more : Filler cs) :
      Filler ('/' :: '/' :: (body ++ '\n' :: cs))

structure Layout (cs : List Char) : Prop where
  filler : Filler cs
  first : isBlank (cs.getD 0 endMark)

inductive Joined : List (List Char) → List Char → Prop
  | none : Joined [] []
  | single (w : List Char) : Joined [w] w
  | cons {w w' l cs : List Char} {ws : List (List Char)} (layout : Layout l)
      (more : Joined (w' :: ws) cs) :
      Joined (w :: w' :: ws) (w ++ (l ++ cs))

section Gaps

variable {l rest cs : List Char}

theorem blockBody_of_inside {body : List Char} (visible : endMark ∉ body)
    (inside : ¬ ['*', '/'] <:+: body) :
    BlockBody (body ++ ['*', '/']) := by
  induction body with
  | nil => exact .last
  | cons c body ih =>
    rw [List.mem_cons, not_or] at visible
    have goesOn : c = '*' → (body ++ ['*', '/']).getD 0 endMark ≠ '/' := by
      rintro rfl slash
      cases body with
      | nil => exact absurd slash (by decide)
      | cons d body =>
        obtain rfl : d = '/' := slash
        exact inside ⟨[], body, rfl⟩
    apply BlockBody.more (Ne.symm visible.1) goesOn
    exact ih visible.2 fun within => inside (within.trans (List.suffix_cons c body).isInfix)

theorem Filler.gap (h : Filler l) (rest : List Char) : Gap (l ++ rest) rest := by
  induction h with
  | none => exact .none
  | blank is _ ih => exact .blank is ih
  | @block body cs visible inside _ ih =>
    have whole := Gap.block (blockBody_of_inside visible inside) ih
    simpa using whole
  | @line body cs visible inside _ ih =>
    have inLine : ∀ c ∈ body, c ≠ '\n' ∧ c ≠ endMark := by
      intro c hc
      constructor
      · rintro rfl
        exact inside hc
      · rintro rfl
        exact visible hc
    have ended : Gap ('\n' :: (cs ++ rest)) rest := .blank (by decide) ih
    simpa using Gap.line inLine (.inl rfl) ended

theorem Layout.separated (h : Layout l) (rest : List Char) : Separated (l ++ rest) := by
  cases l with
  | nil => exact absurd h.first (by decide)
  | cons c l => exact .inl h.first

end Gaps

/-- The token is read wherever its source stands apart. -/
structure StandsAlone (t : Token) : Prop where
  starts : ∀ rest, Separated rest → StartsWord (t.source.toList ++ rest)
  lexeme : ∀ rest, Separated rest → Lexeme t.source.toList t.word rest

section Reading

variable {r r' : Reader} {t mark : Token} {ts : List Token} {cs rest : List Char}
  {ps : List Problem} {l : Lexer}

theorem NoComment.pair (h : NoComment {} cs) (slash : cs.getD 0 endMark = '/') :
    cs.getD 1 endMark ≠ '/' ∧ cs.getD 1 endMark ≠ '*' := by
  match cs with
  | [] => exact absurd slash (by decide)
  | [c] => exact ⟨show endMark ≠ '/' by decide, show endMark ≠ '*' by decide⟩
  | c :: d :: cs =>
    obtain rfl : c = '/' := slash
    constructor
    · rintro rfl
      exact h.line ['/', '/'] ⟨by simp, by decide, "//", rfl, rfl⟩ ⟨cs, rfl⟩
    · rintro rfl
      exact h.block ['/', '*'] ⟨by simp, by decide, "/*", rfl, rfl⟩ ⟨cs, rfl⟩

theorem Found.startsWord (h : Found {} r t r') : StartsWord r.rest :=
  ⟨h.visible, h.noBlank, h.noComment.pair⟩

/-- A token that is read without a problem is read again wherever its source stands apart. -/
theorem standsAlone_of_found {w : List Char} {qs : List Problem} (found : Found {} r t r')
    (covers : Covers t r w qs r') (stands : Stands r.rest ps r) (clean : r'.problems = ps) :
    StandsAlone t := by
  have lexeme := lexeme_of_covers found.visible stands found.read covers clean
  have starts := found.startsWord
  obtain ⟨c, cs, head⟩ := lexeme.head
  have nonempty : t.source.toList ≠ [] := by simp [head]
  rw [covers.passes.rest, ← covers.source] at starts
  constructor
  · exact fun _ apart => starts.moved nonempty apart
  · exact fun _ apart => lexeme.moved apart

theorem scan_lexeme {w : List Char} {word : Word} (starts : StartsWord (w ++ rest))
    (lexeme : Lexeme w word rest) (gap : Gap cs (w ++ rest)) (stands : Stands cs ps r) :
    ∃ t r', scan {} r = (.ok (some t), r') ∧ Stands rest ps r' ∧
      t.spelling = (word, String.ofList w) := by
  obtain ⟨r₁, stands₁, behind⟩ := scan_behind gap stands
  obtain ⟨r₂, stands₂, same⟩ := step_starts starts stands₁ rfl
  obtain ⟨t, r', read, stands', said⟩ := scanToken_lexeme lexeme stands₂
  refine ⟨t, r', behind _ _ (same.trans read), stands', ?_⟩
  have visible : r₂.char 0 ≠ endMark := by
    rw [stands₂.char 0]
    exact starts.visible
  rcases scanToken_covers Settings.wellTyped_standard stands₂.complete visible with
    ⟨u, v, qs, r'', read', covers⟩ | ⟨r'', read', _⟩
  · obtain ⟨done, rfl⟩ := Prod.mk.inj (read'.symm.trans read)
    obtain rfl : u = t := by simpa using done
    have taken := covers.passes.rest
    rw [stands₂.rest, stands'.rest] at taken
    have source : u.source = String.ofList w := by
      rw [← String.toList_inj, covers.source, String.toList_ofList, List.append_cancel_right taken]
    exact Prod.ext said source
  · cases (Prod.mk.inj (read'.symm.trans read)).1

theorem scan_standsAlone (alone : StandsAlone t) (separated : Separated rest)
    (gap : Gap cs (t.source.toList ++ rest)) (stands : Stands cs ps r) :
    ∃ t' r', scan {} r = (.ok (some t'), r') ∧ Stands rest ps r' ∧ t'.spelling = t.spelling := by
  obtain ⟨t', r', read, stands', same⟩ :=
    scan_lexeme (alone.starts rest separated) (alone.lexeme rest separated) gap stands
  rw [String.ofList_toList] at same
  exact ⟨t', r', read, stands', same⟩

theorem endToken_spelling (ended : l.reader.char 0 = endMark) :
    l.endToken.spelling = endSpelling := by
  simp [endSpelling, Token.spelling, Token.word, endToken, TokenBuilder.ofCharacter,
    TokenBuilder.freeze, Reader.characterAt, Character.text, Character.isEnd, ended, toString]

theorem standsAlone_of_supplies {before : List Char} (standard : l.settings = {})
    (complete : l.reader.Complete)
    (place : l.reader.last = Position.start.afterAll before) (clean : l.reader.problems = [])
    (supplied : Supplies mark ts l) :
    (∀ t ∈ ts, StandsAlone t) ∧ mark.spelling = endSpelling := by
  have typed : l.settings.WellTyped := standard ▸ Settings.wellTyped_standard
  induction ts generalizing before l with
  | nil =>
    obtain ⟨t', r', read, scans⟩ := next_scans typed complete place
    obtain ⟨l', last, _, rfl⟩ := supplied
    obtain ⟨none, rfl⟩ := Prod.mk.inj (read.symm.trans last)
    cases scans with
    | ended _ _ ended => exact ⟨List.forall_mem_nil _, endToken_spelling ended⟩
    | token => cases none
  | cons t ts ih =>
    obtain ⟨t', r', read, scans⟩ := next_scans typed complete place
    obtain ⟨l', first, found', others⟩ := supplied
    obtain ⟨some, rfl⟩ := Prod.mk.inj (read.symm.trans first)
    cases scans with
    | ended => cases some
    | @token g w ps qs t' r₁ _ _ passes found covers =>
      obtain rfl : t' = t := by simpa using some
      have whole := passes.trans covers.passes
      obtain ⟨clean₁, rfl⟩ := covers.passes.clean found'
      have stands : Stands r₁.rest [] r₁ :=
        ⟨rfl, clean₁, passes.complete.quiet, passes.complete.whole⟩
      have alone : StandsAlone t' := standsAlone_of_found (standard ▸ found) covers stands found'
      let l' : Lexer := { l with reader := r', started := true }
      obtain ⟨rest, last⟩ :=
        ih (l := l') standard whole.complete (whole.place place) found' others typed
      exact ⟨List.forall_mem_cons.mpr ⟨alone, rest⟩, last⟩

/-- The sources of tokens that stand alone are read as the same tokens, whatever the layout is. -/
theorem supplies_of_joined {front after : List Char} (alone : ∀ t ∈ ts, StandsAlone t)
    (joined : Joined (ts.map (·.source.toList)) cs) (back : after = [] ∨ Layout after)
    (gap : Gap front (cs ++ after)) (standard : l.settings = {})
    (stands : l.reader.Stands front []) :
    ∃ us last, Supplies last us l ∧ us.map Token.spelling = ts.map Token.spelling
      ∧ last.spelling = endSpelling := by
  have ends : Gap after [] := by
    rcases back with rfl | layout
    · exact .none
    · simpa using layout.filler.gap []
  induction ts generalizing cs front l with
  | nil =>
    cases joined
    obtain ⟨r, read, stands'⟩ := scan_end (gap.trans ends) rfl stands
    let l' : Lexer := { l with reader := r, started := true }
    have last : l.next = (.ok none, l') := next_of_scan (standard.symm ▸ read) stands'.whole
    exact ⟨[], l'.endToken, ⟨l', last, stands'.problems, rfl⟩, rfl,
      endToken_spelling (stands'.char 0)⟩
  | cons t ts ih =>
    obtain ⟨here, others⟩ := List.forall_mem_cons.mp alone
    -- whatever stands behind the source, it starts with a blank or is the end
    have next {rest : List Char} (cs' : List Char) (separated : Separated rest)
        (gap : Gap front (t.source.toList ++ rest))
        (more : Gap rest (cs' ++ after)) (joined : Joined (ts.map (·.source.toList)) cs') :
        ∃ us last, Supplies last us l ∧ us.map Token.spelling = (t :: ts).map Token.spelling
          ∧ last.spelling = endSpelling := by
      obtain ⟨u, r, read, stands', same⟩ := scan_standsAlone here separated gap stands
      let l' : Lexer := { l with reader := r, started := true }
      obtain ⟨us, last, supplied, spelled, isLast⟩ :=
        ih others joined more (l := l') standard stands'
      have first : l.next = (.ok (some u), l') := next_of_scan (standard.symm ▸ read) stands'.whole
      refine ⟨u :: us, last, ⟨l', first, stands'.problems, supplied⟩, ?_, isLast⟩
      rw [List.map_cons, List.map_cons, same, spelled]
    generalize same : (t :: ts).map (·.source.toList) = ws at joined
    cases joined with
    | none => cases same
    | single w =>
      obtain ⟨rfl, nothing⟩ := List.cons.inj same
      have separated : Separated after := by
        rcases back with rfl | layout
        · exact .inr rfl
        · simpa using layout.separated []
      exact next [] separated gap .none (nothing ▸ .none)
    | @cons w w' l cs ws layout more =>
      obtain ⟨rfl, others⟩ := List.cons.inj same
      rw [List.append_assoc, List.append_assoc] at gap
      exact next cs (layout.separated _) gap (layout.filler.gap _) (others ▸ more)

end Reading

end Lexer

namespace TokenStream

open Lexer (Supplies Filler Layout Joined)

theorem tokensWithin_of_supplies (n : Nat) {l : Lexer} {ts : List Token} {mark : Token}
    (isEnd : mark.isEnd)
    (notEnd : ∀ t ∈ ts, t.isEnd = false) (supplied : Supplies mark ts l) (enough : ts.length < n) :
    ∃ s, tokensWithin n { source := l } = .ok (ts ++ [mark]) s ∧ s.problems = [] := by
  induction ts generalizing n l with
  | nil =>
    obtain ⟨n, rfl⟩ : ∃ m, n = m + 1 := ⟨n - 1, by omega⟩
    obtain ⟨l', last, clean, rfl⟩ := supplied
    simp only [tokensWithin, bind, EStateM.bind, consume_fresh, last, isEnd]
    exact ⟨_, rfl, clean⟩
  | cons t ts ih =>
    obtain ⟨n, rfl⟩ : ∃ m, n = m + 1 := ⟨n - 1, by omega⟩
    obtain ⟨l', first, _, others⟩ := supplied
    obtain ⟨here, later⟩ := List.forall_mem_cons.mp notEnd
    obtain ⟨s, run, clean⟩ := ih n later others (by simpa using enough)
    refine ⟨s, ?_, clean⟩
    simp only [tokensWithin, bind, EStateM.bind, consume_fresh, first, here,
      Bool.false_eq_true, if_false]
    rw [run]
    rfl

theorem lexed_of_supplies {src : Source} {ts : List Token} {mark : Token} (isEnd : mark.isEnd)
    (supplied : Supplies mark ts { reader := .ofSource src }) :
    lexed src = some (ts ++ [mark], []) := by
  have ahead : Ahead mark (ofSource src) ts := .more rfl rfl rfl supplied
  have notEnd : ∀ t ∈ ts, t.isEnd = false := fun t ht => (isLexeme_of_ahead ahead t ht).notEnd
  obtain ⟨s, run, clean⟩ :=
    tokensWithin_of_supplies _ isEnd notEnd supplied (Nat.lt_succ_of_le ahead.length_le)
  have tokens : (ofSource src).tokens = .ok (ts ++ [mark]) s := by
    rw [tokens_eq]
    exact run
  rw [lexed_eq tokens, clean]

theorem isEnd_of_lexed {text : String} {ts : List Token} {mark : Token} {ps : List Problem}
    (h : lexed (.ofString text) = some (ts ++ [mark], ps)) : mark.isEnd := by
  obtain ⟨us, last, s, _, _, _, run, isEnd, _⟩ :=
    @splits_source text _ Lexer.Settings.wellTyped_standard
  rw [show (ofSource (.ofString text)).changeSettings
    (fun _ => {}) = ofSource (.ofString text) from rfl] at run
  rw [lexed_eq run] at h
  obtain ⟨same, _⟩ := Prod.mk.inj (Option.some.inj h)
  obtain ⟨_, equal⟩ := List.append_inj' same rfl
  obtain rfl : last = mark := by simpa using equal
  exact isEnd

/-- Layout is insignificant: the sources of the tokens of a text, with any layout between them, are
read as the same tokens without a problem. -/
theorem lexed_layout {text new : String} {ts : List Token} {mark : Token}
    {before cs after : List Char} (read : lexed (.ofString text) = some (ts ++ [mark], []))
    (joined : Joined (ts.map (·.source.toList)) cs) (front : before = [] ∨ Layout before)
    (back : after = [] ∨ Layout after) (written : new.toList = before ++ (cs ++ after)) :
    ∃ us, lexed (.ofString new) = some (us, []) ∧
      us.map Token.spelling = (ts ++ [mark]).map Token.spelling := by
  obtain ⟨supplied, _⟩ := supplies_of_lexed (isEnd_of_lexed read) read
  have start : Position.start = Position.start.afterAll [] := rfl
  obtain ⟨alone, ended⟩ := Lexer.standsAlone_of_supplies rfl ⟨rfl, rfl⟩ start rfl supplied
  have gap : Lexer.Gap new.toList (cs ++ after) := by
    rw [written]
    rcases front with rfl | layout
    · exact .none
    · exact layout.filler.gap _
  let l : Lexer := { reader := .ofSource (.ofString new) }
  obtain ⟨us, last, supplied', spelled, ended'⟩ :=
    Lexer.supplies_of_joined (l := l) alone joined back gap rfl ⟨rfl, rfl, rfl, rfl⟩
  have isEnd : last.isEnd := by
    have kind : last.kind = .endOfInput := congrArg (fun q => q.1.kind) ended'
    exact decide_eq_true kind
  refine ⟨us ++ [last], lexed_of_supplies isEnd supplied', ?_⟩
  rw [List.map_append, List.map_append, spelled, List.map_singleton,
    List.map_singleton, ended, ended']

theorem lexed_layout_comments :
    let ts : List Token :=
  [⟨.identifier, "", "a", "a", ⟨1, 1⟩⟩, ⟨.decimal, "", "-1.5", "-1.5", ⟨1, 2⟩⟩,
      ⟨.string, "'", "/*", "'/*'", ⟨1, 6⟩⟩]
    let mark : Token := ⟨.endOfInput, "", "", "<End Of Input>", ⟨1, 9⟩⟩
    let cs := "a //-\n-1.5\t'/*'".toList
    lexed (.ofString "a-1.5'/*'") = some (ts ++ [mark], []) ∧ Joined (ts.map (·.source.toList)) cs ∧
      Layout " /***/".toList ∧ " /***/a //-\n-1.5\t'/*'".toList = " /***/".toList ++ (cs ++ []) ∧
      ∃ us, lexed (.ofString " /***/a //-\n-1.5\t'/*'") = some (us, []) ∧
        us.map Token.spelling = (ts ++ [mark]).map Token.spelling := by
  intro ts mark cs
  have read : lexed (.ofString "a-1.5'/*'") = some (ts ++ [mark], []) := by decide +kernel
  have line : Layout [' ', '/', '/', '-', '\n'] :=
    ⟨.blank (by decide) (@Filler.line ['-'] [] (by decide) (by decide) .none), by decide⟩
  have tab : Layout ['\t'] := ⟨.blank (by decide) .none, by decide⟩
  have joined : Joined (ts.map (·.source.toList)) cs := .cons line (.cons tab (.single _))
  have front : Layout " /***/".toList :=
    ⟨.blank (by decide) (@Filler.block ['*'] [] (by decide) (by decide) .none), by decide⟩
  have written : " /***/a //-\n-1.5\t'/*'".toList = " /***/".toList ++ (cs ++ []) := by decide
  exact ⟨read, joined, front, written, lexed_layout read joined (.inr front) (.inl rfl) written⟩

end TokenStream

end Formula
