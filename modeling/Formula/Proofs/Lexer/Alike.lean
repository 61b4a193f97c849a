import Formula.Lexer.Scan

/-! Readers that a lexer cannot tell apart. A scan does nothing to its reader but look ahead, move
on and report, and all that it sees of it is what follows and where it stands. So whatever relates
two readers of the same text, and outlasts these three steps, relates them after a scan as well, and
the outcomes are the same. -/
namespace Formula

/-- The relation holds of readers at the same place only, and outlasts every step. -/
structure Reader.Alike (R : Reader → Reader → Prop) : Prop where
  rest : ∀ {r r' : Reader}, R r r' → r'.rest = r.rest
  last : ∀ {r r' : Reader}, R r r' → r'.last = r.last
  reach : ∀ {r r' : Reader}, R r r' → ∀ n, R (r.reach n) (r'.reach n)
  advance : ∀ {r r' : Reader}, R r r' → R r.advance r'.advance
  report : ∀ {r r' : Reader}, R r r' → ∀ p, R (r.report p) (r'.report p)

namespace Reader.Alike

variable {R : Reader → Reader → Prop} (alike : Alike R) {r r' : Reader} (h : R r r')
include alike h

theorem char (n : Nat) : r'.char n = r.char n := by
  unfold Reader.char
  rw [alike.rest h]

theorem position : r'.position = r.position := by
  unfold Reader.position
  rw [alike.rest h, alike.last h]

theorem characterAt (n : Nat) : r'.characterAt n = r.characterAt n := by
  unfold Reader.characterAt Reader.positionAt
  rw [alike.char h, alike.rest h, alike.last h]

theorem skip (n : Nat) : R (r.skip n) (r'.skip n) := by
  induction n generalizing r r' with
  | zero => exact h
  | succ n ih => exact ih (alike.advance h)

end Reader.Alike

namespace Lexer

open Reader (Alike)

inductive Same {α : Type} (R : Reader → Reader → Prop) : α × Reader → α × Reader → Prop
  | intro (a : α) {r r' : Reader} (related : R r r') : Same R (a, r) (a, r')

variable {α : Type} {R : Reader → Reader → Prop} (alike : Alike R) (st : Settings)
  {r r' : Reader} (h : R r r')
include alike h

theorem scanNameTail_alike (n : Nat) (b : TokenBuilder) :
    Same R (scanNameTail n b r) (scanNameTail n b r') := by
  induction n generalizing b r r' with
  | zero => exact .intro _ h
  | succ n ih =>
    have looked := alike.reach h 0
    simp only [scanNameTail, alike.char looked]
    split
    · exact ih (alike.advance looked) _
    · exact .intro _ looked

theorem scanName_alike : Same R (scanName st r) (scanName st r') := by
  simp only [scanName, alike.position h, alike.char h, alike.rest h]
  have tail := scanNameTail_alike alike (alike.advance h) r.rest.length
    (TokenBuilder.addContent { kind := .identifier, position := r.position } (r.char 0))
  generalize scanNameTail r.rest.length _ r.advance = out at tail ⊢
  generalize scanNameTail r.rest.length _ r'.advance = out' at tail ⊢
  obtain ⟨b, tail⟩ := tail
  rw [alike.char tail]
  split
  · exact .intro _ (alike.advance tail)
  · exact .intro _ tail

theorem scanSpecialName_alike : Same R (scanSpecialName st r) (scanSpecialName st r') := by
  simp only [scanSpecialName, alike.position h, alike.char h, alike.rest h]
  have tail := scanNameTail_alike alike (alike.advance h) r.rest.length
    (TokenBuilder.addTrigger { kind := .specialIdentifier, position := r.position } (r.char 0))
  generalize scanNameTail r.rest.length _ r.advance = out at tail ⊢
  generalize scanNameTail r.rest.length _ r'.advance = out' at tail ⊢
  obtain ⟨b, tail⟩ := tail
  exact .intro _ tail

theorem scanSymbol_alike : Same R (scanSymbol r) (scanSymbol r') := by
  have looked := alike.reach (alike.advance h) 0
  simp only [scanSymbol, alike.position h, alike.char h, alike.char looked]
  split
  · exact .intro _ (alike.advance looked)
  · exact .intro _ looked

theorem scanBracket_alike : Same R (scanBracket r) (scanBracket r') := by
  simp only [scanBracket, alike.characterAt h]
  exact .intro _ (alike.advance h)

theorem scanStringTail_alike (delimiter : Char) (escape : SettingValue) (n : Nat)
    (b : TokenBuilder) :
    Same R (scanStringTail delimiter escape n b r) (scanStringTail delimiter escape n b r') := by
  induction n generalizing b r r' with
  | zero => exact .intro _ h
  | succ n ih =>
    have looked := alike.reach h 0
    have escaped := alike.reach (alike.advance looked) 0
    simp only [scanStringTail, alike.char looked, alike.char escaped, alike.position escaped,
      alike.characterAt escaped]
    split
    · exact .intro _ looked
    · split
      · split
        · exact ih (alike.advance escaped) _
        · exact ih (alike.report escaped _) _
      · exact ih (alike.advance looked) _

theorem scanString_alike (escape : SettingValue) :
    Same R (scanString escape r) (scanString escape r') := by
  simp only [scanString, alike.position h, alike.char h, alike.rest h]
  have tail := scanStringTail_alike alike (alike.advance h) (r.char 0) escape r.rest.length
    (TokenBuilder.addTrigger { kind := .string, position := r.position } (r.char 0))
  generalize scanStringTail (r.char 0) escape r.rest.length _ r.advance = out at tail ⊢
  generalize scanStringTail (r.char 0) escape r.rest.length _ r'.advance = out' at tail ⊢
  obtain ⟨b, tail⟩ := tail
  rw [alike.char tail, alike.position tail]
  split
  · exact .intro _ (alike.advance tail)
  · exact .intro _ (alike.report tail _)

theorem scanNumberTail_alike (n : Nat) (b : TokenBuilder) :
    Same R (scanNumberTail st n b r) (scanNumberTail st n b r') := by
  induction n generalizing b r r' with
  | zero => exact .intro _ h
  | succ n ih =>
    have looked := alike.reach h (st.continuationReach r.rest)
    simp only [scanNumberTail, alike.rest h, alike.rest looked, alike.char looked,
      alike.position looked, alike.char (alike.advance looked)]
    generalize r.reach (st.continuationReach r.rest) = r₀ at looked ⊢
    generalize r'.reach (st.continuationReach r.rest) = r₀' at looked ⊢
    split
    · exact .intro _ looked
    · split
      · exact ih (alike.advance looked) _
      · split
        · split
          · split
            · exact .intro _ looked
            · exact ih (alike.advance looked) _
          · exact ih (alike.advance (alike.report looked _)) _
        · split
          · split
            · exact ih (alike.advance (alike.report looked _)) _
            · split
              · exact .intro _ looked
              · split
                · exact ih (alike.advance (alike.advance looked)) _
                · exact ih (alike.advance looked) _
          · exact ih (alike.advance looked) _

theorem scanNumber_alike : Same R (scanNumber st r) (scanNumber st r') := by
  simp only [scanNumber, alike.rest h, alike.char h, alike.position h]
  split
  · split
    · exact .intro _ h
    · exact scanNumberTail_alike alike st (alike.advance h) _ _
  · exact scanNumberTail_alike alike st (alike.advance h) _ _

theorem skipBlanks_alike (n : Nat) : R (skipBlanks n r) (skipBlanks n r') := by
  induction n generalizing r r' with
  | zero => exact h
  | succ n ih =>
    have looked := alike.reach h 0
    simp only [skipBlanks, alike.char looked]
    split
    · exact ih (alike.advance looked)
    · exact looked

theorem findMarker_alike (marker : SettingValue) :
    Same R (findMarker marker r) (findMarker marker r') := by
  simp only [findMarker, alike.rest h]
  split
  · split
    · exact .intro _ h
    · split
      · exact .intro _ (alike.reach h _)
      · exact .intro _ (alike.reach h _)
  · split
    · exact .intro _ h
    · exact .intro _ h

theorem skipLine_alike (n : Nat) : R (skipLine n r) (skipLine n r') := by
  induction n generalizing r r' with
  | zero => exact h
  | succ n ih =>
    have looked := alike.reach h 0
    simp only [skipLine, alike.char looked]
    split
    · exact looked
    · exact ih (alike.advance looked)

theorem skipBlock_alike (marker : SettingValue) (n : Nat) :
    Same R (skipBlock marker n r) (skipBlock marker n r') := by
  induction n generalizing r r' with
  | zero => exact .intro _ h
  | succ n ih =>
    have looked := alike.reach h 0
    have found := findMarker_alike alike looked marker
    simp only [skipBlock, alike.char looked, alike.position looked]
    generalize findMarker marker (r.reach 0) = out at found ⊢
    generalize findMarker marker (r'.reach 0) = out' at found ⊢
    obtain ⟨out, after⟩ := found
    split
    · exact .intro _ (alike.report looked _)
    · rcases out with f | _ | k
      · exact .intro _ after
      · exact ih (alike.advance after)
      · exact .intro _ (alike.skip after _)

theorem atBracket_alike : Same R (atBracket st r) (atBracket st r') := by
  have looked := alike.reach h 1
  simp only [atBracket, alike.char h, alike.char looked]
  split
  · exact .intro _ h
  · split
    · exact .intro _ looked
    · exact .intro _ h

theorem skipComment_alike : Same R (skipComment st r) (skipComment st r') := by
  have line := findMarker_alike alike h st.lineComment
  simp only [skipComment]
  generalize findMarker st.lineComment r = out at line ⊢
  generalize findMarker st.lineComment r' = out' at line ⊢
  obtain @⟨out, r₁, r₁', after⟩ := line
  -- A fault, no line comment, or one that is skipped to the end of the line.
  rcases out with f | _ | n
  · exact .intro _ after
  · have block := findMarker_alike alike after st.blockCommentStart
    dsimp only at block ⊢
    generalize findMarker st.blockCommentStart r₁ = out at block ⊢
    generalize findMarker st.blockCommentStart r₁' = out' at block ⊢
    obtain @⟨out, r₂, r₂', after'⟩ := block
    rcases out with f | _ | n
    · exact .intro _ after'
    · exact .intro _ after'
    · have inside := skipBlock_alike alike (alike.skip after' (n + 1)) st.blockCommentEnd
        (r₂.rest.length + 1)
      dsimp only at inside ⊢
      rw [alike.rest after']
      generalize skipBlock st.blockCommentEnd (r₂.rest.length + 1)
        (r₂.skip (n + 1)) = out at inside ⊢
      generalize skipBlock st.blockCommentEnd (r₂.rest.length + 1)
        (r₂'.skip (n + 1)) = out' at inside ⊢
      obtain ⟨out, after''⟩ := inside
      cases out with
      | error f => exact .intro _ after''
      | ok _ => exact .intro _ after''
  · dsimp only at after ⊢
    rw [alike.rest after]
    exact .intro _ (skipLine_alike alike (alike.skip after _) _)

omit alike h in
theorem Same.token {out out' : Token × Reader} (same : Same R out out') :
    Same R ((.ok (.done (some out.1)), out.2) : Scanned Step)
      (.ok (.done (some out'.1)), out'.2) := by
  obtain ⟨t, after⟩ := same
  exact .intro _ after

theorem scanToken_alike : Same R (scanToken st r) (scanToken st r') := by
  have looked := alike.reach h (st.numberReach r.rest)
  simp only [scanToken, alike.rest h, alike.char h, alike.rest looked]
  generalize r.reach (st.numberReach r.rest) = r₀ at looked ⊢
  generalize r'.reach (st.numberReach r.rest) = r₀' at looked ⊢
  split
  · have number := scanNumber_alike alike st looked
    generalize scanNumber st r₀ = out at number ⊢
    generalize scanNumber st r₀' = out' at number ⊢
    obtain ⟨out, after⟩ := number
    cases out with
    | error f => exact .intro _ after
    | ok t => exact .intro _ after
  · split
    · exact .token (scanName_alike alike st looked)
    · split
      · exact .token (scanString_alike alike looked _)
      · have bracket := atBracket_alike alike st looked
        generalize atBracket st r₀ = out at bracket ⊢
        generalize atBracket st r₀' = out' at bracket ⊢
        obtain ⟨out, after⟩ := bracket
        cases out with
        | true => exact .token (scanBracket_alike alike after)
        | false =>
          dsimp only at after ⊢
          rw [alike.position after]
          split
          · exact .token (scanSpecialName_alike alike st after)
          · split
            · exact .intro _ (alike.advance (alike.report after _))
            · exact .token (scanSymbol_alike alike after)

theorem step_alike : Same R (step st r) (step st r') := by
  have blanks := skipBlanks_alike alike h (r.rest.length + 1)
  simp only [step, alike.rest h, alike.char blanks]
  generalize skipBlanks (r.rest.length + 1) r = r₀ at blanks ⊢
  generalize skipBlanks (r.rest.length + 1) r' = r₀' at blanks ⊢
  split
  · exact .intro _ blanks
  · have comment := skipComment_alike alike st blanks
    generalize skipComment st r₀ = out at comment ⊢
    generalize skipComment st r₀' = out' at comment ⊢
    obtain ⟨out, after⟩ := comment
    rcases out with f | _ | _
    · exact .intro _ after
    · exact scanToken_alike alike st after
    · exact .intro _ after

theorem scanWithin_alike (n : Nat) : Same R (scanWithin st n r) (scanWithin st n r') := by
  induction n generalizing r r' with
  | zero => exact .intro _ h
  | succ n ih =>
    have stepped := step_alike alike st h
    simp only [scanWithin]
    generalize step st r = out at stepped ⊢
    generalize step st r' = out' at stepped ⊢
    obtain ⟨out, after⟩ := stepped
    rcases out with f | t | _
    · exact .intro _ after
    · exact .intro _ after
    · exact ih after

/-- A scan of readers that are alike has the same outcome, and they stay alike. -/
theorem scan_alike : Same R (scan st r) (scan st r') := by
  unfold scan
  rw [alike.rest h]
  exact scanWithin_alike alike st h _

end Lexer

end Formula
