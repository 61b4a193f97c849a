import Formula.TokenStream

/-! What a lexer does to its reader: it looks ahead, moves on and reports problems where it stands,
and nothing else. So it never goes back, and never changes how the source ends. With settings of the
kinds that they should have it comes to no fault, and a source that does not break can be read to
its end. -/
namespace Formula

namespace Lexer

def SettingValue.IsMarker (v : SettingValue) : Prop := (∃ s, v = .text s) ∨ v.isOn = false

/-- Settings of the kinds that they should have. -/
structure Settings.WellTyped (st : Settings) : Prop where
  decimal : ∃ s, st.effectiveDecimalSeparator = .text s
  exponent : ∃ s, st.effectiveExponentSeparator = .text s
  line : st.lineComment.IsMarker
  blockStart : st.blockCommentStart.IsMarker
  blockEnd : st.blockCommentEnd.IsMarker

theorem Settings.wellTyped_standard : ({} : Settings).WellTyped := by
  constructor
  · exact ⟨".", rfl⟩
  · exact ⟨"e", rfl⟩
  · exact .inl ⟨"//", rfl⟩
  · exact .inl ⟨"/*", rfl⟩
  · exact .inl ⟨"*/", rfl⟩

inductive Misspelling : Problem → Prop
  | escape (at_ : Position) (c : String) :
      Misspelling ⟨.error, at_, "Cannot use '" ++ c ++ "' as escaped character"⟩
  | string (at_ : Position) : Misspelling ⟨.error, at_, "Premature end of string constant"⟩
  | decimal (at_ : Position) : Misspelling ⟨.error, at_, "Unexpected decimal separators"⟩
  | scientific (at_ : Position) :
      Misspelling ⟨.error, at_, "Unexpected scientific notation separators"⟩

inductive IsLexical : Problem → Prop
  | word {p : Problem} (wrong : Misspelling p) : IsLexical p
  | character (at_ : Position) (c : String) :
      IsLexical ⟨.error, at_, "Invalid character in input: '" ++ c ++ "'"⟩
  | comment (at_ : Position) : IsLexical ⟨.error, at_, "Premature end of block comment"⟩

end Lexer

/-- A reader comes from another one by looking ahead, moving on and reporting. -/
inductive Reader.Moves (r : Reader) : Reader → Prop
  | refl : Moves r r
  | reach {r' : Reader} (n : Nat) (before : Moves r r') : Moves r (r'.reach n)
  | advance {r' : Reader} (before : Moves r r') : Moves r r'.advance
  | report {r' : Reader} {p : Problem} (before : Moves r r') (wrong : Lexer.IsLexical p)
      (place : p.position = r'.position) : Moves r (r'.report p)

namespace Reader

section Steps

variable (r : Reader)

@[simp] theorem rest_advance : r.advance.rest = r.rest.tail := by
  unfold advance
  cases h : r.rest <;> simp [h]

@[simp] theorem rest_reach (n : Nat) : (r.reach n).rest = r.rest := by
  unfold reach
  split
  · rfl
  · cases r.ending with
    | quiet => rfl
    | failing reason => cases r.ended <;> rfl
    | breaking => cases r.broken <;> rfl

@[simp] theorem char_reach (n m : Nat) : (r.reach n).char m = r.char m := by
  simp only [char, rest_reach]

@[simp] theorem rest_report (p : Problem) : (r.report p).rest = r.rest := rfl

theorem rest_skip (n : Nat) : (r.skip n).rest = r.rest.drop n := by
  induction n generalizing r with
  | zero => rfl
  | succ n ih => simp [skip, ih]

@[simp] theorem ending_reach (n : Nat) : (r.reach n).ending = r.ending := by
  obtain ⟨c, ending, ahead, ended, broken⟩ := r
  by_cases h : n < c.rest.length
  · simp [reach, h]
  · cases ending with
    | quiet => simp [reach, h]
    | failing reason => cases ended <;> simp [reach, report, h]
    | breaking => cases broken <;> simp [reach, h]

@[simp] theorem ending_advance : r.advance.ending = r.ending := by
  unfold advance
  cases r.rest <;> rfl

@[simp] theorem broken_advance : r.advance.broken = r.broken := by
  unfold advance
  cases r.rest <;> rfl

theorem broken_reach {r : Reader} (steady : r.ending ≠ .breaking) (n : Nat) :
    (r.reach n).broken = r.broken := by
  unfold reach
  split
  · rfl
  · cases ending : r.ending with
    | quiet => rfl
    | failing reason => cases r.ended <;> rfl
    | breaking => exact absurd ending steady

end Steps

variable {r r' r'' : Reader}

theorem rest_ne_nil_of_char (h : r.char 0 ≠ endMark) : r.rest ≠ [] := by
  intro empty
  exact h (by rw [char, empty]; rfl)

namespace Moves

theorem trans (first : Moves r r') (second : Moves r' r'') : Moves r r'' := by
  induction second with
  | refl => exact first
  | reach n _ ih => exact .reach n ih
  | advance _ ih => exact .advance ih
  | report _ wrong place ih => exact .report ih wrong place

theorem skip (before : Moves r r') (n : Nat) : Moves r (r'.skip n) := by
  induction n generalizing r' with
  | zero => exact before
  | succ n ih => exact ih before.advance

theorem ending (moves : Moves r r') : r'.ending = r.ending := by
  induction moves with
  | refl => rfl
  | reach n _ ih => rw [ending_reach, ih]
  | advance _ ih => rw [ending_advance, ih]
  | report _ _ _ ih => exact ih

theorem broken (steady : r.ending ≠ .breaking) (moves : Moves r r') : r'.broken = r.broken := by
  induction moves with
  | refl => rfl
  | reach n before ih => rw [broken_reach (before.ending ▸ steady), ih]
  | advance _ ih => rw [broken_advance, ih]
  | report _ _ _ ih => exact ih

/-- What remains is an end of the text. -/
theorem suffix (moves : Moves r r') : r'.rest <:+ r.rest := by
  induction moves with
  | refl => exact List.suffix_rfl
  | reach n _ ih => rwa [rest_reach]
  | advance _ ih => exact rest_advance _ ▸ (List.tail_suffix _).trans ih
  | report _ _ _ ih => exact ih

end Moves

end Reader

namespace Lexer

open Reader (Moves)

variable {α β : Type} {typed typed' : Prop} {r r' : Reader} {out : Scanned α}

/-- A reading that only moves its reader, and comes to a fault only if a setting is of the wrong
kind. -/
structure Proceeds (typed : Prop) (r : Reader) (out : Scanned α) : Prop where
  moves : Moves r out.2
  fails : ∀ f, out.1 = .error f → f = .wrongKind ∧ ¬ typed

namespace Proceeds

theorem result {a : α} (moves : Moves r r') : Proceeds typed r (.ok a, r') := ⟨moves, nofun⟩

theorem fault (moves : Moves r r') (ill : ¬ typed) :
    Proceeds typed r ((.error .wrongKind, r') : Scanned α) :=
  ⟨moves, fun _ failed => ⟨(Except.error.inj failed).symm, ill⟩⟩

theorem after (moves : Moves r r') (h : Proceeds typed r' out) : Proceeds typed r out :=
  ⟨moves.trans h.moves, h.fails⟩

theorem mono (h : Proceeds typed r out) (stronger : typed' → typed) : Proceeds typed' r out :=
  ⟨h.moves, fun f failed => (h.fails f failed).imp_right (mt stronger)⟩

theorem pass {f : Fault} (h : Proceeds typed r ((.error f, r') : Scanned α)) :
    Proceeds typed r ((.error f, r') : Scanned β) := by
  obtain ⟨rfl, ill⟩ := h.fails f rfl
  exact .fault h.moves ill

theorem succeeds (h : Proceeds typed r out) (is : typed) : ∃ a, out.1 = .ok a := by
  cases run : out.1 with
  | ok a => exact ⟨a, rfl⟩
  | error f => exact absurd is (h.fails f run).2

end Proceeds

/-- A reading that takes a character, unless it comes to a fault. -/
structure Takes (typed : Prop) (r : Reader) (out : Scanned α) : Prop
    extends Proceeds typed r out where
  taken : ∀ a, out.1 = .ok a → out.2.rest <:+ r.rest.tail

namespace Takes

theorem of_advance (h : Proceeds typed r.advance out) : Takes typed r out :=
  ⟨.after (.advance .refl) h, fun _ _ => r.rest_advance ▸ h.moves.suffix⟩

theorem fault (moves : Moves r r') (ill : ¬ typed) :
    Takes typed r ((.error .wrongKind, r') : Scanned α) :=
  ⟨.fault moves ill, nofun⟩

theorem behind (moves : Moves r r') (same : r'.rest = r.rest) (h : Takes typed r' out) :
    Takes typed r out :=
  ⟨h.toProceeds.after moves, fun a is => same ▸ h.taken a is⟩

end Takes

section Readings

variable (st : Settings) (r : Reader)

theorem scanNameTail_moves (n : Nat) (b : TokenBuilder) : Moves r (scanNameTail n b r).2 := by
  induction n generalizing b r with
  | zero => exact .refl
  | succ n ih =>
    have looked : Moves r (r.reach 0) := .reach 0 .refl
    simp only [scanNameTail]
    split
    · exact looked.advance.trans (ih _ _)
    · exact looked

theorem scanName_moves : Moves r.advance (scanName st r).2 := by
  have tail := scanNameTail_moves r.advance r.rest.length
    (TokenBuilder.addContent { kind := .identifier, position := r.position } (r.char 0))
  simp only [scanName]
  split
  · exact tail.advance
  · exact tail

theorem scanSpecialName_moves : Moves r.advance (scanSpecialName st r).2 :=
  scanNameTail_moves r.advance _ _

theorem scanSymbol_moves : Moves r.advance (scanSymbol r).2 := by
  have looked : Moves r.advance (r.advance.reach 0) := .reach 0 .refl
  simp only [scanSymbol]
  split
  · exact looked.advance
  · exact looked

theorem scanBracket_moves : Moves r.advance (scanBracket r).2 := .refl

theorem scanStringTail_moves (delimiter : Char) (escape : SettingValue) (n : Nat)
    (b : TokenBuilder) :
    Moves r (scanStringTail delimiter escape n b r).2 := by
  induction n generalizing b r with
  | zero => exact .refl
  | succ n ih =>
    have looked : Moves r (r.reach 0) := .reach 0 .refl
    have escaped : Moves r ((r.reach 0).advance.reach 0) := .reach 0 looked.advance
    simp only [scanStringTail]
    split
    · exact looked
    · split
      · split
        · exact escaped.advance.trans (ih _ _)
        · exact (escaped.report (.word (.escape _ _)) rfl).trans (ih _ _)
      · exact looked.advance.trans (ih _ _)

theorem scanString_moves (escape : SettingValue) : Moves r.advance (scanString escape r).2 := by
  have tail := scanStringTail_moves r.advance (r.char 0) escape r.rest.length
    (TokenBuilder.addTrigger { kind := .string, position := r.position } (r.char 0))
  simp only [scanString]
  split
  · exact tail.advance
  · exact tail.report (.word (.string _)) rfl

theorem addEffective_fails {v : SettingValue} {b : TokenBuilder} {f : Fault}
    (failed : addEffective b v = .error f) : f = .wrongKind ∧ ¬ ∃ s, v = .text s := by
  unfold addEffective at failed
  split at failed
  · cases failed
  · rename_i noText
    exact ⟨(Except.error.inj failed).symm, fun ⟨s, same⟩ => noText s same⟩

theorem scanNumberTail_proceeds (n : Nat) (b : TokenBuilder) :
    Proceeds st.WellTyped r (scanNumberTail st n b r) := by
  induction n generalizing b r with
  | zero => exact .result .refl
  | succ n ih =>
    have looked : Moves r (r.reach (st.continuationReach r.rest)) := .reach _ .refl
    simp only [scanNumberTail]
    split
    · exact .result looked
    · split
      · exact .after looked.advance (ih _ _)
      · split
        · split
          · split
            · rename_i failed
              obtain ⟨rfl, ill⟩ := addEffective_fails failed
              exact .fault looked fun typed => ill typed.decimal
            · exact .after looked.advance (ih _ _)
          · exact .after (looked.report (.word (.decimal _)) rfl).advance (ih _ _)
        · split
          · split
            · exact .after (looked.report (.word (.scientific _)) rfl).advance (ih _ _)
            · split
              · rename_i failed
                obtain ⟨rfl, ill⟩ := addEffective_fails failed
                exact .fault looked fun typed => ill typed.exponent
              · split
                · exact .after looked.advance.advance (ih _ _)
                · exact .after looked.advance (ih _ _)
          · exact .after looked.advance (ih _ _)

theorem scanNumber_takes : Takes st.WellTyped r (scanNumber st r) := by
  simp only [scanNumber]
  split
  · split
    · rename_i failed
      obtain ⟨rfl, ill⟩ := addEffective_fails failed
      exact .fault .refl fun typed => ill typed.decimal
    · exact .of_advance (scanNumberTail_proceeds st _ _ _)
  · exact .of_advance (scanNumberTail_proceeds st _ _ _)

theorem skipBlanks_moves (n : Nat) : Moves r (skipBlanks n r) := by
  induction n generalizing r with
  | zero => exact .refl
  | succ n ih =>
    have looked : Moves r (r.reach 0) := .reach 0 .refl
    simp only [skipBlanks]
    split
    · exact looked.advance.trans (ih _)
    · exact looked

theorem findMarker_proceeds (marker : SettingValue) :
    Proceeds marker.IsMarker r (findMarker marker r) := by
  unfold findMarker
  split
  · dsimp only
    split
    · exact .result .refl
    · split <;> exact .result (.reach _ .refl)
  · rename_i noText
    split
    · rename_i isOn
      refine .fault .refl fun is => ?_
      rcases is with ⟨s, same⟩ | off
      · exact noText s same
      · exact absurd isOn (ne_true_of_eq_false off)
    · exact .result .refl

theorem skipLine_moves (n : Nat) : Moves r (skipLine n r) := by
  induction n generalizing r with
  | zero => exact .refl
  | succ n ih =>
    have looked : Moves r (r.reach 0) := .reach 0 .refl
    simp only [skipLine]
    split
    · exact looked
    · exact looked.advance.trans (ih _)

theorem skipBlock_proceeds (marker : SettingValue) (n : Nat) :
    Proceeds marker.IsMarker r (skipBlock marker n r) := by
  induction n generalizing r with
  | zero => exact .result .refl
  | succ n ih =>
    have looked : Moves r (r.reach 0) := .reach 0 .refl
    simp only [skipBlock]
    split
    · exact .result (looked.report (.comment _) rfl)
    · have found := (findMarker_proceeds (r.reach 0) marker).after looked
      generalize findMarker marker (r.reach 0) = out at found ⊢
      obtain ⟨f | _ | k, r₁⟩ := out
      · exact found.pass
      · exact .after found.moves.advance (ih _)
      · exact .result (found.moves.skip _)

theorem atBracket_moves : Moves r (atBracket st r).2 := by
  simp only [atBracket]
  repeat' split
  · exact .refl
  · exact .reach 1 .refl
  · exact .refl

theorem atBracket_rest : (atBracket st r).2.rest = r.rest := by
  simp only [atBracket]
  repeat' split
  all_goals simp

theorem skipComment_proceeds : Proceeds st.WellTyped r (skipComment st r) := by
  have line := (findMarker_proceeds r st.lineComment).mono Settings.WellTyped.line
  simp only [skipComment]
  generalize findMarker st.lineComment r = out at line ⊢
  -- A fault, no line comment, or one that is skipped to the end of the line.
  obtain ⟨f | _ | n, r₁⟩ := out
  · exact line.pass
  · have block := ((findMarker_proceeds r₁ st.blockCommentStart).mono
      Settings.WellTyped.blockStart).after line.moves
    dsimp only
    generalize findMarker st.blockCommentStart r₁ = out at block ⊢
    obtain ⟨f | _ | n, r₂⟩ := out
    · exact block.pass
    · exact .result block.moves
    · have inside := ((skipBlock_proceeds (r₂.skip (n + 1)) st.blockCommentEnd
        (r₂.rest.length + 1)).mono
        Settings.WellTyped.blockEnd).after (block.moves.skip (n + 1))
      dsimp only
      generalize skipBlock st.blockCommentEnd (r₂.rest.length + 1)
        (r₂.skip (n + 1)) = out at inside ⊢
      obtain ⟨f | _, r₃⟩ := out
      · exact inside.pass
      · exact .result inside.moves
  · exact .result ((line.moves.skip _).trans (skipLine_moves _ _))

theorem scanToken_takes : Takes st.WellTyped r (scanToken st r) := by
  have looked : Moves r (r.reach (st.numberReach r.rest)) := .reach _ .refl
  simp only [scanToken]
  refine .behind looked (r.rest_reach _) ?_
  generalize r.reach (st.numberReach r.rest) = r₀
  split
  · have number := scanNumber_takes st r₀
    generalize scanNumber st r₀ = out at number ⊢
    obtain ⟨f | t, r₁⟩ := out
    · exact ⟨number.pass, nofun⟩
    · exact ⟨.result number.moves, fun _ _ => number.taken t rfl⟩
  · split
    · exact .of_advance (.result (scanName_moves st r₀))
    · split
      · exact .of_advance (.result (scanString_moves r₀ _))
      · have bracket := atBracket_moves st r₀
        have same : (atBracket st r₀).2.rest = r₀.rest := atBracket_rest st r₀
        generalize atBracket st r₀ = out at bracket same ⊢
        obtain ⟨isBracket, r₁⟩ := out
        refine .behind bracket same ?_
        cases isBracket with
        | true => exact .of_advance (.result (scanBracket_moves r₁))
        | false =>
          dsimp only
          split
          · exact .of_advance (.result (scanSpecialName_moves st r₁))
          · split
            · have invalid : IsLexical _ := .character r₁.position (String.singleton (r.char 0))
              exact .behind (.report .refl invalid rfl) rfl (.of_advance (.result .refl))
            · exact .of_advance (.result (scanSymbol_moves r₁))

theorem step_proceeds : Proceeds st.WellTyped r (step st r) := by
  have blanks := skipBlanks_moves r (r.rest.length + 1)
  simp only [step]
  generalize skipBlanks (r.rest.length + 1) r = r₀ at blanks ⊢
  split
  · exact .result blanks
  · have comment := (skipComment_proceeds st r₀).after blanks
    generalize skipComment st r₀ = out at comment ⊢
    obtain ⟨f | _ | _, r₁⟩ := out
    · exact comment.pass
    · exact .after comment.moves (scanToken_takes st r₁).toProceeds
    · exact .result comment.moves

theorem scanWithin_proceeds (n : Nat) : Proceeds st.WellTyped r (scanWithin st n r) := by
  induction n generalizing r with
  | zero => exact .result .refl
  | succ n ih =>
    have stepped := step_proceeds st r
    rw [scanWithin]
    generalize step st r = out at stepped ⊢
    obtain ⟨f | t | _, r₁⟩ := out
    · exact stepped.pass
    · exact .result stepped.moves
    · exact .after stepped.moves (ih r₁)

theorem eq_wrongKind_of_scan {f : Fault} (failed : (scan st r).1 = .error f) : f = .wrongKind :=
  ((scanWithin_proceeds st r _).fails f failed).1

/-- With the standard settings every scan has a result. -/
theorem scan_succeeds : ∃ t r', scan {} r = (.ok t, r') ∧ Moves r r' := by
  have proceeds : Proceeds _ r (scan {} r) := scanWithin_proceeds {} r _
  obtain ⟨t, ok⟩ := proceeds.succeeds Settings.wellTyped_standard
  exact ⟨t, _, Prod.ext ok rfl, proceeds.moves⟩

end Readings

end Lexer

end Formula
