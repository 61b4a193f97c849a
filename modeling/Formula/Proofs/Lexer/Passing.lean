import Formula.Proofs.Lexer.Progress
import Mathlib.Data.List.Induction

/-! What a token takes from a text. Whatever the settings are, the source of a token that is read is
what the reader passes on the way, character for character, and the token stands where the first of
these characters stands. -/
namespace Formula

open Formula.Text (isDigit isLetter isBlank isControl)

/-- The place behind a text, counted from its line feeds. -/
def Position.behind (before : List Char) : Position :=
  ⟨1 + before.count '\n', 1 + (before.reverse.takeWhile (· ≠ '\n')).length⟩

theorem Position.next_afterAll (before : List Char) :
    (Position.start.afterAll before).next = Position.behind before := by
  induction before using List.reverseRecOn with
  | nil => rfl
  | append_singleton before c ih =>
    rw [Position.afterAll_append, Position.afterAll_cons, Position.afterAll_nil]
    obtain ⟨line, column⟩ := Position.mk.inj ih
    -- a line feed starts the columns anew, and any other character adds one to them
    by_cases h : c = '\n'
    · subst h
      simp [Position.after, Position.next, Position.behind, line, Nat.add_assoc]
    · simp [Position.after, Position.next, Position.behind, h, line, column, Nat.add_assoc]

structure Reader.Complete (r : Reader) : Prop where
  quiet : r.ending = .quiet
  whole : r.broken = none

/-- The reader goes over some characters to another place and reports some problems. -/
structure Reader.Passes (r : Reader) (w : List Char) (ps : List Problem) (r' : Reader) : Prop where
  rest : r.rest = w ++ r'.rest
  last : r'.last = r.last.afterAll w
  problems : r'.problems = r.problems ++ ps
  visible : ∀ c ∈ w, c ≠ endMark
  complete : r'.Complete

namespace Reader

variable {r r' r'' : Reader} {w w' : List Char} {ps ps' : List Problem}

theorem rest_eq_cons (visible : r.char 0 ≠ endMark) : r.rest = r.char 0 :: r.rest.tail := by
  cases h : r.rest with
  | nil => exact absurd h (rest_ne_nil_of_char visible)
  | cons c cs => simp [char, h]

theorem position_eq (visible : r.char 0 ≠ endMark) : r.position = r.last.next := by
  rw [position, rest_eq_cons visible]

namespace Complete

variable (h : r.Complete)
include h

theorem stays : Passes r [] [] r := by
  constructor <;> simp [h]

theorem reach (n : Nat) : Passes r [] [] (r.reach n) := by
  obtain ⟨quiet, whole⟩ := h
  unfold Reader.reach
  split
  · exact ⟨rfl, rfl, (List.append_nil _).symm, by simp, quiet, whole⟩
  · simp only [quiet]
    exact ⟨rfl, rfl, (List.append_nil _).symm, by simp, rfl, whole⟩

theorem report (p : Problem) : Passes r [] [p] (r.report p) :=
  ⟨rfl, rfl, rfl, by simp, h.quiet, h.whole⟩

theorem advance (visible : r.char 0 ≠ endMark) : Passes r [r.char 0] [] r.advance := by
  have here := rest_eq_cons visible
  generalize r.char 0 = c at here visible
  unfold Reader.advance
  rw [here]
  constructor
  · exact here
  · rfl
  · exact (List.append_nil _).symm
  · simpa using visible
  · exact ⟨h.quiet, h.whole⟩

end Complete

namespace Passes

theorem trans (h : Passes r w ps r') (h' : Passes r' w' ps' r'') :
    Passes r (w ++ w') (ps ++ ps') r'' := by
  constructor
  · rw [h.rest, h'.rest, List.append_assoc]
  · rw [h'.last, h.last, Position.afterAll_append]
  · rw [h'.problems, h.problems, List.append_assoc]
  · exact List.forall_mem_append.mpr ⟨h.visible, h'.visible⟩
  · exact h'.complete

theorem reach (h : Passes r w ps r') (n : Nat) : Passes r w ps (r'.reach n) := by
  simpa using h.trans (h.complete.reach n)

theorem advance (h : Passes r w ps r') (visible : r'.char 0 ≠ endMark) :
    Passes r (w ++ [r'.char 0]) ps r'.advance := by
  simpa using h.trans (h.complete.advance visible)

theorem report (h : Passes r w ps r') (p : Problem) : Passes r w (ps ++ [p]) (r'.report p) := by
  simpa using h.trans (h.complete.report p)

theorem place {before : List Char} (h : Passes r w ps r')
    (place : r.last = Position.start.afterAll before) :
    r'.last = Position.start.afterAll (before ++ w) := by
  rw [h.last, place, Position.afterAll_append]

theorem length_lt (h : Passes r w ps r') (nonempty : w ≠ []) : r'.rest.length < r.rest.length := by
  have split := congrArg List.length h.rest
  have more := List.length_pos_iff.mpr nonempty
  rw [List.length_append] at split
  omega

theorem clean (h : Passes r w ps r') (after : r'.problems = []) : r.problems = [] ∧ ps = [] := by
  rw [h.problems] at after
  exact List.append_eq_nil_iff.mp after

end Passes

end Reader

namespace Lexer

/-- A builder comes from another one by taking the characters that the reader moves past into its
source. On the way the reader looks ahead and finds what is wrong in the token. -/
inductive Collects (b : TokenBuilder) (r : Reader) : TokenBuilder → Reader → Prop
  | refl : Collects b r b r
  | look {b' : TokenBuilder} {r' : Reader} (n : Nat) (before : Collects b r b' r') :
      Collects b r b' (r'.reach n)
  | take {b' b'' : TokenBuilder} {r' : Reader} (before : Collects b r b' r')
      (visible : r'.char 0 ≠ endMark) (source : b''.source = b'.source.push (r'.char 0))
      (position : b''.position = b'.position)
      (kind : b'.kind ≠ .endOfInput → b''.kind ≠ .endOfInput) : Collects b r b'' r'.advance
  | report {b' : TokenBuilder} {r' : Reader} {p : Problem} (before : Collects b r b' r')
      (wrong : Misspelling p) : Collects b r b' (r'.report p)

/-- A token that takes some characters, where one reader stands, and leaves the other one behind
them. -/
structure Covers (t : Token) (r : Reader) (w : List Char) (ps : List Problem) (r' : Reader) :
    Prop where
  passes : r.Passes w ps r'
  source : t.source.toList = w
  position : t.position = r.position
  wrong : ∀ p ∈ ps, Misspelling p
  notEnd : t.isEnd = false

namespace Collects

variable {b b' b'' : TokenBuilder} {r r' r'' : Reader}

theorem trans (first : Collects b r b' r') (second : Collects b' r' b'' r'') :
    Collects b r b'' r'' := by
  induction second with
  | refl => exact first
  | look n _ ih => exact .look n ih
  | take _ visible source position kind ih => exact .take ih visible source position kind
  | report _ wrong ih => exact .report ih wrong

theorem passes (h : Collects b r b' r') (complete : r.Complete) :
    ∃ w ps, r.Passes w ps r' ∧ b'.source.toList = b.source.toList ++ w ∧
      ∀ p ∈ ps, Misspelling p := by
  induction h with
  | refl => exact ⟨[], [], complete.stays, (List.append_nil _).symm, by simp⟩
  | look n _ ih =>
    obtain ⟨w, ps, passes, source, wrong⟩ := ih
    exact ⟨w, ps, passes.reach n, source, wrong⟩
  | take _ visible grown _ _ ih =>
    obtain ⟨w, ps, passes, source, wrong⟩ := ih
    refine ⟨_, ps, passes.advance visible, ?_, wrong⟩
    rw [grown, String.toList_push, source, List.append_assoc]
  | report _ is ih =>
    obtain ⟨w, ps, passes, source, wrong⟩ := ih
    refine ⟨w, _, passes.report _, source, ?_⟩
    exact List.forall_mem_append.mpr ⟨wrong, by simpa using is⟩

theorem position (h : Collects b r b' r') : b'.position = b.position := by
  induction h with
  | refl => rfl
  | look _ _ ih => exact ih
  | take _ _ _ same _ ih => exact same.trans ih
  | report _ _ ih => exact ih

theorem kind (h : Collects b r b' r') (before : b.kind ≠ .endOfInput) : b'.kind ≠ .endOfInput := by
  induction h with
  | refl => exact before
  | look _ _ ih => exact ih
  | take _ _ _ _ kept ih => exact kept ih
  | report _ _ ih => exact ih

end Collects

section Tokens

variable {st : Settings} {r : Reader}

theorem visible_of_isDigit {c : Char} (h : isDigit c) : c ≠ endMark := by
  rintro rfl
  exact absurd h (by decide +kernel)

theorem visible_of_isChar {v : SettingValue} {c : Char} (h : v.isChar c) : c ≠ endMark := by
  rintro rfl
  cases v <;> simp [SettingValue.isChar, endMark] at h

theorem visible_of_isNameChar {c : Char} (h : isNameChar c) : c ≠ endMark := by
  rintro rfl
  exact absurd h (by decide +kernel)

theorem visible_of_continuesNumber {cs : List Char} (h : st.continuesNumber cs) :
    cs.getD 0 endMark ≠ endMark := by
  simp only [Settings.continuesNumber, Bool.or_eq_true, Bool.and_eq_true] at h
  rcases h with ((digit | decimal) | ⟨grouping, _⟩) | ⟨exponent, _⟩
  · exact visible_of_isDigit digit
  · exact visible_of_isChar decimal
  · exact visible_of_isChar grouping
  · simp only [Settings.isExponentSeparator, Bool.or_eq_true] at exponent
    rcases exponent with exponent | exponent
    · exact visible_of_isChar exponent
    · exact visible_of_isChar exponent

theorem addEffective_text {v : SettingValue} (typed : ∃ s, v = .text s) (b : TokenBuilder) :
    ∃ s, addEffective b v = .ok (b.addSilently s) := by
  obtain ⟨s, rfl⟩ := typed
  exact ⟨s, rfl⟩

theorem scanNameTail_collects (n : Nat) (b : TokenBuilder) (r : Reader) :
    Collects b r (scanNameTail n b r).1 (scanNameTail n b r).2 := by
  induction n generalizing b r with
  | zero => exact .refl
  | succ n ih =>
    have looked : Collects b r b (r.reach 0) := .look 0 .refl
    simp only [scanNameTail]
    split
    · rename_i goesOn
      have taken : Collects b r (b.addContent ((r.reach 0).char 0)) (r.reach 0).advance :=
        .take looked (visible_of_isNameChar goesOn) rfl rfl id
      exact taken.trans (ih _ _)
    · exact looked

theorem scanStringTail_collects (delimiter : Char) (escape : SettingValue) (n : Nat)
    (b : TokenBuilder) (r : Reader) :
    Collects b r (scanStringTail delimiter escape n b r).1
      (scanStringTail delimiter escape n b r).2 := by
  induction n generalizing b r with
  | zero => exact .refl
  | succ n ih =>
    have looked : Collects b r b (r.reach 0) := .look 0 .refl
    simp only [scanStringTail]
    split
    · exact looked
    · rename_i inside
      have visible : (r.reach 0).char 0 ≠ endMark := by
        intro ended
        simp [endsString, ended] at inside
      split
      · have escaped : Collects b r (b.addSource ((r.reach 0).char 0))
            ((r.reach 0).advance.reach 0) :=
          .look 0 (.take looked visible rfl rfl id)
        split
        · rename_i s known
          have meant : ((r.reach 0).advance.reach 0).char 0 ≠ endMark := by
            intro ended
            simp [unescape?, ended] at known
          have decoded : Collects b r ((b.addSource ((r.reach 0).char 0)).addSilently s |>.addSource
              (((r.reach 0).advance.reach 0).char 0)) ((r.reach 0).advance.reach 0).advance :=
            .take escaped meant rfl rfl id
          exact decoded.trans (ih _ _)
        -- only the escape character was taken: what follows it is read once more, as itself
        · exact (Collects.report escaped (.escape _ _)).trans (ih _ _)
      · have taken : Collects b r (b.addContent ((r.reach 0).char 0)) (r.reach 0).advance :=
          .take looked visible rfl rfl id
        exact taken.trans (ih _ _)

theorem scanNumberTail_collects (typed : st.WellTyped) (n : Nat) (b : TokenBuilder) (r : Reader) :
    ∃ b' r', scanNumberTail st n b r = (.ok b'.freeze, r') ∧ Collects b r b' r' := by
  induction n generalizing b r with
  | zero => exact ⟨b, r, rfl, .refl⟩
  | succ n ih =>
    -- whatever one step does to the builder, the rest of the number is collected on top of it
    have more {b₁ : TokenBuilder} {r₁ : Reader} (before : Collects b r b₁ r₁) :
        ∃ b' r', scanNumberTail st n b₁ r₁ = (.ok b'.freeze, r') ∧ Collects b r b' r' := by
      obtain ⟨b', r', run, rest⟩ := ih b₁ r₁
      exact ⟨b', r', run, before.trans rest⟩
    have looked : Collects b r b (r.reach (st.continuationReach r.rest)) := .look _ .refl
    have decimal : TokenKind.decimal ≠ .endOfInput := by decide
    have scientific : TokenKind.scientific ≠ .endOfInput := by decide
    simp only [scanNumberTail]
    generalize r.reach (st.continuationReach r.rest) = r₀ at looked ⊢
    split
    · exact ⟨b, r₀, rfl, looked⟩
    · rename_i goesOn
      have visible : r₀.char 0 ≠ endMark := visible_of_continuesNumber (by simpa using goesOn)
      split
      · exact more (.take looked visible rfl rfl id)
      · split
        · split
          · obtain ⟨s, added⟩ := addEffective_text typed.decimal (b.retype .decimal)
            rw [added]
            exact more (.take looked visible rfl rfl (fun _ => decimal))
          · exact more (.take (.report looked (.decimal _)) visible rfl rfl id)
        · split
          · split
            · exact more (.take (.report looked (.scientific _)) visible rfl rfl id)
            · obtain ⟨s, added⟩ := addEffective_text typed.exponent (b.retype .scientific)
              rw [added]
              dsimp only
              have taken : Collects b r
                  (((b.retype .scientific).addSilently s).addSource (r₀.char 0)) r₀.advance :=
                .take looked visible rfl rfl (fun _ => scientific)
              split
              · rename_i signed
                have sign : r₀.advance.char 0 ≠ endMark := by
                  intro ended
                  simp [ended, endMark] at signed
                exact more (.take taken sign rfl rfl id)
              · exact more taken
          · exact more (.take looked visible rfl rfl id)

theorem covers_of_collects {k : TokenKind} {b' : TokenBuilder} {r' : Reader} (complete : r.Complete)
    (known : k ≠ .endOfInput) (h : Collects { kind := k, position := r.position } r b' r') :
    ∃ w ps, Covers b'.freeze r w ps r' := by
  obtain ⟨w, ps, passes, source, wrong⟩ := h.passes complete
  refine ⟨w, ps, passes, source.trans ?_, h.position, wrong, ?_⟩
  · simp
  · exact decide_eq_false (h.kind known)

theorem freezeName_covers {b : TokenBuilder} {w : List Char} {ps : List Problem} {r' : Reader}
    (h : Covers b.freeze r w ps r') : Covers (freezeName st b) r w ps r' := by
  unfold freezeName
  split
  · exact ⟨h.passes, h.source, h.position, h.wrong, rfl⟩
  · exact h

variable (complete : r.Complete) (visible : r.char 0 ≠ endMark)
include complete visible

theorem scanName_covers (st : Settings) :
    ∃ w ps, Covers (scanName st r).1 r w ps (scanName st r).2 := by
  let b : TokenBuilder := { kind := .identifier, position := r.position }
  have first : Collects b r (b.addContent (r.char 0)) r.advance := .take .refl visible rfl rfl id
  have tail := first.trans (scanNameTail_collects r.rest.length _ _)
  simp only [scanName]
  generalize scanNameTail r.rest.length (b.addContent (r.char 0)) r.advance = out at tail ⊢
  obtain ⟨b', r'⟩ := out
  dsimp only at tail ⊢
  split
  · rename_i ends
    simp only [Bool.and_eq_true, decide_eq_true_eq] at ends
    have named : TokenKind.specialIdentifier ≠ .endOfInput := by decide
    have special : Collects b r ((b'.retype .specialIdentifier
        (some (String.singleton (r'.char 0)))).addSource (r'.char 0)) r'.advance :=
      .take tail ends.1 rfl rfl (fun _ => named)
    obtain ⟨w, ps, covers⟩ := covers_of_collects complete (by decide) special
    exact ⟨w, ps, freezeName_covers covers⟩
  · obtain ⟨w, ps, covers⟩ := covers_of_collects complete (by decide) tail
    exact ⟨w, ps, freezeName_covers covers⟩

theorem scanSpecialName_covers (st : Settings) :
    ∃ w ps, Covers (scanSpecialName st r).1 r w ps (scanSpecialName st r).2 := by
  let b : TokenBuilder := { kind := .specialIdentifier, position := r.position }
  have first : Collects b r (b.addTrigger (r.char 0)) r.advance := .take .refl visible rfl rfl id
  have tail := first.trans (scanNameTail_collects r.rest.length _ _)
  obtain ⟨w, ps, covers⟩ := covers_of_collects complete (by decide) tail
  exact ⟨w, ps, freezeName_covers covers⟩

theorem scanSymbol_covers : ∃ w ps, Covers (scanSymbol r).1 r w ps (scanSymbol r).2 := by
  let b : TokenBuilder := { kind := .symbol, position := r.position }
  have first : Collects b r (b.addTrigger (r.char 0)) (r.advance.reach 0) :=
    .look 0 (.take .refl visible rfl rfl id)
  simp only [scanSymbol]
  split
  · rename_i joined
    have second : (r.advance.reach 0).char 0 ≠ endMark := by
      intro ended
      simp [ended, endMark] at joined
      simp [← joined.2] at joined
    exact covers_of_collects complete (by decide) (.take first second rfl rfl id)
  · exact covers_of_collects complete (by decide) first

theorem scanString_covers (escape : SettingValue) :
    ∃ w ps, Covers (scanString escape r).1 r w ps (scanString escape r).2 := by
  let b : TokenBuilder := { kind := .string, position := r.position }
  have first : Collects b r (b.addTrigger (r.char 0)) r.advance := .take .refl visible rfl rfl id
  have tail := first.trans (scanStringTail_collects (r.char 0) escape r.rest.length _ _)
  simp only [scanString]
  generalize scanStringTail (r.char 0) escape r.rest.length
    (b.addTrigger (r.char 0)) r.advance = out
    at tail ⊢
  obtain ⟨b', r'⟩ := out
  dsimp only at tail ⊢
  split
  · rename_i closed
    have taken : Collects b r (b'.addSource (r.char 0)) r'.advance :=
      .take tail (closed.trans_ne visible) (congrArg b'.source.push closed.symm) rfl id
    exact covers_of_collects complete (by decide) taken
  · exact covers_of_collects complete (by decide) (.report tail (.string _))

theorem scanNumber_covers (typed : st.WellTyped) :
    ∃ t w ps r', scanNumber st r = (.ok t, r') ∧ Covers t r w ps r' := by
  have more {b₁ : TokenBuilder} {r₁ : Reader}
      (before : Collects { kind := .integer, position := r.position } r b₁ r₁) :
      ∃ t w ps r', scanNumberTail st r.rest.length b₁ r₁ = (.ok t, r') ∧ Covers t r w ps r' := by
    obtain ⟨b', r', run, rest⟩ := scanNumberTail_collects typed r.rest.length b₁ r₁
    obtain ⟨w, ps, covers⟩ := covers_of_collects complete (by decide) (before.trans rest)
    exact ⟨_, w, ps, r', run, covers⟩
  simp only [scanNumber]
  split
  · obtain ⟨s, added⟩ := addEffective_text typed.decimal
      (TokenBuilder.retype { kind := .integer, position := r.position } .decimal)
    have decimal : TokenKind.decimal ≠ .endOfInput := by decide
    rw [added]
    exact more (.take .refl visible rfl rfl (fun _ => decimal))
  · exact more (.take .refl visible rfl rfl id)

omit complete in
theorem positionAt_zero : r.positionAt 0 = r.position := by
  have more : r.rest ≠ [] := Reader.rest_ne_nil_of_char visible
  simp [Reader.positionAt, Reader.position_eq visible, List.length_pos_iff.mpr more]

theorem scanBracket_covers :
    Covers (scanBracket r).1 r [r.char 0] [] (scanBracket r).2 := by
  constructor
  · exact complete.advance visible
  · simp [scanBracket, TokenBuilder.ofCharacter, TokenBuilder.freeze, Reader.characterAt, toString,
      Character.isEnd, visible]
  · exact positionAt_zero visible
  · simp
  · rfl

end Tokens

end Lexer

end Formula
