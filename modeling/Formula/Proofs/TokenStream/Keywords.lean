import Formula.Proofs.TokenStream.Quotations
import Formula.Proofs.TokenStream.Splitting

/-! Keywords and names. Where a text starts with a letter, its first token is the longest name
there, with the terminator behind it if there is one. It is a keyword if one is registered that is
spelled like it. -/
namespace Formula

namespace Text

theorem letterRanges_apart : ∀ a ∈ letterRanges, ∀ b ∈ digitRanges, a.2 < b.1 ∨ b.2 < a.1 := by
  -- computed with the comparisons of the kernel, which takes a fraction of the time
  have computed : letterRanges.all (fun a => digitRanges.all fun b => a.2.blt b.1 || b.2.blt a.1) =
      true := by
    decide +kernel
  intro a letters b digits
  simpa only [Bool.or_eq_true, Nat.blt_eq]
    using List.all_eq_true.mp (List.all_eq_true.mp computed a letters) b digits

theorem isDigit_of_isLetter {c : Char} (h : isLetter c) : isDigit c = false := by
  unfold isLetter at h
  unfold isDigit digitValue?
  split at h
  · rename_i plain
    simp only [Bool.or_eq_true, Bool.and_eq_true, decide_eq_true_eq] at h
    have range : (65 ≤ c.toNat ∧ c.toNat ≤ 90) ∨ (97 ≤ c.toNat ∧ c.toNat ≤ 122) := h
    have noDigit : ¬ ('0' ≤ c ∧ c ≤ '9') := by
      rintro ⟨_, most⟩
      have upper : c.toNat ≤ 57 := most
      omega
    rw [if_pos plain, if_neg noDigit]
    rfl
  · rename_i other
    have none : digitRanges.find? c = none := Ranges.find?_eq_none letterRanges_apart h
    rw [if_neg other, none]
    rfl

end Text

namespace Lexer

open Text (isDigit isLetter isBlank)
open Reader (Stands)

/-- A choice of keywords and of the characters that make names special. -/
structure Vocabulary where
  keywords : List String
  caseMatters : Bool
  starters : List String
  terminators : List String

namespace Vocabulary

variable (v : Vocabulary)

def changes : List (String × SettingValue) :=
  [("keywords", .list (v.keywords.map .text)), ("keywords_case_sensitive", .flag v.caseMatters),
    ("special_id_starters", .set v.starters), ("special_id_terminators", .set v.terminators)]

def settings : Settings where
  specialStarters := distinct v.starters
  specialTerminators := distinct v.terminators
  keywords := distinct v.keywords
  keywordsCaseSensitive := .flag v.caseMatters

def recognizes (name k : String) : Bool :=
  if v.caseMatters then k == name else Text.lower k == Text.lower name

/-- The token says the name, with the terminator behind it in its source: the first keyword that is
spelled like it, or else a name that is special if there is a terminator. -/
structure Says (name behind : List Char) (t : Token) : Prop where
  content : t.content = String.ofList name
  source : t.source = String.ofList (name ++ behind)
  keyword : t.kind = .keyword ↔ ∃ k ∈ v.keywords, v.recognizes t.content k
  first : t.kind = .keyword → v.keywords.find? (v.recognizes t.content) = some t.trigger
  other : t.kind ≠ .keyword →
    t.kind = (if behind = [] then .identifier else .specialIdentifier) ∧
      t.trigger = String.ofList behind

theorem configureAll_changes (source : Source) :
    configureAll v.changes { reader := .ofSource source } =
      .ok () { reader := .ofSource source, settings := v.settings } := by
  have texts : (SettingValue.list (v.keywords.map .text)).texts? = .ok v.keywords := by
    simp [SettingValue.texts?, List.filterMap_map]
  have known (st : Settings) : st.set "keywords" (.list (v.keywords.map .text)) =
      .ok { st with keywords := distinct v.keywords } := by
    have changed (value : SettingValue) : st.set "keywords" value =
        value.texts?.map fun ks => { st with keywords := distinct ks } := rfl
    rw [changed, texts]
    rfl
  have first : configure "keywords" (.list (v.keywords.map .text)) { reader := .ofSource source } =
      .ok () { reader := .ofSource source, settings := { keywords := distinct v.keywords } } := by
    simp only [configure, known]
    rfl
  simp only [configureAll, changes, List.forM_eq_forM, List.forM_cons, bind, EStateM.bind, first]
  rfl

theorem keyword?_settings (name : String) :
    v.settings.keyword? name = v.keywords.find? (v.recognizes name) := by
  have flag : v.settings.caseMatters = v.caseMatters := rfl
  have listed : v.settings.keywords = distinct v.keywords := rfl
  unfold Settings.keyword? recognizes
  rw [flag, listed]
  split
  · exact find?_distinct v.keywords _
  · exact find?_distinct v.keywords _

theorem terminator_settings (cs : List Char) :
    terminator v.settings.specialTerminators cs = terminator v.terminators cs := by
  have listed (s : String) : (distinct v.terminators).contains s = v.terminators.contains s := by
    rw [Bool.eq_iff_iff, List.contains_iff_mem, List.contains_iff_mem, mem_distinct]
  simp only [terminator, settings, listed]

theorem wellTyped_settings : v.settings.WellTyped :=
  have standard := Settings.wellTyped_standard
  ⟨standard.decimal, standard.exponent, standard.line, standard.blockStart, standard.blockEnd⟩

theorem says_freezeName (place : Position) (name behind : List Char) :
    v.Says name behind (freezeName v.settings (spelledName place name behind)) := by
  have asked : (spelledName place name behind).content = String.ofList name := rfl
  have plain : (spelledName place name behind).freeze.kind ≠ .keyword := by
    simp only [spelledName, TokenBuilder.freeze]
    split <;> decide
  have some_iff : (v.keywords.find? (v.recognizes (String.ofList name))).isSome ↔
      ∃ k ∈ v.keywords, v.recognizes (String.ofList name) k := List.find?_isSome
  simp only [freezeName, asked, keyword?_settings]
  cases found : v.keywords.find? (v.recognizes (String.ofList name)) with
  | some k =>
    rw [found] at some_iff
    exact ⟨rfl, rfl, ⟨fun _ => some_iff.mp rfl, fun _ => rfl⟩, fun _ => found,
      fun other => absurd rfl other⟩
  | none =>
    rw [found] at some_iff
    exact ⟨rfl, rfl, ⟨fun keyword => absurd keyword plain,
      fun known => absurd (some_iff.mpr known) Bool.false_ne_true⟩,
      fun keyword => absurd keyword plain, fun _ => ⟨rfl, rfl⟩⟩

end Vocabulary

theorem step_name (v : Vocabulary) {cs : List Char} {ps : List Problem} {r : Reader}
    (letter : isLetter (cs.getD 0 endMark)) (stands : Stands cs ps r) :
    let behind := cs.dropWhile isNameChar
    ∃ t r', step v.settings r = (.ok (.done (some t)), r') ∧
      v.Says (cs.takeWhile isNameChar) (terminator v.terminators behind) t ∧
      Stands (behind.drop (terminator v.terminators behind).length) ps r' := by
  have ne {d : Char} (other : isLetter d = false) : cs.getD 0 endMark ≠ d := by
    rintro rfl
    exact absurd letter (ne_true_of_eq_false other)
  have starts : StartsWord cs :=
    ⟨ne (by decide), Text.isBlank_of_isLetter letter, fun slash => absurd slash (ne (by decide))⟩
  have comments : skipComment v.settings = skipComment {} := rfl
  obtain ⟨r₁, stands₁, same⟩ := step_starts starts stands comments
  have here : r₁.char 0 = cs.getD 0 endMark := stands₁.char 0
  have stands₂ := stands₁.reach (v.settings.numberReach r₁.rest)
  -- A letter starts no number, and the longest name is what `takeWhile` takes.
  generalize reached : r₁.reach (v.settings.numberReach r₁.rest) = r₂ at stands₂
  cases cs with
  | nil => exact absurd letter (by decide)
  | cons c cs =>
    have isName : isNameChar c := by simp [isNameChar, show isLetter c from letter]
    rw [List.takeWhile_cons_of_pos isName, List.dropWhile_cons_of_pos isName]
    have noNumber : v.settings.startsNumber (c :: cs) = false :=
      startsNumber_of_ne (Text.isDigit_of_isLetter letter) (ne (by decide)) (ne (by decide))
    have split : c :: cs = c :: (cs.takeWhile isNameChar ++ cs.dropWhile isNameChar) := by
      rw [List.takeWhile_append_dropWhile]
    obtain ⟨r', run, stands'⟩ := scanName_eq v.settings (List.all_eq_true.mp List.all_takeWhile)
      (isNameChar_dropWhile cs) (split ▸ stands₂)
    rw [v.terminator_settings] at run stands'
    refine ⟨_, r', ?_, v.says_freezeName r₂.position _ _, stands'⟩
    rw [same]
    simp only [scanToken, reached, stands₂.rest, noNumber, here, letter, Bool.false_eq_true,
      if_false, if_true, run]

theorem position_of_next {l l' : Lexer} {t : Token} (typed : l.settings.WellTyped)
    (complete : l.reader.Complete)
    (unread : l.reader.last = .start) (next : l.next = (.ok (some t), l'))
    (all : l.reader.rest = t.source.toList ++ l'.reader.rest) : t.position = ⟨1, 1⟩ := by
  have front : l.reader.last = Position.start.afterAll [] := unread
  obtain ⟨u, r, read, scans⟩ := next_scans typed complete front
  obtain ⟨found, rfl⟩ := Prod.mk.inj (next.symm.trans read)
  obtain rfl : some t = u := Except.ok.inj found
  cases scans with
  | @token g w _ _ _ _ _ _ passes _ covers _ place =>
    have taken : w ++ r.rest = g ++ (w ++ r.rest) := by
      rw [← covers.passes.rest, ← passes.rest, all, covers.source, covers.passes.rest]
    obtain rfl : g = [] := List.self_eq_append_left.mp taken
    exact place

theorem next_name (v : Vocabulary) {l : Lexer} {cs : List Char} (chosen : l.settings = v.settings)
    (unread : l.reader.last = .start) (stands : Stands cs [] l.reader)
    (letter : isLetter (cs.getD 0 endMark)) :
    let behind := cs.dropWhile isNameChar
    ∃ t r, l.next = (.ok (some t), { l with reader := r, started := true }) ∧
      v.Says (cs.takeWhile isNameChar) (terminator v.terminators behind) t ∧ t.position = ⟨1, 1⟩ ∧
      Stands (behind.drop (terminator v.terminators behind).length) [] r := by
  obtain ⟨t, r, read, said, stands'⟩ := step_name v letter stands
  have scanned : scan l.settings l.reader = (.ok (some t), r) := by
    rw [chosen, scan, scanWithin, read]
    rfl
  have next := next_of_scan scanned stands'.whole
  refine ⟨t, r, next, said, ?_, stands'⟩
  have typed : l.settings.WellTyped := chosen ▸ v.wellTyped_settings
  refine position_of_next typed stands.complete unread next ?_
  rw [stands.rest, said.source, String.toList_ofList, stands'.rest, List.append_assoc,
    terminator_append_drop, List.takeWhile_append_dropWhile]

end Lexer

namespace TokenStream

open Lexer (Vocabulary isNameChar terminator)
open Text (isLetter)

/-- A text that starts with a letter starts with a name, whatever the keywords, the starters and the
terminators are. The first token says the longest name, and nothing behind it and its terminator is
touched. -/
theorem current_name (v : Vocabulary) (text : String)
    (letter : isLetter (text.toList.getD 0 endMark)) :
    ∃ t s, (do onLexer (Lexer.configureAll v.changes); current)
      (ofSource (.ofString text)) = .ok t s ∧
      let name := text.toList.takeWhile isNameChar
      let behind := text.toList.dropWhile isNameChar
      v.Says name (terminator v.terminators behind) t ∧ t.position = ⟨1, 1⟩ ∧ s.problems = [] ∧
        s.source.reader.rest = behind.drop (terminator v.terminators behind).length := by
  let l : Lexer := { reader := .ofSource (.ofString text), settings := v.settings }
  have configured : onLexer (Lexer.configureAll v.changes) (ofSource (.ofString text)) =
      .ok () { source := l } := by
    simp only [onLexer, ofSource, v.configureAll_changes]
    rfl
  have stands : l.reader.Stands text.toList [] := ⟨rfl, rfl, rfl, rfl⟩
  obtain ⟨t, r, next, said, place, stands'⟩ := Lexer.next_name v (l := l) rfl rfl stands letter
  refine ⟨t, { source := { l with reader := r, started := true }, buffer := [t] }, ?_, said, place,
    stands'.problems, stands'.rest⟩
  simp only [bind, EStateM.bind, configured]
  exact current_fresh next

/-- Of two keywords that a name is spelled like the first one counts, and the terminator is in the
source only. Where case matters the name is special. -/
theorem current_name_terminated :
    let v : Vocabulary := ⟨["Of", "If", "IF", "If"], false, ["$"], [":", "i"]⟩
    let w : Vocabulary := { v with caseMatters := true }
    (∃ t s, (do onLexer (Lexer.configureAll v.changes); current)
      (ofSource (.ofString "iF:=1")) = .ok t s ∧
      t.kind = .keyword ∧ t.trigger = "If" ∧ t.content = "iF" ∧ t.source = "iF:" ∧
        s.source.reader.rest = ['=', '1']) ∧
    (∃ t s, (do onLexer (Lexer.configureAll w.changes); current)
      (ofSource (.ofString "iF:=1")) = .ok t s ∧
      t.kind = .specialIdentifier ∧ t.trigger = ":" ∧ t.content = "iF" ∧ t.source = "iF:" ∧
        s.source.reader.rest = ['=', '1']) := by
  intro v w
  constructor
  · obtain ⟨t, s, run, said, _, _, left⟩ := current_name v "iF:=1" (by decide)
    have content : t.content = "iF" := said.content
    have keyword : t.kind = .keyword :=
      said.keyword.mpr ⟨"If", by decide, by rw [content]; decide +kernel⟩
    have first := said.first keyword
    have counts : v.keywords.find? (v.recognizes "iF") = some "If" := by decide +kernel
    rw [content, counts] at first
    exact ⟨t, s, run, keyword, (Option.some.inj first).symm, content, said.source, left⟩
  · obtain ⟨t, s, run, said, _, _, left⟩ := current_name w "iF:=1" (by decide)
    have content : t.content = "iF" := said.content
    have unknown : ∀ k ∈ w.keywords, ¬ w.recognizes "iF" k := by decide
    have plain : t.kind ≠ .keyword := by
      intro keyword
      obtain ⟨k, listed, spelled⟩ := said.keyword.mp keyword
      exact unknown k listed (content ▸ spelled)
    obtain ⟨kind, trigger⟩ := said.other plain
    exact ⟨t, s, run, kind, trigger, content, said.source, left⟩

end TokenStream

end Formula
