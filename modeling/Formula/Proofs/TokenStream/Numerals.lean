import Formula.Proofs.Lexer.NumeralLanguage
import Formula.Proofs.TokenStream.Layout

/-! Numbers that are texts of their own. A text is read as a single number, without a problem,
exactly if it is in the language of numerals. The token has the kind and the content that the
numeral gives it. -/
namespace Formula

namespace Lexer

namespace Separators

open Formula.Text (isDigit isBlank)
open Reader (Stands)

variable {s : Separators} {w : List Char} {ps : List Problem} {r : Reader} {t : Token}

theorem startsWord_of_startsNumber (starts : s.settings.startsNumber w) : StartsWord w := by
  have other {c d : Char} (is : isDigit c) (noDigit : isDigit d = false) : c ≠ d := by
    rintro rfl
    simp [is] at noDigit
  cases w with
  | nil => cases starts
  | cons c cs =>
    rw [startsNumber_eq] at starts
    by_cases decimal : c = s.decimal
    · subst decimal
      -- the separator may be a slash, but what follows it starts no comment
      obtain ⟨-, noBlank, -, noMinus, visible⟩ := s.plain s.decimal (by simp)
      have digit : isDigit (cs.getD 0 endMark) := by simpa [noDigit_decimal, noMinus] using starts
      exact ⟨visible, noBlank, fun _ => ⟨other digit (by decide), other digit (by decide)⟩⟩
    · have first : isDigit c ∨ c = '-' := by
        simp only [decimal, decide_false, Bool.false_and, Bool.or_false] at starts
        by_cases minus : c = '-' <;> simp_all
      rcases first with digit | rfl
      · exact ⟨other digit (by decide), Text.isBlank_of_isDigit digit,
          fun slash => absurd slash (other digit (by decide))⟩
      · have noSlash : '-' ≠ '/' := by decide
        exact ⟨show '-' ≠ endMark
          by decide, show isBlank '-' = false by decide, fun slash => absurd slash noSlash⟩

theorem isNumber_of_kindAfter (kind : t.kind = s.kindAfter .integer w) : t.isNumber := by
  rw [Token.isNumber, kind, kindAfter]
  split_ifs <;> decide

theorem scanToken_outcome (starts : s.settings.startsNumber w) (stands : Stands w ps r) :
    ∃ t w' qs r', scanToken s.settings r = (.ok (.done (some t)), r') ∧ Covers t r w' qs r' ∧
      s.Outcome { kind := .integer, position := r.position } w ps (s.goesOn .integer (unsigned w))
        (.ok t, r') := by
  have stands₁ := stands.reach (s.settings.numberReach r.rest)
  have looked := stands.complete.reach (s.settings.numberReach r.rest)
  have visible : (r.reach (s.settings.numberReach r.rest)).char 0 ≠ endMark := by
    rw [stands₁.char 0]
    exact (startsWord_of_startsNumber starts).visible
  have outcome := scanNumber_outcome starts stands₁
  obtain ⟨t, w', qs, r', read, covers⟩ := scanNumber_covers looked.complete visible s.wellTyped
  rw [read, position_of_passes looked] at outcome
  refine ⟨t, w', qs, r', ?_, covers.after looked, outcome⟩
  simp only [scanToken, stands₁.rest, starts, if_true, read]

theorem scan_number (accepted : s.accepts w) (stands : Stands w ps r) :
    ∃ t r', scan s.settings r = (.ok (some t), r') ∧ Stands [] ps r' ∧ t.isNumber ∧
      t.source.toList = w := by
  obtain ⟨starts, goesOn⟩ := Bool.and_eq_true_iff.mp accepted
  obtain ⟨r₁, stands₁, reads⟩ :=
    @step_starts s.settings w ps r (startsWord_of_startsNumber starts) stands rfl
  obtain ⟨t, w', qs, r', read, covers, outcome⟩ := scanToken_outcome starts stands₁
  rw [goesOn] at outcome
  obtain ⟨b, same, kind, -, ended⟩ := outcome
  obtain rfl : t = b.freeze := Except.ok.inj same
  have taken := covers.passes.rest
  rw [stands₁.rest, ended.rest, List.append_nil] at taken
  refine ⟨_, r', ?_, ended, isNumber_of_kindAfter kind, covers.source.trans taken.symm⟩
  rw [scan, scanWithin, reads, read]
  rfl

def number (s : Separators) (text : String) : Token where
  kind := s.kindAfter .integer text.toList
  content := String.ofList (s.content text.toList)
  source := text
  position := ⟨1, 1⟩

theorem accepts_of_scanToken {r' : Reader} (stands : Stands w ps r)
    (read : scanToken s.settings r = (.ok (.done (some t)), r')) (number : t.isNumber)
    (ended : Stands [] ps r') :
    s.accepts w ∧ t.kind = s.kindAfter .integer w ∧ t.trigger = "" ∧
    t.content = String.ofList (s.content w) := by
  have starts : s.settings.startsNumber w := by
    rcases scanToken_cases read with ⟨starts, -⟩ | verbal
    · exact stands.rest ▸ starts
    · exact absurd number (ne_true_of_eq_false verbal.noNumber)
  obtain ⟨t', _, _, r'', read', -, outcome⟩ := scanToken_outcome starts stands
  obtain ⟨same, rfl⟩ := Prod.mk.inj (read'.symm.trans read)
  obtain rfl : t' = t := by simpa using same
  cases goesOn : s.goesOn .integer (unsigned w) with
  | false =>
    rw [goesOn] at outcome
    exact absurd ended outcome
  | true =>
    rw [goesOn] at outcome
    obtain ⟨b, same, kind, grown, -⟩ := outcome
    obtain rfl : t' = b.freeze := Except.ok.inj same
    have content : b.freeze.content = String.ofList (s.content w) := by
      rw [← String.toList_inj, String.toList_ofList]
      exact grown.content
    exact ⟨Bool.and_eq_true_iff.mpr ⟨starts, goesOn⟩, kind, grown.trigger, content⟩

end Separators

end Lexer

namespace TokenStream

open Lexer (Separators Supplies)

/-- The text is read as a single token, a number, without a problem. -/
def ReadsNumber (s : Separators) (text : String) (t : Token) : Prop :=
  ∃ mark st, ((ofSource (.ofString text)).changeSettings fun _ => s.settings).tokens = .ok
    [t, mark] st ∧ mark.isEnd ∧
    st.problems = [] ∧ t.isNumber ∧ t.source = text

variable {s : Separators} {text : String} {t : Token}

theorem accepts_of_supplies {l : Lexer} {mark : Token} (settings : l.settings = s.settings)
    (stands : l.reader.Stands text.toList []) (start : l.reader.last = Position.start)
    (supplied : Supplies mark [t] l) (number : t.isNumber) (source : t.source = text) :
    s.accepts text.toList ∧ t = s.number text := by
  have typed : l.settings.WellTyped := settings ▸ Separators.wellTyped
  have place : l.reader.last = Position.start.afterAll [] := start
  obtain ⟨t', r', read, scans⟩ := Lexer.next_scans typed stands.complete place
  obtain ⟨l', first, clean, -⟩ := supplied
  obtain ⟨some, rfl⟩ := Prod.mk.inj (read.symm.trans first)
  cases scans with
  | ended => cases some
  | @token g w ps qs t' r₁ _ _ passes found covers _ behind =>
    obtain rfl : t' = t := by simpa using some
    -- the source is the whole text, so nothing stands before it or behind it
    have whole := passes.trans covers.passes
    have length := congrArg List.length whole.rest
    have spelled : w = text.toList := by rw [← covers.source, source]
    rw [stands.rest, spelled, List.length_append, List.length_append] at length
    obtain rfl : g = [] := List.length_eq_zero_iff.mp (by omega)
    have empty : r'.rest = [] := List.length_eq_zero_iff.mp (by omega)
    obtain ⟨clean₁, rfl⟩ := covers.passes.clean clean
    have rest : r₁.rest = text.toList := by rw [← stands.rest, passes.rest, List.nil_append]
    have here : r₁.Stands text.toList [] :=
      ⟨rest, clean₁, passes.complete.quiet, passes.complete.whole⟩
    have ended : r'.Stands [] [] := ⟨empty, clean, whole.complete.quiet, whole.complete.whole⟩
    obtain ⟨accepted, kind, trigger, content⟩ :=
      Separators.accepts_of_scanToken here (settings ▸ found.read) number ended
    refine ⟨accepted, ?_⟩
    show Token.mk t'.kind t'.trigger t'.content t'.source t'.position = s.number text
    rw [kind, trigger, content, source, behind]
    rfl

theorem supplies_of_accepts {l : Lexer} (settings : l.settings = s.settings)
    (stands : l.reader.Stands text.toList []) (accepted : s.accepts text.toList) :
    ∃ t mark, Supplies mark [t] l ∧ mark.isEnd ∧ t.isNumber ∧ t.source = text := by
  obtain ⟨t, r', read, stands', number, source⟩ := Separators.scan_number accepted stands
  let l' : Lexer := { l with reader := r', started := true }
  have first : l.next = (.ok (some t), l') :=
    Lexer.next_of_scan (settings.symm ▸ read) stands'.whole
  obtain ⟨r'', ended, stands''⟩ := @Lexer.step_end l'.settings _ _ r' rfl stands'
  let l'' : Lexer := { l' with reader := r'', started := true }
  have done : Lexer.scan l'.settings r' = (.ok none, r'') := by
    rw [Lexer.scan, Lexer.scanWithin, ended]
    rfl
  have last : l'.next = (.ok none, l'') := Lexer.next_of_scan done stands''.whole
  have supplied : Supplies l''.endToken [t] l :=
    ⟨l', first, stands'.problems, l'', last, stands''.problems, rfl⟩
  exact ⟨t, _, supplied, rfl, number, String.toList_inj.mp source⟩

/-- The language of numbers: a text is read as a single number, without a problem, exactly if it is
a numeral. The number has the kind and the content that the numeral gives it. -/
theorem readsNumber_iff (s : Separators) (text : String) (t : Token) :
    ReadsNumber s text t ↔ text.toList ∈ s.numeral ∧ t = s.number text := by
  let l : Lexer := { reader := .ofSource (.ofString text), settings := s.settings }
  have stands : l.reader.Stands text.toList [] := ⟨rfl, rfl, rfl, rfl⟩
  have all : ((ofSource (.ofString text)).changeSettings fun _ => s.settings).tokens =
      tokensWithin (text.toList.length + 1) { source := l } := by
    rw [tokens_eq]
    simp [l, ofSource, changeSettings, mapLexer]
    rfl
  constructor
  · rintro ⟨mark, st, run, isEnd, clean, number, source⟩
    have within : tokensWithin (text.toList.length + 1) { source := l } = .ok ([t] ++ [mark]) st :=
      all.symm.trans run
    obtain ⟨-, supplied⟩ := supplies_of_tokensWithin _ rfl isEnd within clean
    obtain ⟨accepted, same⟩ := accepts_of_supplies (l := l) rfl stands rfl supplied number source
    exact ⟨Separators.accepts_iff.mp accepted, same⟩
  · rintro ⟨member, rfl⟩
    have accepted := Separators.accepts_iff.mpr member
    obtain ⟨t, mark, supplied, isEnd, number, source⟩ :=
      supplies_of_accepts (l := l) rfl stands accepted
    obtain ⟨-, rfl⟩ := accepts_of_supplies (l := l) rfl stands rfl supplied number source
    have notEnd : ∀ t ∈ [s.number text], t.isEnd = false :=
      List.forall_mem_singleton.mpr (Lexer.notEnd_of_isNumber number)
    have enough : [s.number text].length < text.toList.length + 1 := by
      apply Nat.succ_lt_succ
      apply List.length_pos_iff.mpr
      intro empty
      rw [empty] at accepted
      cases accepted
    obtain ⟨st, run, clean⟩ := tokensWithin_of_supplies _ isEnd notEnd supplied enough
    exact ⟨mark, st, all.trans run, isEnd, clean, number, source⟩

end TokenStream

end Formula
