import Formula.Proofs.TokenStream.Splitting

/-! Consuming. Whatever is looked at and reported on the way, the tokens that were consumed from a
stream and those that wait in its buffer are what the text was split into so far. -/
namespace Formula.TokenStream

open Lexer (Splits Settings)

/-- A stream comes from another one by looking ahead, reporting, and consuming these tokens. The
mark of the end is none of them, for consuming it changes nothing. -/
inductive Consumed (s : TokenStream) : List Token → TokenStream → Prop
  | none : Consumed s [] s
  | look {ts : List Token} {s' s'' : TokenStream} {t : Token} {n : Nat} (before : Consumed s ts s')
      (run : Lookahead.at? n s' = .ok t s'') : Consumed s ts s''
  | token {ts : List Token} {s' s'' : TokenStream} {t : Token} (before : Consumed s ts s')
      (run : consume s' = .ok t s'') (is : t.isEnd = false) : Consumed s (ts ++ [t]) s''
  | ended {ts : List Token} {s' s'' : TokenStream} {t : Token} (before : Consumed s ts s')
      (run : consume s' = .ok t s'') (is : t.isEnd) : Consumed s ts s''
  | report {ts : List Token} {s' : TokenStream} (p : Problem) (before : Consumed s ts s') :
      Consumed s ts (s'.mapLexer (·.report p))

theorem Consumed.trans {s s' s'' : TokenStream} {ts us : List Token} (first : Consumed s ts s')
    (second : Consumed s' us s'') : Consumed s (ts ++ us) s'' := by
  induction second with
  | none => rwa [List.append_nil]
  | look _ run ih => exact .look ih run
  | token _ run is ih => exact List.append_assoc ts _ _ ▸ .token ih run is
  | ended _ run is ih => exact .ended ih run is
  | report p _ ih => exact .report p ih

theorem Consumed.exists_of_consume {s s' : TokenStream} {t : Token} (run : consume s = .ok t s') :
    ∃ ts, Consumed s ts s' := by
  cases is : t.isEnd with
  | true => exact ⟨[], .ended .none run is⟩
  | false => exact ⟨[t], .token .none run is⟩

/-- What a text was split into by the time a reader came to its place, with all problems reported.
At the end the split is complete. -/
inductive SplitSoFar (st : Settings) (text : List Char) (ts : List Token) (r : Reader) : Bool → Prop
  | ended {cs stop : List Char} {ps : List Problem} (spelled : text = cs ++ stop)
      (visible : endMark ∉ cs)
      (stops : stop.getD 0 endMark = endMark) (splits : Splits st stop [] ts cs ps)
      (found : ∀ p ∈ ps, p ∈ r.problems) : SplitSoFar st text ts r true
  | more {cs : List Char} {ps : List Problem} (complete : r.Complete)
      (place : r.last = Position.start.afterAll cs) (spelled : text = cs ++ r.rest)
      (visible : endMark ∉ cs)
      (found : ∀ p ∈ ps, p ∈ r.problems)
      (splits : ∀ {stop cs' : List Char} {ts' : List Token} {qs : List Problem},
        r.rest = cs' ++ stop →
        Splits st stop cs ts' cs' qs → Splits st stop [] (ts ++ ts') (cs ++ cs') (ps ++ qs)) :
      SplitSoFar st text ts r false

/-- A stream over a text, from which these tokens were consumed. -/
structure Halfway (st : Settings) (text : List Char) (taken : List Token) (s : TokenStream) :
    Prop where
  settings : s.source.settings = st
  lexemes : ∀ t ∈ s.buffer, t.isEnd = false
  mark : ∀ m, s.endMark = some m → m.isEnd
  split : SplitSoFar st text (taken ++ s.buffer) s.source.reader s.ended

variable {st : Settings} {text : List Char} {taken : List Token} {s s' : TokenStream} {t : Token}

theorem SplitSoFar.report {ts : List Token} {r : Reader} {ended : Bool} (p : Problem)
    (h : SplitSoFar st text ts r ended) : SplitSoFar st text ts (r.report p) ended := by
  have kept {ps : List Problem} (found : ∀ q ∈ ps, q ∈ r.problems) :
      ∀ q ∈ ps, q ∈ (r.report p).problems :=
    fun q hq => List.mem_append_left [p] (found q hq)
  cases h with
  | ended spelled visible stops splits found =>
    exact .ended spelled visible stops splits (kept found)
  | more complete place spelled visible found splits =>
    exact .more ⟨complete.quiet, complete.whole⟩ place spelled visible (kept found) splits

theorem SplitSoFar.next {ts : List Token} {l : Lexer} (typed : l.settings.WellTyped)
    (h : SplitSoFar l.settings text ts l.reader false) :
    ∃ t r', l.next = (.ok t, { l with reader := r', started := true }) ∧ (∀ u ∈ t,
      u.isEnd = false) ∧
      SplitSoFar l.settings text (ts ++ t.toList) r' t.isNone := by
  cases h with
  | @more cs ps complete place spelled visible found splits =>
    obtain ⟨t, r', read, scans⟩ := Lexer.next_scans typed complete place
    refine ⟨t, r', read, ?_⟩
    -- At the end the split is complete; a token adds itself and the gap before it.
    cases scans with
    | @ended g qs _ skipped passes ended =>
      refine ⟨nofun, .ended ?_ ?_ ended (splits passes.rest (.done skipped)) ?_⟩
      · rw [spelled, passes.rest, List.append_assoc]
      · simp only [List.mem_append, not_or]
        exact ⟨visible, fun null => passes.visible _ null rfl⟩
      · rw [passes.problems]
        exact fun p hp => List.mem_append.mpr ((List.mem_append.mp hp).imp_left (found p))
    | @token g w qs rs t r₁ _ skipped passes _ covers nonempty place' =>
      obtain rfl := covers.source
      have whole := passes.trans covers.passes
      refine ⟨by rintro u ⟨⟩; exact covers.notEnd, ?_⟩
      have found' : ∀ p ∈ ps ++ (qs ++ rs), p ∈ r'.problems := by
        rw [whole.problems]
        exact fun p hp => List.mem_append.mpr ((List.mem_append.mp hp).imp_left (found p))
      refine .more whole.complete (whole.place place) ?_ ?_ found' ?_
      · rw [spelled, whole.rest, List.append_assoc cs]
      · simp only [List.mem_append, not_or]
        exact ⟨visible, fun null => passes.visible _ null rfl,
          fun null => covers.passes.visible _ null rfl⟩
      · intro stop cs' ts' qs' rest more
        have here : l.reader.rest = (g ++ t.source.toList ++ cs') ++ stop := by
          rw [whole.rest, rest, List.append_assoc _ cs']
        have behind : r₁.rest = t.source.toList ++ (cs' ++ stop) := rest ▸ covers.passes.rest
        rw [← List.append_assoc] at more
        have split := splits here
          (.token (behind ▸ skipped) nonempty place' covers.notEnd covers.wrong more)
        simpa using split

namespace Halfway

theorem ofSource {text : String} :
    Halfway {} text.toList [] (ofSource (.ofString text)) := by
  refine ⟨rfl, nofun, nofun, ?_⟩
  have place : Position.start = Position.start.afterAll [] := rfl
  have found : ∀ p ∈ ([] : List Problem), p ∈ ([] : List Problem) := nofun
  refine .more ⟨rfl, rfl⟩ place rfl List.not_mem_nil found ?_
  intro stop cs' ts' qs _ more
  exact more

theorem report (h : Halfway st text taken s) (p : Problem) :
    Halfway st text taken (s.mapLexer (·.report p)) :=
  ⟨h.settings, h.lexemes, h.mark, h.split.report p⟩

theorem fill (typed : st.WellTyped) (h : Halfway st text taken s) (n : Nat) :
    ∃ s' : TokenStream, Lookahead.fill n s = .ok () s' ∧ Halfway st text taken s' ∧
      (s'.ended = true ∨ s.buffer.length + n ≤ s'.buffer.length) := by
  induction n generalizing s with
  | zero => exact ⟨s, rfl, h, .inr (Nat.le_refl _)⟩
  | succ n ih =>
    cases ended : s.ended with
    | true => exact ⟨s, by simp [Lookahead.fill, ended], h, .inl ended⟩
    | false =>
      have settings := h.settings
      obtain rfl := settings
      obtain ⟨t, r', read, lexeme, split⟩ := SplitSoFar.next typed (ended ▸ h.split)
      have fetched : Feed.fetch s.source =
          (.ok t, { s.source with reader := r', started := true }) := read
      cases t with
      | none =>
        let s' : TokenStream :=
          { s with source := { s.source with reader := r', started := true }, ended := true }
        have filled : Lookahead.fill (n + 1) s = .ok () s' := by
          simp [Lookahead.fill, ended, fetched, s']
        refine ⟨s', filled, ⟨rfl, h.lexemes, h.mark, ?_⟩, .inl rfl⟩
        simpa using split
      | some t =>
        have more : Halfway s.source.settings text taken
            { s with
              source := { s.source with reader := r', started := true }
              buffer := s.buffer ++ [t] } := by
          refine ⟨rfl, ?_, h.mark, ?_⟩
          · exact List.forall_mem_append.mpr ⟨h.lexemes,
              List.forall_mem_singleton.mpr (lexeme t rfl)⟩
          · simpa [ended] using split
        obtain ⟨s', run, half, enough⟩ := ih more
        refine ⟨s', by simpa [Lookahead.fill, ended, fetched] using run, half, ?_⟩
        simpa [Nat.add_assoc, Nat.add_comm 1 n] using enough

theorem at? (typed : st.WellTyped) (h : Halfway st text taken s) {n : Nat}
    (run : Lookahead.at? n s = .ok t s') :
    Halfway st text taken s' ∧ (s'.buffer[n]? = some t ∨
      s'.ended = true ∧ s'.buffer.length ≤ n ∧ t.isEnd) := by
  obtain ⟨s₁, filled, half, enough⟩ := h.fill typed (n + 1 - s.buffer.length)
  simp only [Lookahead.at?, filled] at run
  cases item : s₁.buffer[n]? with
  | some u =>
    simp only [item] at run
    obtain ⟨rfl, rfl⟩ := EStateM.Result.ok.inj run
    exact ⟨half, .inl item⟩
  -- behind the tokens that wait stands the mark of the end, made now or before
  | none =>
    simp only [item] at run
    have short : s₁.buffer.length ≤ n := List.getElem?_eq_none_iff.mp item
    have ended : s₁.ended = true := enough.resolve_right (by omega)
    unfold Lookahead.mark at run
    cases made : s₁.endMark with
    | some m =>
      simp only [made] at run
      obtain ⟨rfl, rfl⟩ := EStateM.Result.ok.inj run
      exact ⟨half, .inr ⟨ended, short, half.mark _ made⟩⟩
    | none =>
      simp only [made] at run
      obtain ⟨rfl, rfl⟩ := EStateM.Result.ok.inj run
      have isEnd : s₁.source.endToken.isEnd := rfl
      exact ⟨⟨half.settings, half.lexemes, fun m same => Option.some.inj same ▸ isEnd, half.split⟩,
        .inr ⟨ended, short, isEnd⟩⟩

theorem consume (typed : st.WellTyped) (h : Halfway st text taken s)
    (run : TokenStream.consume s = .ok t s') :
    Halfway st text (if t.isEnd then taken else taken ++ [t]) s' := by
  simp only [TokenStream.consume, current, Lookahead.current, bind, EStateM.bind] at run
  cases looked : Lookahead.at? 0 s with
  | error f s₁ => simp [looked] at run
  | ok u s₁ =>
    simp only [looked] at run
    obtain ⟨half, first⟩ := h.at? typed looked
    cases buffered : s₁.buffer with
    | cons v rest =>
      obtain rfl : v = u := by simpa [buffered] using first
      simp only [Lookahead.drop, buffered, pure, EStateM.pure] at run
      obtain ⟨rfl, rfl⟩ := EStateM.Result.ok.inj run
      have lexemes : ∀ x ∈ v :: rest, x.isEnd = false := buffered ▸ half.lexemes
      have isToken : v.isEnd = false := lexemes v List.mem_cons_self
      have split := half.split
      rw [buffered] at split
      rw [isToken]
      refine ⟨half.settings, fun x hx => lexemes x (List.mem_cons_of_mem v hx), half.mark, ?_⟩
      simpa using split
    -- at the end nothing is dropped
    | nil =>
      obtain ⟨ended, _, isEnd⟩ := first.resolve_left (by simp [buffered])
      simp only [Lookahead.drop, buffered, ended, if_true, pure, EStateM.pure] at run
      obtain ⟨rfl, rfl⟩ := EStateM.Result.ok.inj run
      rw [isEnd]
      exact half

theorem consumed (typed : st.WellTyped) {ts : List Token} (h : Halfway st text [] s)
    (consumed : Consumed s ts s') : Halfway st text ts s' := by
  induction consumed with
  | none => exact h
  | look _ run ih => exact (ih.at? typed run).1
  | token _ run is ih => simpa [is] using ih.consume typed run
  | ended _ run is ih => simpa [is] using ih.consume typed run
  | report p _ ih => exact ih.report p

theorem split_of_end (h : Halfway st text taken s) (ended : s.ended = true)
    (empty : s.buffer = []) :
    ∃ cs stop ps, text = cs ++ stop ∧ endMark ∉ cs ∧ stop.getD 0 endMark = endMark ∧
      Splits st stop [] taken cs ps ∧ ∀ p ∈ ps, p ∈ s.problems := by
  have split := h.split
  rw [ended, empty, List.append_nil] at split
  cases split with
  | ended spelled visible stops splits found =>
    exact ⟨_, _, _, spelled, visible, stops, splits, found⟩

end Halfway

end Formula.TokenStream
