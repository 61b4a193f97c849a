import Formula.Proofs.Lexer.Moves

/-! Progress of the lexer. A token takes at least one character, and what is skipped is not read
again. -/
namespace Formula

namespace Lexer

variable (st : Settings) (r : Reader)

/-- A step that reads a token takes at least one character, and one that skips leaves an end. -/
theorem step_length {s : Step} {r' : Reader} (h : step st r = (.ok s, r')) :
    r'.rest.length ≤ r.rest.length
      ∧ ∀ t, s = .done (some t) → r'.rest.length < r.rest.length := by
  have blanks := (skipBlanks_moves r (r.rest.length + 1)).suffix.length_le
  simp only [step] at h
  generalize skipBlanks (r.rest.length + 1) r = r₀ at h blanks
  split at h
  · obtain ⟨same, rfl⟩ := Prod.mk.inj h
    cases same
    exact ⟨blanks, fun t same => by cases same⟩
  · rename_i more
    have nonempty := List.length_pos_iff.mpr
      (Reader.rest_ne_nil_of_char (r := r₀) (by simpa using more))
    have comment := (skipComment_proceeds st r₀).moves.suffix.length_le
    generalize skipComment st r₀ = out at h comment
    obtain ⟨f | _ | _, r₁⟩ := out
    · cases h
    · have takes := scanToken_takes st r₁
      rw [show scanToken st r₁ = (.ok s, r') from h] at takes
      have token := (takes.taken s rfl).length_le
      simp only [List.length_tail] at token comment
      exact ⟨by omega, fun _ _ => by omega⟩
    · obtain ⟨same, rfl⟩ := Prod.mk.inj h
      cases same
      exact ⟨Nat.le_trans comment blanks, fun t same => by cases same⟩

theorem afterStep_eq_token {more : Reader → Scanned (Option Token)} {out : Scanned Step} {t : Token}
    {r' : Reader} (h : afterStep more out = (.ok (some t), r')) :
    out = (.ok (.done (some t)), r')
      ∨ ∃ r₁, out = (.ok .skipped, r₁) ∧ more r₁ = (.ok (some t), r') := by
  rcases out with ⟨f | s, r₁⟩
  · simp [afterStep] at h
  · cases s with
    | done t' =>
      obtain ⟨ht, rfl⟩ := Prod.mk.inj h
      exact .inl (by rw [Except.ok.inj ht])
    | skipped => exact .inr ⟨r₁, rfl, h⟩

theorem scanWithin_length (n : Nat) {t : Token} {r' : Reader}
    (h : scanWithin st n r = (.ok (some t), r')) : r'.rest.length < r.rest.length := by
  induction n generalizing r with
  | zero => simp [scanWithin] at h
  | succ n ih =>
    rw [scanWithin] at h
    rcases afterStep_eq_token h with read | ⟨r₁, skipped, more⟩
    · exact (step_length st r read).2 t rfl
    · exact Nat.lt_of_lt_of_le (ih r₁ more) (step_length st r skipped).1

theorem scan_length {t : Token} {r' : Reader} (h : scan st r = (.ok (some t), r')) :
    r'.rest.length < r.rest.length := scanWithin_length st r (r.rest.length + 1) h

/-- The outcome of the next token is that of the scan, unless the source has broken. -/
theorem next_eq_token {l l' : Lexer} {t : Option Token} (h : l.next = (.ok t, l')) :
    ∃ r, scan l.settings l.reader = (.ok t, r) ∧ l' = { l with reader := r, started := true } := by
  unfold next at h
  generalize scan l.settings l.reader = out at h ⊢
  obtain ⟨out, r⟩ := out
  cases broken : r.broken with
  | none =>
    simp only [Reader.settle, broken] at h
    obtain ⟨rfl, rfl⟩ := Prod.mk.inj h
    exact ⟨r, rfl, rfl⟩
  | some c => simp [Reader.settle, broken] at h

theorem next_of_scan {l : Lexer} {t : Option Token} {r : Reader}
    (h : scan l.settings l.reader = (.ok t, r)) (whole : r.broken = none) :
    l.next = (.ok t, { l with reader := r, started := true }) := by
  unfold next
  generalize scan l.settings l.reader = out at h
  subst h
  simp only [Reader.settle, whole]

/-- A lexer comes to a fault for its source or for a setting of the wrong kind, and for nothing
else. -/
theorem next_fails {l l' : Lexer} {f : Fault} (h : l.next = (.error f, l')) :
    f = .brokenSource ∨ f = .wrongKind := by
  unfold next at h
  dsimp only at h
  cases broken : (scan l.settings l.reader).2.broken with
  | some c =>
    simp only [Reader.settle, broken] at h
    exact .inl (Except.error.inj (Prod.mk.inj h).1).symm
  | none =>
    simp only [Reader.settle, broken] at h
    exact .inr (eq_wrongKind_of_scan l.settings l.reader (Prod.mk.inj h).1)

theorem next_length {l l' : Lexer} {t : Token} (h : l.next = (.ok (some t), l')) :
    l'.reader.rest.length < l.reader.rest.length := by
  obtain ⟨r, read, rfl⟩ := next_eq_token h
  exact scan_length l.settings l.reader read

theorem next_succeeds {l : Lexer} (standard : l.settings = {})
    (steady : l.reader.ending ≠ .breaking) (whole : l.reader.broken = none) :
    ∃ t r, scan {} l.reader = (.ok t, r) ∧ r.ending ≠ .breaking ∧ r.broken = none ∧
      l.next = (.ok t, { l with reader := r, started := true }) := by
  obtain ⟨t, r, read, moves⟩ := scan_succeeds l.reader
  have still : r.broken = none := (moves.broken steady).trans whole
  exact ⟨t, r, read, moves.ending ▸ steady, still, next_of_scan (standard.symm ▸ read) still⟩

end Lexer

end Formula
