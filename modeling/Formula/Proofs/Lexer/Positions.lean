import Formula.Proofs.Lexer.Moves
import Formula.Proofs.TokenStream.Splitting

/-! The order in which a text is read. A reader never goes back, and the problems that a lexer
reports lie between the places where it starts and where it stops, in their order. -/
namespace Formula

theorem pairwise_snoc {α : Type} {R : α → α → Prop} {as : List α} {b : α} (sorted : as.Pairwise R)
    (last : ∀ a ∈ as, R a b) : (as ++ [b]).Pairwise R := by
  rw [List.pairwise_append]
  refine ⟨sorted, List.pairwise_singleton R b, ?_⟩
  intro a member b' isLast
  obtain rfl := List.mem_singleton.mp isLast
  exact last a member

namespace Position

variable {p q r : Position}

/-- Not later in a text: lines count before columns. -/
instance : LE Position := ⟨fun p q => p.line < q.line ∨ p.line = q.line ∧ p.column ≤ q.column⟩

theorem le_iff : p ≤ q ↔ p.line < q.line ∨ p.line = q.line ∧ p.column ≤ q.column := Iff.rfl

instance (p q : Position) : Decidable (p ≤ q) := decidable_of_iff' _ le_iff

theorem le_refl (p : Position) : p ≤ p := .inr ⟨rfl, Nat.le_refl _⟩

theorem le_trans (h : p ≤ q) (h' : q ≤ r) : p ≤ r := by
  simp only [le_iff] at *
  omega

theorem le_next (p : Position) : p ≤ p.next := .inr ⟨rfl, Nat.le_succ _⟩

theorem next_le_after (p : Position) (c : Char) : p.next ≤ p.after c := by
  unfold after
  split
  · exact .inl (Nat.lt_succ_self _)
  · exact le_refl _

end Position

namespace Reader

variable {r r' r'' : Reader} {w : List Char} {ps qs : List Problem} {p : Problem}

theorem last_le (r : Reader) : r.last ≤ r.position := by
  unfold position
  split
  · exact Position.le_refl _
  · exact Position.le_next _

theorem position_le_advance (r : Reader) : r.position ≤ r.advance.position := by
  cases here : r.rest with
  | nil =>
    have same : r.advance = r := by simp [advance, here]
    rw [same]
    exact Position.le_refl _
  | cons c rest =>
    have start : r.position = r.last.next := by simp [position, here]
    have last : r.advance.last = r.last.after c := by simp [advance, here]
    rw [start]
    exact Position.le_trans (last ▸ Position.next_le_after r.last c) (last_le r.advance)

theorem position_le_of_passed (rest : r.rest = w ++ r'.rest) (last : r'.last = r.last.afterAll w) :
    r.position ≤ r'.position := by
  induction w generalizing r with
  | nil =>
    have same : r'.position = r.position := by
      have here : r.rest = r'.rest := rest
      have place : r'.last = r.last := last
      simp [position, here, place]
    rw [same]
    exact Position.le_refl _
  | cons c w ih =>
    have rest' : r.advance.rest = w ++ r'.rest := by simp [advance, rest]
    have last' : r'.last = r.advance.last.afterAll w := by simp [advance, rest, last]
    exact Position.le_trans (position_le_advance r) (ih rest' last')

theorem Passes.onward (h : r.Passes w ps r') : r.position ≤ r'.position :=
  position_le_of_passed h.rest h.last

structure Reports (r : Reader) (ps : List Problem) (r' : Reader) : Prop where
  problems : r'.problems = r.problems ++ ps
  onward : r.position ≤ r'.position
  lexical : ∀ p ∈ ps, Lexer.IsLexical p
  ahead : ∀ p ∈ ps, r.position ≤ p.position
  passed : ∀ p ∈ ps, p.position ≤ r'.position
  sorted : ps.Pairwise fun p q => p.position ≤ q.position

namespace Reports

theorem none (r : Reader) : Reports r [] r where
  problems := (List.append_nil _).symm
  onward := Position.le_refl _
  lexical := List.forall_mem_nil _
  ahead := List.forall_mem_nil _
  passed := List.forall_mem_nil _
  sorted := .nil

theorem on (h : Reports r ps r') (found : r''.problems = r'.problems)
    (onward : r'.position ≤ r''.position) :
    Reports r ps r'' where
  problems := found.trans h.problems
  onward := Position.le_trans h.onward onward
  lexical := h.lexical
  ahead := h.ahead
  passed p member := Position.le_trans (h.passed p member) onward
  sorted := h.sorted

theorem trans (h : Reports r ps r') (h' : Reports r' qs r'') : Reports r (ps ++ qs) r'' where
  problems := by rw [h'.problems, h.problems, List.append_assoc]
  onward := Position.le_trans h.onward h'.onward
  lexical := List.forall_mem_append.mpr ⟨h.lexical, h'.lexical⟩
  ahead := by
    have later : ∀ q ∈ qs, r.position ≤ q.position :=
      fun q member => Position.le_trans h.onward (h'.ahead q member)
    exact List.forall_mem_append.mpr ⟨h.ahead, later⟩
  passed := by
    have earlier : ∀ p ∈ ps, p.position ≤ r''.position := by
      intro p member
      exact Position.le_trans (h.passed p member) h'.onward
    exact List.forall_mem_append.mpr ⟨earlier, h'.passed⟩
  sorted := by
    rw [List.pairwise_append]
    exact ⟨h.sorted, h'.sorted, fun p first q second =>
      Position.le_trans (h.passed p first) (h'.ahead q second)⟩

theorem report (h : Reports r ps r') (wrong : Lexer.IsLexical p)
    (place : p.position = r'.position) :
    Reports r (ps ++ [p]) (r'.report p) where
  problems := by
    rw [← List.append_assoc, ← h.problems]
    rfl
  onward := h.onward
  lexical := List.forall_mem_append.mpr ⟨h.lexical, List.forall_mem_singleton.mpr wrong⟩
  ahead := List.forall_mem_append.mpr ⟨h.ahead, List.forall_mem_singleton.mpr (place ▸ h.onward)⟩
  passed := by
    have here : p.position ≤ (r'.report p).position := place ▸ Position.le_refl _
    exact List.forall_mem_append.mpr ⟨h.passed, List.forall_mem_singleton.mpr here⟩
  sorted := pairwise_snoc h.sorted fun q member => place ▸ h.passed q member

end Reports

theorem Moves.reports (complete : r.Complete) (moves : Moves r r') : ∃ ps, Reports r ps r' := by
  induction moves with
  | refl => exact ⟨[], .none r⟩
  | @reach r' n before ih =>
    obtain ⟨ps, reports⟩ := ih
    have steady : r.ending ≠ .breaking := by
      rw [complete.quiet]
      decide
    have still : r'.Complete :=
      ⟨before.ending.trans complete.quiet, (before.broken steady).trans complete.whole⟩
    have looked := still.reach n
    exact ⟨ps, reports.on (looked.problems.trans (List.append_nil _)) looked.onward⟩
  | @advance r' before ih =>
    obtain ⟨ps, reports⟩ := ih
    have found : r'.advance.problems = r'.problems := by
      unfold Reader.advance
      split <;> rfl
    exact ⟨ps, reports.on found (position_le_advance r')⟩
  | @report r' p before wrong place ih =>
    obtain ⟨ps, reports⟩ := ih
    exact ⟨ps ++ [p], reports.report wrong place⟩

end Reader

namespace Lexer

/-- A lexer with the standard settings somewhere in a text that is complete. -/
structure Within (l : Lexer) : Prop where
  standard : l.settings = {}
  complete : l.reader.Complete
  place : ∃ before, l.reader.last = Position.start.afterAll before

variable {l : Lexer}

/-- The next token lies between the places where the lexer starts and where it stops. -/
theorem Within.next (within : l.Within) : ∃ t l' ps, l.next = (.ok t, l') ∧ l'.Within ∧
    l.reader.Reports ps l'.reader ∧
    ∀ u, t = some u → l.reader.position ≤ u.position ∧ u.position ≤ l'.reader.position := by
  obtain ⟨standard, complete, before, place⟩ := within
  have typed : l.settings.WellTyped := standard ▸ Settings.wellTyped_standard
  obtain ⟨t, r', read, scans⟩ := next_scans typed complete place
  obtain ⟨r, scanned, same⟩ := next_eq_token read
  obtain rfl : r' = r := congrArg Lexer.reader same
  obtain ⟨_, _, scanned', moves⟩ := scan_succeeds l.reader
  rw [standard] at scanned
  cases scanned.symm.trans scanned'
  obtain ⟨ps, reports⟩ := moves.reports complete
  refine ⟨t, _, ps, read, ?_, reports, ?_⟩
  · cases scans with
    | @ended g _ _ skipped passes ended =>
      exact ⟨standard, passes.complete, before ++ g, passes.place place⟩
    | @token g w _ _ _ _ _ skipped passes found covers nonempty _ =>
      have whole := passes.trans covers.passes
      exact ⟨standard, whole.complete, before ++ (g ++ w), whole.place place⟩
  · rintro u rfl
    cases scans with
    | token skipped passes found covers nonempty _ =>
      rw [covers.position]
      exact ⟨passes.onward, covers.passes.onward⟩

end Lexer

end Formula
