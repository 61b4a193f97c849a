import Formula.Proofs.Lexer.Alike
import Formula.TokenStream

/-! Problems that were found earlier. They stand in front of those that are found later, and have no
influence on what is read. -/
namespace Formula

namespace Reader

def withEarlier (ps : List Problem) (r : Reader) : Reader :=
  { r with
    problems := ps ++ r.problems
    broken := r.broken.map fun c => { c with problems := ps ++ c.problems } }

variable (ps : List Problem) (r : Reader)

theorem report_withEarlier (p : Problem) :
    (r.withEarlier ps).report p = (r.report p).withEarlier ps := by
  simp [report, withEarlier]

theorem advance_withEarlier : (r.withEarlier ps).advance = r.advance.withEarlier ps := by
  unfold advance
  cases h : r.rest <;> simp [h, withEarlier]

theorem reach_withEarlier (n : Nat) : (r.withEarlier ps).reach n = (r.reach n).withEarlier ps := by
  obtain ⟨c, ending, ahead, ended, broken⟩ := r
  by_cases h : n < c.rest.length
  · simp [reach, withEarlier, h]
  · cases ending with
    | quiet => simp [reach, withEarlier, h]
    | failing reason => cases ended <;> simp [reach, withEarlier, report, h]
    | breaking => cases broken <;> simp [reach, withEarlier, h]

theorem alike_withEarlier : Alike fun r r' => r' = r.withEarlier ps := by
  constructor
  · rintro r _ rfl
    rfl
  · rintro r _ rfl
    rfl
  · rintro r _ rfl n
    exact reach_withEarlier ps r n
  · rintro r _ rfl
    exact advance_withEarlier ps r
  · rintro r _ rfl p
    exact report_withEarlier ps r p

end Reader

namespace Lexer

variable (ps : List Problem)

def withEarlier (l : Lexer) : Lexer := { l with reader := l.reader.withEarlier ps }

/-- What was found earlier has no influence on the tokens that are read. -/
theorem next_withEarlier (l : Lexer) :
    (l.withEarlier ps).next = (l.next.1, l.next.2.withEarlier ps) := by
  have same := scan_alike (Reader.alike_withEarlier ps) l.settings (r := l.reader) rfl
  unfold next withEarlier
  dsimp only
  generalize scan l.settings l.reader = out at same ⊢
  generalize scan l.settings (l.reader.withEarlier ps) = out' at same ⊢
  obtain @⟨t, r, _, rfl⟩ := same
  cases h : r.broken <;> simp [Reader.settle, Reader.withEarlier, h]

end Lexer

end Formula
