import Formula.Proofs.Entries
import Formula.Proofs.Expr.Reordering
import Formula.Proofs.Parser.Depth

/-! The levels of the grammar. Each rule for operators reads operands by the rule of the next level,
and what a rule returns is never open to reordering on a level above its own. -/
namespace Formula.Parser

namespace Rule

def operand? : Rule → Option Rule
  | expression => some relation
  | relation => some sum
  | sum => some product
  | product => some power
  | power => some atom
  | atom | call => none

/-- The level of a rule: the priority of its operators, if it has any. -/
def rank : Rule → Nat
  | expression => 1
  | relation => 2
  | sum => 3
  | product => 4
  | power => 5
  | atom | call => 6

theorem rank_operand {r b : Rule} (h : r.operand? = some b) : b.rank = r.rank + 1 := by
  cases r <;> cases h <;> rfl

end Rule

theorem priority_of_mem_operators (r : Rule) : ∀ e ∈ operators r, e.2.priority = r.rank := by
  cases r <;> decide

theorem priority_of_operator? {r : Rule} {t : Token} {op : Operator}
    (h : operator? r t = some op) : op.priority = r.rank := by
  unfold operator? at h
  split at h
  · exact priority_of_mem_operators r (t.trigger, op) (mem_of_lookup h)
  · contradiction

/-- What a rule with operators does after its first operand, given the token that follows. -/
def afterOperand (r : Rule) (rest : Parser Expr) (left : Expr) (t : Token) : Parser Expr :=
  match operator? r t with
  | some op => do
    discard consume
    return .reorder op left (← rest)
  | none => do
    if r = .sum && isNegativeNumber t then return .reorder .add left (← rest) else return left

def level (r : Rule) (operand rest : Parser Expr) : Parser Expr := do
  let left ← operand
  let t ← current
  afterOperand r rest left t

theorem chain_eq_level {r : Rule} (h : r ≠ .sum) (operand rest : Parser Expr) :
    chain r operand rest = level r operand rest := by
  refine bind_congr fun left => bind_congr fun t => ?_
  unfold afterOperand
  cases operator? r t <;> simp [h]

theorem sumChain_eq_level (operand rest : Parser Expr) :
    sumChain operand rest = level .sum operand rest := by
  refine bind_congr fun left => bind_congr fun t => ?_
  unfold afterOperand
  cases operator? .sum t <;> simp

theorem run_level {r b : Rule} (h : r.operand? = some b) (d : Nat) :
    run (d + 1) r = level r (run d b) (run d r) := by
  cases r <;> cases h
  case sum => exact sumChain_eq_level _ _
  all_goals exact chain_eq_level (by decide) _ _

theorem level_approximates {operand operand' rest rest' : Parser Expr}
    (first : Approximates operand operand') (others : Approximates rest rest') (r : Rule) :
    Approximates (level r operand rest) (level r operand' rest') := by
  refine .bind first fun left => .bind_left fun t => ?_
  unfold afterOperand
  split
  · exact .bind_left fun _ => .bind_right others _
  · split
    · exact .bind_right others _
    · exact .refl _

/-- A rule that may go deeper reads whatever it reads within a limit. -/
theorem run_approximates {d n : Nat} (enough : d ≤ n) (r : Rule) :
    Approximates (run d r) (run n r) := by
  induction d generalizing n r with
  | zero => exact .tooDeep _
  | succ d ih =>
    obtain ⟨n, rfl⟩ : ∃ m, n = m + 1 := ⟨n - 1, by omega⟩
    have below (r : Rule) : Approximates (run d r) (run n r) := ih (by omega) r
    -- A level of operators, an atom and a call only ask rules of the smaller depth.
    cases r with
    | atom => exact anyAtom_approximates (below _) (below _) (below _)
    | call => exact anyCall_approximates (below _)
    | expression | relation | sum | product | power =>
      rw [run_level rfl, run_level rfl]
      exact level_approximates (below _) (below _) _

/-- An expression that only chains of a level or of a deeper one leave open. -/
def ClosedAbove (r : Rule) (e : Expr) : Prop := ∀ p, p < r.rank → e.isOpen p = false

theorem closedAbove_reorder {r : Rule} {op : Operator} (h : op.priority = r.rank) (x y : Expr) :
    ClosedAbove r (.reorder op x y) := by
  intro p hp
  rw [Expr.isOpen_reorder, h]
  exact decide_eq_false (by omega)

theorem closedAbove_of_operand {r b : Rule} (h : r.operand? = some b) {e : Expr}
    (closed : ClosedAbove b e) : ClosedAbove r e := by
  have := Rule.rank_operand h
  exact fun p hp => closed p (by omega)

theorem level_ensures {r b : Rule} (h : r.operand? = some b) {operand rest : Parser Expr}
    (closed : Ensures operand (ClosedAbove b)) :
    Ensures (level r operand rest) (ClosedAbove r) := by
  refine .bind closed fun left hl => .bind (.trivial _) fun t _ => ?_
  unfold afterOperand
  split
  · rename_i op hop
    exact .bind (.trivial _) fun _ _ => .bind (.trivial _) fun y _ =>
      .pure (closedAbove_reorder (priority_of_operator? hop) left y)
  · split
    · rename_i hs
      have hr : r = .sum := by simp only [Bool.and_eq_true, decide_eq_true_eq] at hs; exact hs.1
      subst hr
      exact .bind (.trivial _) fun y _ => .pure (closedAbove_reorder rfl left y)
    · exact .pure (closedAbove_of_operand h hl)

def Closed (e : Expr) : Prop := ∀ p, e.isOpen p = false

theorem closed_inBrackets (e : Expr) : Closed e.inBrackets := by
  intro p
  cases e <;> rfl

theorem closed_reject : Ensures reject Closed :=
  .bind (.trivial _) fun _ _ => .bind (.trivial _) fun _ _ => .pure fun _ => rfl

theorem closed_quantified (v : Value) : Ensures (quantified v) Closed := by
  refine .bind (.trivial _) fun t _ => ?_
  split
  · refine .bind (.trivial _) fun q _ => ?_
    split
    · exact .bind (.trivial _) fun _ _ => .bind (.trivial _) fun _ _ => .pure fun _ => rfl
    · exact .bind (.trivial _) fun _ _ => .pure fun _ => rfl
  · exact .pure fun _ => rfl

theorem closed_number : Ensures number Closed := by
  refine .bind (.trivial _) fun t _ => ?_
  split
  · refine .bind (.trivial _) fun u _ => .bind (.trivial _) fun g _ => ?_
    refine .bind (.trivial _) fun h _ => ?_
    split
    · exact closed_quantified _
    · exact .bind (.trivial _) fun _ _ => .pure fun _ => rfl
    · exact .throw _
  · exact closed_reject

theorem closed_resolve (t : Token) : Ensures (resolve t) Closed := by
  refine .bind (.trivial _) fun s _ => .bind (.trivial _) fun g _ => ?_
  split
  · exact .bind (.trivial _) fun _ _ => .pure fun _ => rfl
  · exact .bind (.trivial _) fun _ _ => .bind (.trivial _) fun _ _ => .pure fun _ => rfl
  · exact .throw _

theorem closed_plainAtom {call : Parser Expr} (closed : Ensures call Closed) (inner : Parser Expr) :
    Ensures (plainAtom inner call) Closed := by
  refine .bind (.trivial _) fun t _ => ?_
  split
  · exact .bind (.trivial _) fun _ _ => .bind (.trivial _) fun e _ => .bind (.trivial _) fun _ _ =>
      .pure (closed_inBrackets e)
  · split
    · exact .bind (.trivial _) fun _ _ => .bind (.trivial _) fun _ _ =>
        .bind (.trivial _) fun _ _ => .pure fun _ => rfl
    · split
      · refine .bind (.trivial _) fun u _ => ?_
        split
        · exact closed
        · exact .bind (.trivial _) fun v _ => closed_resolve v
      · exact .bind (.trivial _) fun _ _ => closed_number

theorem closed_anyAtom {call : Parser Expr} (closed : Ensures call Closed)
    (self inner : Parser Expr) : Ensures (anyAtom self inner call) Closed := by
  refine .bind (.trivial _) fun t _ => ?_
  split
  · exact .bind (.trivial _) fun _ _ => .bind (.trivial _) fun _ _ => .bind (.trivial _) fun _ _ =>
      .pure fun _ => rfl
  · exact .bind (.trivial _) fun _ _ => closed_plainAtom closed inner

theorem closed_anyCall (inner : Parser Expr) : Ensures (anyCall inner) Closed := by
  refine .bind (.trivial _) fun t _ => .bind (.trivial _) fun f _ =>
    .bind (.trivial _) fun _ _ => ?_
  refine .bind (.trivial _) fun args _ => .bind (.trivial _) fun _ _ => ?_
  unfold checkedCall
  split
  · exact .pure fun _ => rfl
  · split
    · exact .pure fun _ => rfl
    · exact .bind (.trivial _) fun _ _ => .pure fun _ => rfl

theorem closed_call : ∀ d, Ensures (run d .call) Closed
  | 0 => .throw _
  | d + 1 => closed_anyCall (run d .expression)

theorem run_closedAbove (d : Nat) (r : Rule) : Ensures (run d r) (ClosedAbove r) := by
  have closed (e : Expr) (h : Closed e) : ClosedAbove r e := fun p _ => h p
  induction d generalizing r with
  | zero => exact .throw _
  | succ d ih =>
    cases r with
    | atom => exact (closed_anyAtom (closed_call d) _ _).mono closed
    | call => exact (closed_call (d + 1)).mono closed
    | expression | relation | sum | product | power =>
      rw [run_level rfl]
      exact level_ensures rfl (ih _ fun e h p _ => h p)

end Formula.Parser
