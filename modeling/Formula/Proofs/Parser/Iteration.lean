import Formula.Proofs.Parser.Levels

/-! Chains of operators read by iteration. The rules of the grammar read a chain from its right end
and reorder the operands afterwards. A reader that takes one operand after another and groups them
to the left gives the same expressions, and leaves the same tokens, problems and variables
behind. -/
namespace Formula.Parser

/-- Goes on with a chain that has been read so far, for less than `n` operators: as long as an
operator of the rule follows, it is consumed and combined with one more operand. In a sum, a signed
number is one more operand by itself. -/
def loop (r : Rule) (operand : Parser Expr) : (n : Nat) → (left : Expr) → Parser Expr
  | 0, _ => throw .tooDeep
  | n + 1, left => do
    let t ← current
    match operator? r t with
    | some op => do
      discard consume
      let right ← operand
      loop r operand n (.binary op left right false)
    | none => do
      if r = .sum && isNegativeNumber t then
        let right ← operand
        loop r operand n (.binary .add left right false)
      else return left

def gather (r : Rule) (operand : Parser Expr) (n : Nat) : Parser Expr := do
  let left ← operand
  loop r operand n left

/-- Reads an expression by a rule, with iteration on the levels of the operators. The bound holds
for the nesting of rules and for the length of each chain. -/
def iterate : (n : Nat) → Rule → Parser Expr
  | 0, _ => throw .tooDeep
  | n + 1, .expression => gather .expression (iterate n .relation) (n + 1)
  | n + 1, .relation => gather .relation (iterate n .sum) (n + 1)
  | n + 1, .sum => gather .sum (iterate n .product) (n + 1)
  | n + 1, .product => gather .product (iterate n .power) (n + 1)
  | n + 1, .power => gather .power (iterate n .atom) (n + 1)
  | n + 1, .atom => anyAtom (iterate n .atom) (iterate n .expression) (iterate n .call)
  | n + 1, .call => anyCall (iterate n .expression)

theorem iterate_level {r b : Rule} (h : r.operand? = some b) (n : Nat) :
    iterate (n + 1) r = gather r (iterate n b) (n + 1) := by
  cases r <;> cases h <;> rfl

theorem reorder_afterOperand {r : Rule} {op : Operator} (level : op.priority = r.rank)
    {x y : Expr} (closed : y.isOpen op.priority = false) (rest : Parser Expr) (t : Token) :
    (do return Expr.reorder op x (← afterOperand r rest y t))
      = afterOperand r rest (.binary op x y false) t := by
  -- Both orders put the same operands together, since operators of one priority associate.
  have join {next : Operator} (same : next.priority = op.priority) :
      (do return Expr.reorder op x (Expr.reorder next y (← rest)))
        = (do return Expr.reorder next (.binary op x y false) (← rest) : Parser Expr) :=
    bind_congr fun z => by rw [Expr.reorder_reorder same x y closed z]
  unfold afterOperand
  split
  · rename_i next h
    have same : next.priority = op.priority := (priority_of_operator? h).trans level.symm
    simpa only [bind_assoc, pure_bind] using bind_congr fun _ => join same
  · split
    · rename_i h
      have hr : r = .sum := by simp only [Bool.and_eq_true, decide_eq_true_eq] at h; exact h.1
      subst hr
      simpa only [bind_assoc, pure_bind] using join
        (show Operator.add.priority = op.priority from level.symm)
    · simp only [pure_bind, Expr.reorder_of_not_isOpen closed]

theorem afterOperand_approximates_loop {r : Rule} {rest operand : Parser Expr}
    {k : Nat} {left : Expr} (more : ∀ op : Operator, op.priority = r.rank →
      Approximates (do return Expr.reorder op left (← rest))
        (do let right ← operand; loop r operand k (.binary op left right false))) :
    Approximates (do afterOperand r rest left (← current)) (loop r operand (k + 1) left) := by
  refine .bind_left fun t => ?_
  unfold afterOperand
  cases h : operator? r t with
  | some op => exact .bind_left fun _ => more op (priority_of_operator? h)
  | none =>
    dsimp only
    split
    · rename_i h
      have hr : r = .sum := by simp only [Bool.and_eq_true, decide_eq_true_eq] at h; exact h.1
      exact more .add (hr ▸ rfl)
    · exact .refl _

/-- The rest of a chain, read from its right end, is the rest of it read by iteration. -/
theorem run_approximates_loop {r b : Rule} (hb : r.operand? = some b) {operand : Parser Expr}
    (d k : Nat) (operands : ∀ e < d, Approximates (run e b) operand) (enough : d ≤ k)
    (left : Expr) :
    Approximates (do afterOperand r (run d r) left (← current)) (loop r operand (k + 1) left) := by
  -- By induction on the depth, which each further operand uses up once.
  induction d generalizing k left with
  | zero =>
    refine afterOperand_approximates_loop fun op _ => ?_
    exact .bind_of (P := fun _ => False) (.throw _) (.tooDeep operand) fun _ h => h.elim
  | succ d ih =>
    obtain ⟨k, rfl⟩ : ∃ n, k = n + 1 := ⟨k - 1, by omega⟩
    refine afterOperand_approximates_loop fun op priority => ?_
    have closed : Ensures (run d b) fun y => y.isOpen op.priority = false :=
      (run_closedAbove d b).mono fun y h => h _ (by rw [priority, Rule.rank_operand hb]; omega)
    -- An operand that is closed is put behind those read so far, as the loop does at once.
    have next (y : Expr) (hy : y.isOpen op.priority = false) :
        Approximates (do return Expr.reorder op left (← afterOperand r (run d r) y (← current)))
          (loop r operand (k + 1) (.binary op left y false)) := by
      have same (t : Token) := reorder_afterOperand (x := left) priority hy (run d r) t
      simpa only [same] using
        ih k (fun e h => operands e (by omega)) (by omega) (.binary op left y false)
    rw [run_level hb]
    simpa only [level, bind_assoc] using Approximates.bind_of closed (operands d (by omega)) next

theorem run_approximates_iterate (d n : Nat) (enough : d ≤ n) (r : Rule) :
    Approximates (run d r) (iterate n r) := by
  -- Strong induction: the operands of one chain are read within all smaller depths.
  induction d using Nat.strongRecOn generalizing n r with
  | ind d ih =>
    cases d with
    | zero => exact .tooDeep _
    | succ d =>
      obtain ⟨n, rfl⟩ : ∃ m, n = m + 1 := ⟨n - 1, by omega⟩
      have operands (r : Rule) : ∀ e < d + 1, Approximates (run e r) (iterate n r) :=
        fun e h => ih e h n (by omega) r
      have below (r : Rule) := operands r d (by omega)
      cases r with
      | atom => exact anyAtom_approximates (below _) (below _) (below _)
      | call => exact anyCall_approximates (below _)
      | expression | relation | sum | product | power =>
        rw [run_level rfl, iterate_level rfl]
        exact .bind (below _) fun left => run_approximates_loop rfl d n
          (fun e h => operands _ e (by omega)) (by omega) left

/-- Reading from the right with reordering is reading by iteration: within the limit of the depth
both return the same tree, or the same fault, and leave the same tokens, problems and variables
behind. -/
theorem iterate_eq_run {d n : Nat} (enough : d ≤ n) (r : Rule) (g : Grammar) (s : ParserState)
    (within : ¬ IsTooDeep (run d r g s)) : iterate n r g s = run d r g s :=
  (run_approximates_iterate d n enough r g s).resolve_left within

theorem iterate_eq_run_differences :
    let g : Grammar := { bits := 53, scope := 0, mode := .float, functions := .builtin }
    let s : ParserState :=
      { tokens := .ofSource (.ofString "8 - 3 -2 * x"),
        store := { scopes := [⟨none, .float, false, []⟩] } }
    9 ≤ 12 ∧ ¬ IsTooDeep (run 9 .expression g s)
      ∧ iterate 12 .expression g s = run 9 .expression g s := by
  have within : ¬ IsTooDeep (run 9 .expression
      { bits := 53, scope := 0, mode := .float, functions := .builtin }
      { tokens := .ofSource (.ofString "8 - 3 -2 * x")
        store := { scopes := [⟨none, .float, false, []⟩] } }) := by decide +kernel
  exact ⟨by decide, within, iterate_eq_run (by decide) _ _ _ within⟩

end Formula.Parser
