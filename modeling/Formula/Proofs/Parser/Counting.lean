import Formula.Proofs.Parser.Levels

/-! Parsers that count the calls of rules. Each rule is written down once more, with its calls
marked; without the count it is the rule itself. -/
namespace Formula.Parser

/-- A parser that counts calls of rules, whether it comes to a result or to a fault. -/
def Counted (α : Type) := Grammar → ParserState → EStateM.Result Fault ParserState α × Nat

namespace Counted

variable {α β : Type}

instance : Monad Counted where
  pure a := fun _ s => (.ok a s, 0)
  bind p f := fun g s =>
    match p g s with
    | (.ok a s', n) => ((f a g s').1, n + (f a g s').2)
    | (.error e s', n) => (.error e s', n)

/-- A parser that calls no rule. -/
def free (p : Parser α) : Counted α := fun g s => (p g s, 0)

def call (p : Counted α) : Counted α := fun g s => ((p g s).1, (p g s).2 + 1)

def recover (p : Counted α) (handler : Fault → Counted α) : Counted α := fun g s =>
  match p g s with
  | (.ok a s', n) => (.ok a s', n)
  | (.error f s', n) => ((handler f g s').1, n + (handler f g s').2)

def level (r : Rule) (operand rest : Counted Expr) : Counted Expr := do
  let left ← operand
  let t ← free current
  match operator? r t with
  | some op =>
    free (discard consume)
    return .reorder op left (← rest)
  | none =>
    if r = .sum && isNegativeNumber t then return .reorder .add left (← rest) else return left

def bracketed (inner : Counted Expr) : Counted Expr := do
  free (discard consume)
  let e ← inner
  free (expect ")")
  return e.inBrackets

def plainAtom (inner call : Counted Expr) : Counted Expr := do
  let t ← free current
  if t.isSymbol "(" then bracketed inner
  else if t.isSymbol "|" then
    free (discard consume)
    let e ← inner
    free (expect "|")
    return .call .absolute "abs" [e]
  else if t.isKind .identifier then
    if (← free next).isSymbol "(" then call
    else free (do resolve (← consume))
  else free literal

def anyAtom (self inner call : Counted Expr) : Counted Expr := do
  if (← free current).isSymbol "-" then
    free (discard consume)
    let z ← free zero
    return .binary .subtract z (← self) true
  else
    free (skipPlus (·.isSymbol "("))
    plainAtom inner call

def argumentsWithin (inner : Counted Expr) : (fuel : Nat) → (isFirst : Bool) → Counted (List Expr)
  | 0, _ => return []
  | fuel + 1, isFirst => do
    let t ← free current
    if t.isSymbol ")" || t.isEnd then return []
    free (separator isFirst)
    let e ← inner
    return e :: (← argumentsWithin inner fuel false)

def arguments (inner : Counted Expr) : Counted (List Expr) := do
  let ts := (← free get).tokens
  argumentsWithin inner (ts.buffer.length + ts.source.reader.rest.length + 1) true

def anyCall (inner : Counted Expr) : Counted Expr := do
  let t ← free consume
  let f ← free (functionNamed t)
  free (discard consume)
  let args ← arguments inner
  free (expect ")")
  free (checkedCall t f args)

def rule (below : Rule → Counted Expr) : Rule → Counted Expr
  | .expression => level .expression (below .relation) (below .expression)
  | .relation => level .relation (below .sum) (below .relation)
  | .sum => level .sum (below .product) (below .sum)
  | .product => level .product (below .power) (below .product)
  | .power => level .power (below .atom) (below .power)
  | .atom => anyAtom (below .atom) (below .expression) (below .call)
  | .call => anyCall (below .expression)

def run : (depth : Nat) → Rule → Counted Expr
  | 0, _ => call (free (throw .tooDeep))
  | d + 1, r => call (rule (run d) r)

def simplified : Counted Expr := do
  let e ← run depthLimit .expression
  free (do ofExcept (e.simplify ((← get).store.knowledge (← read).bits)).result)

def whole : Counted Expr := do
  let e ← recover simplified fun
    | .tooDeep => free rejectDepth
    | f => free (throw f)
  free rejectRest
  free rejectProblems
  return e

/-- The parser without its count. -/
def erase (p : Counted α) : Parser α := fun g s => (p g s).1

variable {p : Counted α} {f : α → Counted β} {operand rest self inner calls : Counted Expr}

theorem bind_of_ok {g : Grammar} {s s' : ParserState} {a : α} {n : Nat}
    (run : p g s = (.ok a s', n)) : (p >>= f) g s = ((f a g s').1, n + (f a g s').2) := by
  simp only [bind, run]

theorem bind_of_error {g : Grammar} {s s' : ParserState} {e : Fault} {n : Nat}
    (run : p g s = (.error e s', n)) : (p >>= f) g s = (.error e s', n) := by
  simp only [bind, run]

@[simp] theorem erase_pure (a : α) : erase (pure a) = pure a := rfl

@[simp] theorem erase_free (p : Parser α) : erase (free p) = p := rfl

@[simp] theorem erase_call : erase (call p) = erase p := rfl

@[simp] theorem erase_bind : erase (p >>= f) = erase p >>= fun a => erase (f a) := by
  funext g s
  rw [bind_run]
  simp only [erase, bind]
  generalize p g s = out
  obtain ⟨out, n⟩ := out
  cases out <;> rfl

theorem free_bind {q : Parser α} {k : α → Parser β} :
    free (q >>= k) = free q >>= fun a => free (k a) := by
  funext g s
  simp only [free, bind, ReaderT.bind, EStateM.bind]
  cases q g s <;> rfl

theorem erase_recover {handler : Fault → Counted α} :
    erase (recover p handler) = tryCatch (erase p) fun f => erase (handler f) := by
  funext g s
  have erased : erase p g s = (p g s).1 := rfl
  unfold recover
  simp only [erase]
  generalize p g s = out at erased ⊢
  obtain ⟨out, n⟩ := out
  cases out with
  | ok a s' => exact (tryCatch_of_ok erased fun f => erase (handler f)).symm
  | error f s' => exact (tryCatch_of_error erased fun f => erase (handler f)).symm

theorem calls_bind (none : ∀ a g s, (f a g s).2 = 0) (g : Grammar) (s : ParserState) :
    ((p >>= f) g s).2 = (p g s).2 := by
  generalize run : p g s = out
  obtain ⟨out, n⟩ := out
  cases out with
  | ok a s' => rw [bind_of_ok run, none, Nat.add_zero]
  | error e s' => rw [bind_of_error run]

theorem calls_recover {handler : Fault → Counted α}
    (none : ∀ e g s, (handler e g s).2 = 0) (g : Grammar)
    (s : ParserState) : (recover p handler g s).2 = (p g s).2 := by
  unfold recover
  generalize p g s = out
  obtain ⟨out, n⟩ := out
  cases out with
  | ok a s' => rfl
  | error e s' => simp only [none, Nat.add_zero]

theorem erase_level (r : Rule) :
    erase (level r operand rest) = Parser.level r (erase operand) (erase rest) := by
  rw [level, erase_bind]
  refine bind_congr fun left => ?_
  rw [erase_bind]
  refine bind_congr fun t => ?_
  unfold afterOperand
  cases operator? r t with
  | some op => simp
  | none =>
    dsimp only
    split <;> simp

theorem erase_bracketed : erase (bracketed inner) = Parser.bracketed (erase inner) := by
  simp [bracketed, Parser.bracketed]

theorem erase_plainAtom :
    erase (plainAtom inner calls) = Parser.plainAtom (erase inner) (erase calls) := by
  rw [plainAtom, erase_bind]
  refine bind_congr fun t => ?_
  split
  · exact erase_bracketed
  · split
    · simp
    · split
      · rw [erase_bind]
        refine bind_congr fun u => ?_
        split <;> rfl
      · rfl

theorem erase_anyAtom :
    erase (anyAtom self inner calls) = Parser.anyAtom (erase self) (erase inner) (erase calls) := by
  rw [anyAtom, erase_bind]
  refine bind_congr fun t => ?_
  split
  · simp
  · rw [erase_bind, erase_plainAtom, erase_free]

theorem erase_argumentsWithin (fuel : Nat) (isFirst : Bool) :
    erase (argumentsWithin inner fuel isFirst) =
      Parser.argumentsWithin (erase inner) fuel isFirst := by
  induction fuel generalizing isFirst with
  | zero => rfl
  | succ fuel ih =>
    rw [argumentsWithin, erase_bind]
    refine bind_congr fun t => ?_
    split
    · rfl
    · simp [ih]

theorem erase_arguments : erase (arguments inner) = Parser.arguments (erase inner) := by
  simp [arguments, Parser.arguments, erase_argumentsWithin]

theorem erase_anyCall : erase (anyCall inner) = Parser.anyCall (erase inner) := by
  simp [anyCall, Parser.anyCall, erase_arguments]

theorem erase_run (d : Nat) (r : Rule) : erase (run d r) = Parser.run d r := by
  induction d generalizing r with
  | zero => rfl
  | succ d ih =>
    rw [run, erase_call]
    cases r with
    | atom => rw [rule, erase_anyAtom, ih, ih, ih, Parser.run]
    | call => rw [rule, erase_anyCall, ih, Parser.run]
    | expression | relation | sum | product | power => rw [rule, erase_level, ih, ih, run_level rfl]

theorem erase_simplified : erase simplified = Parser.simplified := by
  simp [simplified, Parser.simplified, erase_run, Parser.rule]

theorem erase_whole : erase whole = Parser.whole := by
  rw [whole, erase_bind, erase_recover, erase_simplified]
  have handled : (fun f : Fault => erase (match f with
      | .tooDeep => free rejectDepth
      | f => free (throw f))) = fun
      | .tooDeep => rejectDepth
      | f => throw f := by
    funext f
    cases f <;> rfl
  simp only [handled, erase_bind, erase_free, erase_pure]
  rfl

theorem calls_whole (g : Grammar) (s : ParserState) :
    (whole g s).2 = (run depthLimit .expression g s).2 := by
  have inside : (simplified g s).2 = (run depthLimit .expression g s).2 :=
    calls_bind (fun _ _ _ => rfl) g s
  rw [← inside, whole, calls_bind, calls_recover]
  · rintro (_ | _) g s <;> rfl
  · intro e g s
    rw [calls_bind]
    · rfl
    · exact fun _ g s => calls_bind (fun _ _ _ => rfl) g s

end Counted

end Formula.Parser
