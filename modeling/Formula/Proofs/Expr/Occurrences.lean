import Formula.Proofs.Expr.Combining
import Formula.Proofs.Parser.Runs

/-! What simplification leaves alone. The variables that may change and the calls of functions that
are not natural stay, each of them once and in their order. No such function is called meanwhile:
the outcome is the same with any other functions in their places. -/
namespace Formula

namespace Expr

/-- What is read or done anew at each evaluation. -/
inductive Occurrence where
  | reference (v : VariableId) (name : String)
  | call (f : Function) (name : String) (count : Nat)

/-- What stands at a node itself: a variable that is not constant, or a call that has to be made. -/
def occurrence? (k : Knowledge) : Expr → Option Occurrence
  | .reference v name => if (k.fixed v).isSome then none else some (.reference v name)
  | .call f name args => if f.isNatural then none else some (.call f name args.length)
  | _ => none

def nodes (e : Expr) : List Expr := e.visits.map (·.node)

def occurrences (k : Knowledge) (e : Expr) : List Occurrence := e.nodes.filterMap (occurrence? k)

mutual

def withFunctions (g : Function → Function) : Expr → Expr
  | .constant v => .constant v
  | .reference v name => .reference v name
  | .binary op l r s => .binary op (l.withFunctions g) (r.withFunctions g) s
  | .call f name args => .call (g f) name (allWithFunctions g args)

def allWithFunctions (g : Function → Function) : List Expr → List Expr
  | [] => []
  | e :: rest => e.withFunctions g :: allWithFunctions g rest

end

variable {k : Knowledge} {op : Operator} {l r e : Expr} {es : List Expr} {s : Bool}
  {f : Function} {name : String}

section Walk

mutual

theorem nodes_descend (path path' : List Expr) : ∀ e : Expr,
    (e.descend path).map Visit.node = (e.descend path').map Visit.node
  | .constant _ | .reference _ _ => rfl
  | .binary op l r s => by
    have left := nodes_descend (path ++ [.binary op l r s]) (path' ++ [.binary op l r s]) l
    have right := nodes_descend (path ++ [.binary op l r s]) (path' ++ [.binary op l r s]) r
    simp only [descend, List.map_cons, List.map_append, left, right]
  | .call f name args => by
    have arguments := nodes_descendAll (path ++ [.call f name args])
      (path' ++ [.call f name args]) 0 0 args
    simpa only [descend] using arguments

theorem nodes_descendAll (path path' : List Expr) (i j : Nat) : ∀ es : List Expr,
    (descendAll path i es).map Visit.node = (descendAll path' j es).map Visit.node
  | [] => rfl
  | e :: rest => by
    have first := nodes_descend path path' e
    have others := nodes_descendAll path path' (i + 1) (j + 1) rest
    simp only [descendAll, List.map_cons, List.map_append, first, others]

end

theorem nodes_eq (path : List Expr) (e : Expr) : e.nodes = e :: (e.descend path).map (·.node) :=
  congrArg (e :: ·) (nodes_descend [] path e)

theorem nodes_binary : (Expr.binary op l r s).nodes = .binary op l r s :: (l.nodes ++ r.nodes) := by
  let path : List Expr := [.binary op l r s]
  rw [nodes_eq path l, nodes_eq path r, nodes_eq []]
  simp only [descend, List.map_cons, List.map_append, List.nil_append, List.cons_append, path]

theorem nodes_call : (Expr.call f name es).nodes = .call f name es :: es.flatMap nodes := by
  have arguments (path : List Expr) (i : Nat) :
      (descendAll path i es).map (·.node) = es.flatMap nodes := by
    induction es generalizing i with
    | nil => rfl
    | cons e rest ih =>
      rw [List.flatMap_cons, ← ih (i + 1), nodes_eq path e]
      simp only [descendAll, List.map_cons, List.map_append, List.cons_append]
  rw [nodes_eq [], descend, arguments]

@[simp] theorem occurrences_constant (v : Value) : (Expr.constant v).occurrences k = [] := rfl

theorem occurrences_reference (v : VariableId) (name : String) :
    (Expr.reference v name).occurrences k =
      if (k.fixed v).isSome then [] else [.reference v name] := by
  change [Expr.reference v name].filterMap (occurrence? k) = _
  cases known : k.fixed v <;> simp [occurrence?, known]

@[simp] theorem occurrences_binary :
    (Expr.binary op l r s).occurrences k = l.occurrences k ++ r.occurrences k := by
  rw [occurrences, nodes_binary, List.filterMap_cons, List.filterMap_append]
  rfl

theorem occurrences_call : (Expr.call f name es).occurrences k =
    (if f.isNatural then [] else [.call f name es.length]) ++ es.flatMap (occurrences k) := by
  rw [occurrences, nodes_call, List.filterMap_cons, List.filterMap_flatMap]
  cases natural : f.isNatural <;> simp only [occurrence?, natural] <;> rfl

theorem occurrences_constants (vs : List Value) :
    (vs.map Expr.constant).flatMap (occurrences k) = [] := by
  rw [List.flatMap_eq_nil_iff]
  intro e he
  obtain ⟨v, _, rfl⟩ := List.mem_map.mp he
  rfl

end Walk

section Order

theorem occurrences_regroup {x : Option Expr} (h : regroup k op l r = .ok x) :
    (x.getD (.binary op l r false)).occurrences k = l.occurrences k ++ r.occurrences k := by
  have cases := regrouping k op l r
  rw [h] at cases
  generalize same : (Except.ok x : Except Fault (Option Expr)) = replacement at cases
  cases cases with
  | merged a b z =>
    cases applied : op.apply k.bits a b with
    | error f =>
      rw [applied] at same
      cases same
    | ok v =>
      rw [applied] at same
      cases same
      simp
  | rotated b z =>
    cases same
    simp
  | kept =>
    cases same
    simp

theorem occurrences_combine (h : (combine k op l r s).result = .ok e) :
    e.occurrences k = l.occurrences k ++ r.occurrences k := by
  have regrouped {x y : Expr}
      (h : Simplified.result ⟨.binary op x y false, regroup k op x y⟩ = .ok e) :
      e.occurrences k = x.occurrences k ++ y.occurrences k := by
    cases moved : regroup k op x y with
    | error f =>
      rw [moved] at h
      cases h
    | ok replacement =>
      rw [moved] at h
      cases h
      exact occurrences_regroup moved
  -- Constants hold no occurrences, so combining or moving them changes nothing.
  have cases := combining k op l r s
  generalize combine k op l r s = simplified at cases h
  cases cases with
  | computed a b =>
    cases computed : op.evaluate k.bits a b with
    | error f =>
      rw [computed] at h
      cases h
    | ok v =>
      rw [computed] at h
      cases h
      rfl
  | kept =>
    cases h
    exact occurrences_binary
  | swapped b =>
    rw [regrouped h]
    simp
  | regrouped => exact regrouped h

theorem occurrences_settle (h : (settle k f name es).result = .ok e) :
    e.occurrences k = (Expr.call f name es).occurrences k := by
  have cases := settling k f name es
  generalize settle k f name es = simplified at cases h
  cases cases with
  | @computed plan behaviour vs =>
    cases decided : (plan k.bits vs.length).decide vs with
    | error f =>
      rw [decided] at h
      cases h
    | ok v =>
      rw [decided] at h
      cases h
      have natural : f.isNatural = true := by rw [Function.isNatural, behaviour]
      rw [occurrences_call, occurrences_constants, natural]
      rfl
  | kept =>
    cases h
    rfl

mutual

/-- Nothing that may change is lost, doubled or moved past something else. -/
theorem occurrences_result : ∀ (e : Expr) {r : Expr}, (e.simplify k).result = .ok r →
    r.occurrences k = e.occurrences k
  | .constant v, r, h => by
    cases h
    rfl
  | .reference v name, r, h => by
    rw [occurrences_reference]
    cases known : k.fixed v with
    | some a =>
      rw [simplify, known] at h
      cases h
      rfl
    | none =>
      rw [simplify, known] at h
      obtain rfl : Expr.reference v name = r := Except.ok.inj h
      rw [occurrences_reference, known]
  | .binary op l r s, e, h => by
    obtain ⟨l', r', left, right, combined⟩ := result_binary.mp h
    rw [occurrences_combine combined, occurrences_result l left, occurrences_result r right,
      occurrences_binary]
  | .call f name args, e, h => by
    obtain ⟨es, arguments, settled⟩ := result_call.mp h
    obtain ⟨length, same⟩ := occurrences_simplifyAll args arguments
    rw [occurrences_settle settled, occurrences_call, occurrences_call, length, same]

theorem occurrences_simplifyAll :
    ∀ (es : List Expr) {es' : List Expr}, simplifyAll k es = (es', none) →
    es'.length = es.length ∧ es'.flatMap (occurrences k) = es.flatMap (occurrences k)
  | [], es', h => by
    cases h
    exact ⟨rfl, rfl⟩
  | e :: rest, es', h => by
    obtain ⟨x, xs, first, others, rfl⟩ := simplifyAll_cons.mp h
    obtain ⟨length, same⟩ := occurrences_simplifyAll rest others
    exact ⟨congrArg (· + 1) length,
      by rw [List.flatMap_cons, List.flatMap_cons, occurrences_result e first, same]⟩

end

end Order

structure ReplacesActive (g : Function → Function) : Prop where
  natural : ∀ f, f.isNatural = true → g f = f
  active : ∀ f, f.isNatural = false → (g f).isNatural = false

/-- A function that fails as soon as it is called, unless it is natural. -/
def failing (f : Function) : Function :=
  if f.isNatural then f else { f with behaviour := .active fun _ => throw .missingArgument }

theorem replacesActive_failing : ReplacesActive failing where
  natural f natural := if_pos natural
  active f active := by
    rw [failing, active]
    rfl

end Expr

def Simplified.withFunctions (g : Function → Function) (s : Simplified) : Simplified :=
  ⟨s.node.withFunctions g, s.replacement.map (·.map (·.withFunctions g))⟩

namespace Expr

variable {k : Knowledge} {op : Operator} {l r e : Expr} {es : List Expr} {s : Bool}
  {f : Function} {name : String}
  {g : Function → Function}

section Functions

theorem result_withFunctions (x : Simplified) :
    (x.withFunctions g).result = x.result.map (·.withFunctions g) := by
  obtain ⟨node, _ | _ | e⟩ := x <;> rfl

theorem allWithFunctions_eq (es : List Expr) :
    allWithFunctions g es = es.map (withFunctions g) := by
  induction es with
  | nil => rfl
  | cons e rest ih => rw [allWithFunctions, ih, List.map_cons]

theorem constant?_withFunctions (e : Expr) : (e.withFunctions g).constant? = e.constant? := by
  cases e <;> rfl

theorem constants?_withFunctions (es : List Expr) :
    constants? (es.map (withFunctions g)) = constants? es := by
  rw [constants?, constants?, List.mapM_map]
  exact congrArg (List.mapM · es) (funext constant?_withFunctions)

theorem regroup_withFunctions : regroup k op (l.withFunctions g) (r.withFunctions g) =
    (regroup k op l r).map (·.map (·.withFunctions g)) := by
  cases r with
  | constant | reference | call => rfl
  | binary op' l' r' sealed =>
    cases sealed with
    | true => rfl
    | false =>
      -- only constants matter for what is merged or rotated, and these have no functions
      by_cases same : op' = op
      · cases l' with
        | reference | binary | call => cases l <;> simp [regroup, withFunctions, same, Except.map]
        | constant b =>
          cases l with
          | reference | binary | call => simp [regroup, withFunctions, same, Except.map]
          | constant a =>
            cases applied : op.apply k.bits a b <;>
              simp [regroup, withFunctions, same, applied, Except.map, bind, Except.bind,
                pure, Except.pure]
      · simp [regroup, withFunctions, same, Except.map]

theorem combine_eq : combine k op l r s = match l.constant?, r.constant? with
    | some a, some b => ⟨.binary op l r s, (op.evaluate k.bits a b).map fun v => some (.constant v)⟩
    | _, last =>
      if !op.isCommutative || s then ⟨.binary op l r s, .ok none⟩
      else if last.isSome then ⟨.binary op r l s, regroup k op r l⟩
      else ⟨.binary op l r s, regroup k op l r⟩ := by
  cases l <;> cases r <;> rfl

theorem combine_withFunctions : combine k op (l.withFunctions g) (r.withFunctions g) s =
    (combine k op l r s).withFunctions g := by
  have moved (x y : Expr) : (⟨.binary op (x.withFunctions g) (y.withFunctions g) s,
      regroup k op (x.withFunctions g) (y.withFunctions g)⟩ : Simplified) =
      Simplified.withFunctions g ⟨.binary op x y s, regroup k op x y⟩ := by
    rw [regroup_withFunctions]
    rfl
  rw [combine_eq, combine_eq, constant?_withFunctions, constant?_withFunctions]
  split
  · cases op.evaluate k.bits _ _ <;> rfl
  · split
    · rfl
    · split
      · exact moved r l
      · exact moved l r

theorem settle_withFunctions (replaces : ReplacesActive g) :
    settle k (g f) name (es.map (withFunctions g)) = (settle k f name es).withFunctions g := by
  have node : (Expr.call f name es).withFunctions g =
      .call (g f) name (es.map (withFunctions g)) := by
    rw [withFunctions, allWithFunctions_eq]
  cases behaviour : f.behaviour with
  | natural plan =>
    have same : g f = f := replaces.natural f (by rw [Function.isNatural, behaviour])
    rw [same] at node ⊢
    simp only [settle, constants?_withFunctions, behaviour, Simplified.withFunctions]
    cases constants? es with
    | none => exact congrArg (Simplified.mk · _) node.symm
    | some vs =>
      dsimp only
      rw [node]
      cases (plan k.bits vs.length).decide vs <;> rfl
  | active run =>
    have active : (g f).isNatural = false :=
      replaces.active f (by rw [Function.isNatural, behaviour])
    cases other : (g f).behaviour with
    | natural plan => simp [Function.isNatural, other] at active
    | active run' =>
      simp only [settle, behaviour, other, Simplified.withFunctions, node]
      rfl

mutual

/-- Whatever the functions that are not natural do when they are called, they are not called. -/
theorem simplify_withFunctions (replaces : ReplacesActive g) : ∀ e : Expr,
    (e.withFunctions g).simplify k = (e.simplify k).withFunctions g
  | .constant _ => rfl
  | .reference v name => by
    cases known : k.fixed v <;> simp [simplify, withFunctions, Simplified.withFunctions,
      known, Except.map]
  | .binary op l r s => by
    have left := simplify_withFunctions replaces l
    have right := simplify_withFunctions replaces r
    simp only [simplify, withFunctions, left, right, result_withFunctions]
    cases (l.simplify k).result with
    | error f => rfl
    | ok l' =>
      cases (r.simplify k).result with
      | error f => rfl
      | ok r' => exact combine_withFunctions
  | .call f name args => by
    have arguments := simplifyAll_withFunctions replaces args
    simp only [simplify, withFunctions, allWithFunctions_eq, arguments]
    obtain ⟨es, _ | fault⟩ := simplifyAll k args
    · exact settle_withFunctions replaces
    · simp [Simplified.withFunctions, withFunctions, allWithFunctions_eq, Except.map]

theorem simplifyAll_withFunctions (replaces : ReplacesActive g) : ∀ es : List Expr,
    simplifyAll k (es.map (withFunctions g)) =
      ((simplifyAll k es).1.map (withFunctions g), (simplifyAll k es).2)
  | [] => rfl
  | e :: rest => by
    have first := simplify_withFunctions replaces e
    have others := simplifyAll_withFunctions replaces rest
    simp only [simplifyAll, List.map_cons, first, others, result_withFunctions]
    cases (e.simplify k).result with
    | error f => rfl
    | ok e' =>
      obtain ⟨es, _ | fault⟩ := simplifyAll k rest <;> rfl

end

end Functions

/-- What simplification leaves alone. If it succeeds, the variables that may change and the calls of
functions that are not natural are the same before and after it, in the same order. The outcome does
not depend on what these functions do, and what a parser reads is simplified without a change of any
variable. -/
theorem occurrences_simplify (simple : (e.simplify k).result = .ok r) :
    r.occurrences k = e.occurrences k
    ∧ (∀ g, ReplacesActive g → ((e.withFunctions g).simplify k).result = .ok (r.withFunctions g))
    ∧ ∀ (gr : Grammar) (s s' : ParserState), Parser.rule .expression gr s = .ok e s' →
        s'.store.knowledge gr.bits = k → Parser.simplified gr s = .ok r s' := by
  refine ⟨occurrences_result e simple, fun g replaces => ?_, fun gr s s' ran known => ?_⟩
  · rw [simplify_withFunctions replaces, result_withFunctions, simple]
    rfl
  · rw [Parser.simplified_run ran, known, simple]
    rfl

/-- A constant variable and two constants of a sum, among a variable and a call of a function with a
random value. -/
theorem occurrences_simplify_random :
    let k : Knowledge := ⟨53, fun v => if v = 0 then some (.integer 1) else none⟩
    let drawn : Expr := .call Function.random "rnd"
      [.binary .add (.reference 0 "c") (.constant (.integer 2)) false]
    let e : Expr := .binary .add (.reference 1 "x")
      (.binary .add (.constant (.integer 3)) drawn false) false
    ∃ r, (e.simplify k).result = .ok r ∧ r.kind = "BinaryOperation" ∧
      r.occurrences k = [.reference 1 "x", .call Function.random "rnd" 1] ∧
      ((e.withFunctions failing).simplify k).result = .ok (r.withFunctions failing) := by
  intro k drawn e
  have simple : (e.simplify k).result =
      .ok (.binary .add (.constant (.integer 3)) (.binary .add (.reference 1 "x")
      (.call Function.random "rnd" [.constant (.integer 3)]) false) false) := rfl
  obtain ⟨same, others, -⟩ := occurrences_simplify simple
  exact ⟨_, simple, rfl, same, others failing replacesActive_failing⟩

end Expr

end Formula
