import Formula.Proofs.Expr.Folding

/-! What simplification keeps. A property of nodes that carries over to what is computed from them,
and that does not depend on the operands of an operation or on the arguments of a call, stays with
all parts of an expression that is simplified, also if a fault stops the simplification in
between. -/
namespace Formula

namespace Simplified

structure Everywhere (s : Simplified) (P : Expr → Prop) : Prop where
  node : s.node.Everywhere P
  replacement : ∀ e, s.replacement = .ok (some e) → e.Everywhere P

variable {s : Simplified} {P : Expr → Prop} {e : Expr}

theorem Everywhere.result (h : s.Everywhere P) (result : s.result = .ok e) : e.Everywhere P := by
  obtain ⟨node, replacement⟩ := s
  cases replacement with
  | error f => cases result
  | ok e' =>
    cases e' with
    | none => exact Except.ok.inj result ▸ h.node
    | some e' => exact Except.ok.inj result ▸ h.replacement e' rfl

theorem Everywhere.expression (h : s.Everywhere P) : s.expression.Everywhere P := by
  obtain ⟨node, replacement⟩ := s
  cases replacement with
  | error f => exact h.node
  | ok e' =>
    cases e' with
    | none => exact h.node
    | some e' => exact h.replacement e' rfl

end Simplified

theorem Operator.evaluate_of_apply {op : Operator} {p : Nat} {a b v : Value}
    (applied : op.apply p a b = .ok v) :
    op.evaluate p a b = .ok v := by
  rw [evaluate, applied]
  rfl

namespace Expr

/-- A property of nodes that carries over to what simplification makes of them. -/
structure StaysWith (k : Knowledge) (P : Expr → Prop) : Prop where
  known : ∀ {v name a}, k.fixed v = some a → P (.reference v name) → P (.constant a)
  operands : ∀ {op l r s} l' r' s', P (.binary op l r s) → P (.binary op l' r' s')
  arguments : ∀ {f name es} es', es'.length = es.length → P (.call f name es) → P (.call f name es')
  evaluated : ∀ {op l r s a b v}, P (.binary op l r s) → P (.constant a) → P (.constant b) →
    op.evaluate k.bits a b = .ok v → P (.constant v)
  decided : ∀ {f name plan vs v}, P (.call f name (vs.map .constant)) →
    f.behaviour = .natural plan →
    (∀ w ∈ vs, P (.constant w)) → (plan k.bits vs.length).decide vs = .ok v → P (.constant v)

variable {k : Knowledge} {P : Expr → Prop} {op : Operator} {l r e : Expr} {es : List Expr}

theorem everywhere_kept (h : e.Everywhere P) : Simplified.Everywhere ⟨e, .ok none⟩ P where
  node := h
  replacement _ made := nomatch made

theorem everywhere_fault {f : Fault} (h : e.Everywhere P) :
    Simplified.Everywhere ⟨e, .error f⟩ P where
  node := h
  replacement _ made := nomatch made

theorem everywhere_computed (h : e.Everywhere P) {x : Except Fault Value}
    (value : ∀ v, x = .ok v → P (.constant v)) :
    Simplified.Everywhere ⟨e, x.map fun v => some (.constant v)⟩ P where
  node := h
  replacement e' made := by
    cases x with
    | error f => cases made
    | ok v =>
      cases made
      exact value v rfl

section Steps

variable (stays : StaysWith k P)
include stays

theorem everywhere_regroup {s : Bool} (here : P (.binary op l r s)) (hl : l.Everywhere P)
    (hr : r.Everywhere P) :
    Simplified.Everywhere ⟨.binary op l r s, regroup k op l r⟩ P := by
  refine ⟨⟨here, hl, hr⟩, fun e made => ?_⟩
  have cases := regrouping k op l r
  rw [show regroup k op l r = .ok (some e) from made] at cases
  generalize same : (Except.ok (some e) : Except Fault (Option Expr)) = replacement at cases
  cases cases with
  | merged a b z =>
    cases applied : op.apply k.bits a b with
    | error f =>
      rw [applied] at same
      cases same
    | ok v =>
      rw [applied] at same
      cases same
      exact ⟨stays.operands _ _ _ here,
        stays.evaluated here hl hr.2.1 (Operator.evaluate_of_apply applied), hr.2.2⟩
  | rotated b z =>
    cases same
    exact ⟨stays.operands _ _ _ here, hr.2.1, stays.operands _ _ _ here, hl, hr.2.2⟩
  | kept => cases same

theorem everywhere_combine {l' r' : Expr} {s : Bool} (here : P (.binary op l r s))
    (hl : l'.Everywhere P) (hr : r'.Everywhere P) : (combine k op l' r' s).Everywhere P := by
  have cases := combining k op l' r' s
  generalize combine k op l' r' s = simplified at cases ⊢
  cases cases with
  | computed a b =>
    have node : (Expr.binary op (.constant a) (.constant b) s).Everywhere P :=
      ⟨stays.operands _ _ s here, hl, hr⟩
    exact everywhere_computed node fun v value => stays.evaluated here hl hr value
  | kept => exact everywhere_kept ⟨stays.operands _ _ s here, hl, hr⟩
  | swapped b => exact everywhere_regroup stays (stays.operands _ _ false here) hr hl
  | regrouped => exact everywhere_regroup stays (stays.operands _ _ false here) hl hr

theorem everywhere_settle {f : Function} {name : String} (here : P (.call f name es))
    (hs : AllEverywhere P es) : (settle k f name es).Everywhere P := by
  have node : (Expr.call f name es).Everywhere P := ⟨here, hs⟩
  have cases := settling k f name es
  generalize settle k f name es = simplified at cases ⊢
  cases cases with
  | computed natural vs =>
    have values : ∀ w ∈ vs, P (.constant w) := by
      intro w member
      exact allEverywhere_iff.mp hs (.constant w) (List.mem_map_of_mem member)
    exact everywhere_computed node fun v decided => stays.decided here natural values decided
  | kept => exact everywhere_kept node

end Steps

mutual

/-- All parts have the property after a simplification if they have it before. -/
theorem everywhere_simplify (stays : StaysWith k P) :
    ∀ e : Expr, e.Everywhere P → (e.simplify k).Everywhere P
  | .constant v, h => everywhere_kept h
  | .reference v name, h => by
    refine ⟨h, fun e made => ?_⟩
    obtain ⟨a, known, rfl⟩ := Option.map_eq_some_iff.mp (Except.ok.inj made)
    exact stays.known known h
  | .binary op l r s, h => by
    have left := everywhere_simplify stays l h.2.1
    have right := everywhere_simplify stays r h.2.2
    -- A fault in one operand leaves the node with what was simplified before it.
    cases simpleLeft : (l.simplify k).result with
    | error f =>
      simp only [simplify, simpleLeft]
      exact everywhere_fault ⟨stays.operands _ _ s h.1, left.node, h.2.2⟩
    | ok l' =>
      have hl := left.result simpleLeft
      cases simpleRight : (r.simplify k).result with
      | error f =>
        simp only [simplify, simpleLeft, simpleRight]
        exact everywhere_fault ⟨stays.operands _ _ s h.1, hl, right.node⟩
      | ok r' =>
        simp only [simplify, simpleLeft, simpleRight]
        exact everywhere_combine stays h.1 hl (right.result simpleRight)
  | .call f name args, h => by
    obtain ⟨length, hs⟩ := everywhere_simplifyAll stays args h.2
    unfold simplify
    generalize simplifyAll k args = all at length hs ⊢
    obtain ⟨es, _ | fault⟩ := all
    · exact everywhere_settle stays (stays.arguments es length h.1) hs
    · exact everywhere_fault ⟨stays.arguments es length h.1, hs⟩

theorem everywhere_simplifyAll (stays : StaysWith k P) : ∀ es : List Expr, AllEverywhere P es →
    (simplifyAll k es).1.length = es.length ∧ AllEverywhere P (simplifyAll k es).1
  | [], _ => ⟨rfl, trivial⟩
  | e :: rest, h => by
    have first := everywhere_simplify stays e h.1
    obtain ⟨length, hs⟩ := everywhere_simplifyAll stays rest h.2
    cases simple : (e.simplify k).result with
    | error f =>
      simp only [simplifyAll, simple]
      exact ⟨rfl, first.node, h.2⟩
    | ok x =>
      simp only [simplifyAll, simple]
      generalize simplifyAll k rest = all at length hs ⊢
      obtain ⟨es, _ | fault⟩ := all
      · exact ⟨congrArg (· + 1) length, first.result simple, hs⟩
      · exact ⟨congrArg (· + 1) length, first.node, hs⟩

end

end Expr

end Formula
