import Mathlib.Data.List.Forall2
import Mathlib.Data.List.Nodup
import Formula.Expr
import Formula.Proofs.Entries

/-! The walk through an expression. A place in an expression is a path of numbers, each of which
names a part of the node before. The walk visits each place once, in the order of the paths, and
shows for each the nodes on the way. -/
namespace Formula.Expr

/-- The part of an expression that a path leads to, if there is one. -/
def at? (e : Expr) : List Nat → Option Expr
  | [] => some e
  | i :: path => e.children[i]?.bind fun part => part.2.at? path

mutual

def paths : Expr → List (List Nat)
  | .binary _ l r _ => [] :: (l.paths.map (0 :: ·) ++ r.paths.map (1 :: ·))
  | .call _ _ args => [] :: pathsFrom 0 args
  | _ => [[]]

def pathsFrom : Nat → List Expr → List (List Nat)
  | _, [] => []
  | i, e :: rest => e.paths.map (i :: ·) ++ pathsFrom (i + 1) rest

end

/-- A visit shows the node at the end of a path, the nodes before it on the path, and its key in the
last of them. -/
structure IsVisit (e : Expr) (path : List Nat) (v : Visit) : Prop where
  node : e.at? path = some v.node
  depth : v.parents.length = path.length
  parents : ∀ n < path.length, v.parents[n]? = e.at? (path.take n)
  root : path = [] → v.key = ""
  key : ∀ parent ∈ v.parents.getLast?, ∀ i ∈ path.getLast?, parent.children[i]? =
    some (v.key, v.node)

variable {e c : Expr} {key : String} {i : Nat} {path : List Nat} {v : Visit}

section Children

theorem keyedFrom_eq (i : Nat) (args : List Expr) :
    keyedFrom i args = (args.zipIdx i).map fun a => ("arg" ++ toString a.2, a.1) := by
  induction args generalizing i with
  | nil => rfl
  | cons e rest ih => rw [keyedFrom, ih, List.zipIdx_cons, List.map_cons]

theorem nodup_keys (e : Expr) : (e.children.map (·.1)).Nodup := by
  cases e with
  | constant | reference => exact List.nodup_nil
  | binary => simp [children]
  | call f name args =>
    have keys : (keyedFrom 0 args).map (·.1) =
        (List.range' 0 args.length).map fun i => "arg" ++ toString i := by
      rw [keyedFrom_eq, List.map_map, ← List.zipIdx_map_snd, List.map_map]
      rfl
    rw [children, keys]
    refine List.Nodup.map (fun i j same => ?_) List.nodup_range'
    have numbers : toString i = toString j := (String.append_right_inj "arg").mp same
    rw [Nat.toString_eq_ofList_toDigits, Nat.toString_eq_ofList_toDigits,
      String.ofList_inj] at numbers
    have read (n : Nat) : Nat.ofDigitChars 10 (Nat.toDigits 10 n) 0 = n :=
      Nat.ofDigitChars_toDigits (by decide) (by decide)
    rw [← read i, numbers, read j]

theorem sizeOf_children {part : String × Expr} (h : part ∈ e.children) :
    sizeOf part.2 < sizeOf e := by
  cases e with
  | constant | reference => cases h
  | binary op l r s =>
    simp only [children, List.mem_cons, List.not_mem_nil, or_false] at h
    rw [binary.sizeOf_spec]
    rcases h with rfl | rfl
    · show sizeOf l < _
      omega
    · show sizeOf r < _
      omega
  | call f name args =>
    rw [children, keyedFrom_eq] at h
    obtain ⟨a, member, rfl⟩ := List.mem_map.mp h
    have inside : a.1 ∈ args := List.mem_of_getElem? (List.mem_zipIdx_iff_getElem?.mp member)
    have smaller := List.sizeOf_lt_of_mem inside
    show sizeOf a.1 < _
    rw [call.sizeOf_spec]
    omega

theorem induction_children {P : Expr → Prop} (step : ∀ e, (∀ part ∈ e.children, P part.2) → P e)
    (e : Expr) : P e :=
  step e fun part _ => induction_children step part.2
termination_by sizeOf e
decreasing_by exact sizeOf_children ‹_›

theorem descend_eq (above : List Expr) (e : Expr) :
    e.descend above = e.children.flatMap fun part =>
      (⟨above ++ [e], part.1, part.2⟩ : Visit) :: part.2.descend (above ++ [e]) := by
  cases e with
  | constant | reference => rfl
  | binary => simp [descend, children]
  | call f name args =>
    have all (path : List Expr) (i : Nat) :
        descendAll path i args = (keyedFrom i args).flatMap fun part =>
        (⟨path, part.1, part.2⟩ : Visit) :: part.2.descend path := by
      induction args generalizing i with
      | nil => rfl
      | cons e rest ih => rw [descendAll, keyedFrom, List.flatMap_cons, ih, List.cons_append]
    exact all _ 0

theorem paths_eq (e : Expr) :
    e.paths = [] :: e.children.zipIdx.flatMap fun part => part.1.2.paths.map (part.2 :: ·) := by
  cases e with
  | constant | reference => rfl
  | binary => simp [paths, children]
  | call f name args =>
    have all (i : Nat) : pathsFrom i args = ((keyedFrom i args).zipIdx i).flatMap fun part =>
        part.1.2.paths.map (part.2 :: ·) := by
      induction args generalizing i with
      | nil => rfl
      | cons e rest ih => rw [pathsFrom, keyedFrom, List.zipIdx_cons, List.flatMap_cons, ih]
    exact congrArg ([] :: ·) (all 0)

end Children

section Paths

theorem mem_paths : path ∈ e.paths ↔ (e.at? path).isSome := by
  induction path generalizing e with
  | nil => simp [paths_eq e, at?]
  | cons i path ih =>
    have here : i :: path ∈ e.paths ↔ ∃ part, e.children[i]? = some part ∧ path ∈ part.2.paths := by
      rw [paths_eq e]
      simp only [List.mem_cons, List.cons_ne_nil, false_or, List.mem_flatMap, List.mem_map,
        List.cons.injEq]
      constructor
      · rintro ⟨part, member, _, below, rfl, rfl⟩
        exact ⟨part.1, List.mem_zipIdx_iff_getElem?.mp member, below⟩
      · rintro ⟨part, listed, below⟩
        exact ⟨(part, i), List.mem_zipIdx_iff_getElem?.mpr listed, path, below, rfl, rfl⟩
    rw [here, at?]
    cases e.children[i]? with
    | none => simp
    | some part => simp [ih]

/-- A node is listed before its parts, and a part with all that is below it before the next part. -/
theorem paths_sorted (e : Expr) : e.paths.Pairwise (· < ·) := by
  induction e using induction_children with
  | step e ih =>
    have numbered : e.children.zipIdx.Pairwise fun a b => a.2 < b.2 := by
      rw [← List.pairwise_map (R := (· < ·)), List.zipIdx_map_snd]
      exact List.pairwise_lt_range'
    rw [paths_eq, List.pairwise_cons, List.pairwise_flatMap]
    refine ⟨?first, ?within, ?between⟩
    case first =>
      intro path member
      obtain ⟨part, _, below⟩ := List.mem_flatMap.mp member
      obtain ⟨path, _, rfl⟩ := List.mem_map.mp below
      exact List.nil_lt_cons _ _
    case within =>
      intro part member
      have listed : part.1 ∈ e.children :=
        List.mem_of_getElem? (List.mem_zipIdx_iff_getElem?.mp member)
      rw [List.pairwise_map]
      exact (ih part.1 listed).imp fun less => List.cons_lt_cons_iff.mpr (.inr ⟨rfl, less⟩)
    case between =>
      refine numbered.imp fun less x hx y hy => ?_
      obtain ⟨_, _, rfl⟩ := List.mem_map.mp hx
      obtain ⟨_, _, rfl⟩ := List.mem_map.mp hy
      exact List.cons_lt_cons_iff.mpr (.inl less)

end Paths

section Visits

def Visit.under (above : List Expr) (v : Visit) : Visit := { v with parents := above ++ v.parents }

theorem descend_under (e : Expr) (above : List Expr) :
    e.descend above = (e.descend []).map (.under above) := by
  induction e using induction_children generalizing above with
  | step e ih =>
    rw [descend_eq above, descend_eq [], List.map_flatMap]
    refine List.flatMap_congr fun part member => ?_
    rw [List.map_cons, ih part member (above ++ [e]), ih part member ([] ++ [e]), List.map_map]
    simp [Visit.under, Function.comp_def]

theorem IsVisit.first (part : e.children[i]? = some (key, c)) : IsVisit e [i] ⟨[e], key, c⟩ := by
  constructor
  · simp [at?, part]
  · rfl
  · intro n less
    obtain rfl : n = 0 := by simpa using less
    rfl
  · exact fun empty => absurd empty (List.cons_ne_nil _ _)
  · simpa using part

theorem IsVisit.below (part : e.children[i]? = some (key, c)) (h : IsVisit c path v)
    (proper : path ≠ []) :
    IsVisit e (i :: path) (v.under [e]) := by
  have inside : v.parents ≠ [] := by
    rwa [← List.length_pos_iff, h.depth, List.length_pos_iff]
  constructor
  · simpa [at?, part, Visit.under] using h.node
  · simpa [Visit.under] using h.depth
  · intro n less
    cases n with
    | zero => rfl
    | succ n => simpa [Visit.under, at?, part] using h.parents n (Nat.lt_of_succ_lt_succ less)
  · exact fun empty => absurd empty (List.cons_ne_nil _ _)
  · rw [Visit.under, List.singleton_append, List.getLast?_cons_of_ne_nil inside,
      List.getLast?_cons_of_ne_nil proper]
    exact h.key

/-- The walk comes to a part and then to what is below it. -/
theorem forall₂_part (part : e.children[i]? = some (key, c))
    (h : List.Forall₂ (IsVisit c) c.paths c.visits) :
    List.Forall₂ (IsVisit e) (c.paths.map (i :: ·)) (⟨[e], key, c⟩ :: c.descend [e]) := by
  obtain ⟨proper, listed⟩ : ∃ proper, c.paths = [] :: proper := ⟨_, paths_eq c⟩
  have nonempty : ∀ path ∈ proper, path ≠ [] := by
    have sorted := paths_sorted c
    rw [listed, List.pairwise_cons] at sorted
    rintro path member rfl
    exact List.not_lt_nil _ (sorted.1 [] member)
  rw [listed, visits, List.forall₂_cons] at h
  rw [listed, descend_under, List.map_cons, List.forall₂_cons, List.forall₂_map_left_iff,
    List.forall₂_map_right_iff]
  exact ⟨.first part, ((List.forall₂_and_left _ _).mpr ⟨nonempty, h.2⟩).imp fun _ _ both =>
    both.2.below part both.1⟩

theorem forall₂_visits (e : Expr) : List.Forall₂ (IsVisit e) e.paths e.visits := by
  induction e using induction_children with
  | step e ih =>
    have root : IsVisit e [] ⟨[], "", e⟩ :=
      ⟨rfl, rfl, fun _ less => absurd less (Nat.not_lt_zero _), fun _ => rfl, by simp⟩
    have numbered : e.descend [] = e.children.zipIdx.flatMap fun part =>
        (⟨[e], part.1.1, part.1.2⟩ : Visit) :: part.1.2.descend [e] := by
      conv_lhs => rw [descend_eq, List.nil_append, ← List.zipIdx_map_fst 0 e.children,
        List.flatMap_map]
    rw [paths_eq, visits, numbered]
    have each : List.Forall₂ (fun a b => a = b ∧
        a ∈ e.children.zipIdx) e.children.zipIdx e.children.zipIdx :=
      List.forall₂_same.mpr fun _ member => ⟨rfl, member⟩
    refine .cons root (List.rel_flatMap each ?_)
    rintro part _ ⟨rfl, member⟩
    have listed := List.mem_zipIdx_iff_getElem?.mp member
    exact forall₂_part listed (ih part.1 (List.mem_of_getElem? listed))

theorem IsVisit.lookup (h : IsVisit e path v) {parent : Expr}
    (last : v.parents.getLast? = some parent) :
    parent.children.lookup v.key = some v.node := by
  have proper : path ≠ [] := by
    rw [← List.length_pos_iff, ← h.depth, List.length_pos_iff]
    rintro root
    rw [root] at last
    cases last
  have part := h.key parent last _ (List.getLast?_eq_some_getLast proper)
  exact lookup_of_mem (nodup_keys parent) (List.mem_of_getElem? part)

/-- The walk shows the places of an expression once each, a node before its parts and the parts in
their order: each with the nodes from the root to the last parent, which has the node under the key.
Without the root the rest is the same. -/
theorem visits_preorder (e : Expr) :
    List.Forall₂ (IsVisit e) e.paths e.visits ∧ e.paths.Pairwise (· < ·) ∧
      (∀ path, path ∈ e.paths ↔ (e.at? path).isSome) ∧
      (∀ v ∈ e.visits, ∀ parent ∈ v.parents.getLast?, parent.children.lookup v.key = some v.node) ∧
      e.descend [] = e.visits.tail := by
  refine ⟨forall₂_visits e, paths_sorted e, fun path => mem_paths, ?_, rfl⟩
  intro v member parent last
  obtain ⟨n, less, rfl⟩ := List.getElem_of_mem member
  exact ((forall₂_visits e).get ((forall₂_visits e).length_eq ▸ less) less).lookup last

example (op : Operator) (v : VariableId) :
    let x := Expr.reference v "x"
    (binary op (binary op x x false) x true).visits.map (fun w => (w.parents.length, w.key)) =
      [(0, ""), (1, "left"), (2, "left"), (2, "right"), (1, "right")] := rfl

end Visits

end Formula.Expr
