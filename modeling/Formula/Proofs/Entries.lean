import Formula.Entries

/-! Looking names up in lists of entries, leaving out repetitions, and checking lists item by
item. -/
namespace Formula

variable {β : Type} {entries : List (String × β)} {name : String} {value : β}

theorem mem_of_lookup (h : entries.lookup name = some value) : (name, value) ∈ entries := by
  obtain ⟨before, after, listed, _⟩ := List.lookup_eq_some_iff.mp h
  simp [listed]

theorem lookup_cons_eq (e : String × β) (entries : List (String × β)) (name : String) :
    (e :: entries).lookup name = if name = e.1 then some e.2 else entries.lookup name := by
  obtain ⟨key, value⟩ := e
  by_cases same : name = key
  · simp [same]
  · simp [List.lookup_cons, same, beq_false_of_ne same]

theorem lookup_isSome_eq (entries : List (String × β)) (name : String) :
    (entries.lookup name).isSome ↔ name ∈ entries.map (·.1) := by
  constructor
  · intro found
    obtain ⟨e, he, same⟩ := List.lookup_isSome_iff.mp found
    exact List.mem_map.mpr ⟨e, he, (eq_of_beq same).symm⟩
  · intro known
    obtain ⟨e, he, rfl⟩ := List.mem_map.mp known
    exact List.lookup_isSome_iff.mpr ⟨e, he, beq_self_eq_true e.1⟩

theorem exists_lookup (h : name ∈ entries.map (·.1)) : ∃ value, entries.lookup name = some value :=
  Option.isSome_iff_exists.mp ((lookup_isSome_eq entries name).mpr h)

theorem lookup_of_mem (distinct : (entries.map (·.1)).Nodup) (h : (name, value) ∈ entries) :
    entries.lookup name = some value := by
  induction entries with
  | nil => cases h
  | cons e entries ih =>
    obtain ⟨absent, rest⟩ := List.nodup_cons.mp distinct
    rw [lookup_cons_eq]
    rcases List.mem_cons.mp h with rfl | later
    · rw [if_pos rfl]
    · have other : name ≠ e.1 := by
        rintro rfl
        exact absent (List.mem_map.mpr ⟨_, later, rfl⟩)
      rw [if_neg other, ih rest later]

theorem forall_mem_of_all {α : Type} {l : List α} {P : α → Prop} [DecidablePred P]
    (h : l.all (fun a => decide (P a)) = true) : ∀ a ∈ l, P a :=
  fun a ha => of_decide_eq_true (List.all_eq_true.mp h a ha)

theorem find?_distinct (items : List String) (wanted : String → Bool) :
    (distinct items).find? wanted = items.find? wanted := by
  let step (seen : List String) (s : String) := if seen.contains s then seen else seen ++ [s]
  have behind (seen : List String) :
      (items.foldl step seen).find? wanted = (seen ++ items).find? wanted := by
    induction items generalizing seen with
    | nil => rw [List.append_nil, List.foldl_nil]
    | cons s items ih =>
      rw [List.foldl_cons, ih]
      by_cases known : seen.contains s
      · rw [show step seen s = seen from if_pos known, List.find?_append, List.find?_append,
          List.find?_cons]
        cases is : wanted s with
        | false => rfl
        | true =>
          have found : (seen.find? wanted).isSome :=
            List.find?_isSome.mpr ⟨s, List.contains_iff_mem.mp known, is⟩
          obtain ⟨first, same⟩ := Option.isSome_iff_exists.mp found
          rw [same]
          rfl
      · rw [show step seen s = seen ++ [s] from if_neg known, List.append_assoc,
          List.singleton_append]
  exact behind []

theorem mem_distinct (items : List String) (name : String) :
    name ∈ distinct items ↔ name ∈ items := by
  have found (l : List String) : name ∈ l ↔ (l.find? (· == name)).isSome := by simp
  rw [found, find?_distinct, ← found]

end Formula
