import Mathlib.Data.List.TakeWhile
import Formula.CommandLine

/-! Arguments of the command line in blocks: flags, options with their values, and texts. A search
for an option finds the first block with its name, and taking the option leaves the other blocks as
they are. So in a rearrangement of the blocks the same blocks are found, as long as the blocks of
one name keep their order. -/
namespace Formula.CommandLine

def flagNames : List String := ["-h", "--help", "-v", "--verbose", "--mp", "--strict"]

def optionNames : List String := ["-D", "--config", "--dps"]

/-- A group of arguments that stay together. Neither a value nor a text is the name of a flag or
option. -/
inductive Block where
  | flag (name : String) (known : name ∈ flagNames)
  | option (name value : String) (known : name ∈ optionNames)
      (free : value ∉ flagNames ++ optionNames)
  | text (content : String) (free : content ∉ flagNames ++ optionNames)
deriving DecidableEq

namespace Block

def name? : Block → Option String
  | flag name _ | option name _ _ _ => some name
  | text _ _ => none

def args : Block → List String
  | flag name _ => [name]
  | option name value _ _ => [name, value]
  | text content _ => [content]

theorem mem_args {b : Block} {name : String} (known : name ∈ flagNames ++ optionNames)
    (mem : name ∈ b.args) :
    b.name? = some name := by
  cases b with
  | flag n _ =>
    obtain rfl := List.mem_singleton.mp mem
    rfl
  | option n value _ free =>
    rcases List.mem_cons.mp mem with rfl | mem
    · rfl
    · exact absurd (List.mem_singleton.mp mem ▸ known) free
  | text content free => exact absurd (List.mem_singleton.mp mem ▸ known) free

theorem eq_flag {b : Block} {name : String} (known : name ∈ flagNames)
    (named : b.name? = some name) :
    b = flag name known := by
  cases b with
  | flag n _ =>
    obtain rfl := Option.some.inj named
    rfl
  | option n value other _ =>
    obtain rfl := Option.some.inj named
    have apart : ∀ n ∈ flagNames, n ∉ optionNames := by decide
    exact absurd other (apart n known)
  | text => cases named

theorem eq_option {b : Block} {name : String} (known : name ∈ optionNames)
    (named : b.name? = some name) :
    ∃ value free, b = option name value known free := by
  cases b with
  | flag n other =>
    obtain rfl := Option.some.inj named
    have apart : ∀ n ∈ flagNames, n ∉ optionNames := by decide
    exact absurd known (apart n other)
  | option n value _ free =>
    obtain rfl := Option.some.inj named
    exact ⟨value, free, rfl⟩
  | text => cases named

end Block

def line (bs : List Block) : List String := bs.flatMap Block.args

variable {bs cs before after : List Block} {b : Block} {name other value : String}

@[simp] theorem line_append (bs cs : List Block) : line (bs ++ cs) = line bs ++ line cs :=
  List.flatMap_append

@[simp] theorem line_cons (b : Block) (bs : List Block) : line (b :: bs) = b.args ++ line bs :=
  List.flatMap_cons

theorem mem_line (known : name ∈ flagNames ++ optionNames) (mem : name ∈ line bs) :
    ∃ b ∈ bs, b.name? = some name := by
  obtain ⟨b, there, mem⟩ := List.mem_flatMap.mp mem
  exact ⟨b, there, Block.mem_args known mem⟩

theorem not_mem_line (known : name ∈ flagNames ++ optionNames)
    (lacking : ∀ b ∈ bs, b.name? ≠ some name) :
    name ∉ line bs := by
  intro mem
  obtain ⟨b, there, named⟩ := mem_line known mem
  exact lacking b there named

theorem takeFlag_lacking (lacking : name ∉ line bs) (lacking' : other ∉ line bs) :
    takeFlag name other (line bs) = (false, line bs) := by
  simp [takeFlag, lacking, lacking']

theorem erase_flag (known : name ∈ flagNames) (lacking : ∀ b ∈ before, b.name? ≠ some name) :
    (line (before ++ .flag name known :: after)).erase name = line (before ++ after) := by
  have free := not_mem_line (List.mem_append_left _ known) lacking
  rw [line_append, List.erase_append_right _ free, line_cons, line_append]
  simp [Block.args]

theorem takeFlag_first (known : name ∈ flagNames) (lacking : ∀ b ∈ before, b.name? ≠ some name) :
    takeFlag name other (line (before ++ .flag name known :: after)) =
      (true, line (before ++ after)) := by
  have there : (line (before ++ .flag name known :: after)).contains name := by simp [Block.args]
  rw [takeFlag, if_pos there, erase_flag known lacking]

theorem takeFlag_second (known : other ∈ flagNames) (lacking : ∀ b ∈ before, b.name? ≠ some other)
    (free : name ∉ line (before ++ .flag other known :: after)) :
    takeFlag name other (line (before ++ .flag other known :: after)) =
      (true, line (before ++ after)) := by
  have there : (line (before ++ .flag other known :: after)).contains other := by simp [Block.args]
  rw [takeFlag, if_neg (by simpa using free), if_pos there, erase_flag known lacking]

theorem takeOption_lacking (lacking : name ∉ line bs) : takeOption name (line bs) = .absent := by
  have kept : (line bs).dropWhile (· ≠ name) = [] := by
    apply List.dropWhile_eq_nil_iff.mpr
    intro arg mem
    exact decide_eq_true fun same => lacking (same ▸ mem)
  simp only [takeOption, kept]

theorem takeOption_first (known : name ∈ optionNames) (free : value ∉ flagNames ++ optionNames)
    (lacking : ∀ b ∈ before, b.name? ≠ some name) :
    takeOption name (line (before ++ .option name value known free :: after)) =
      .value value (line (before ++ after)) := by
  have others : ∀ arg ∈ line before, decide (arg ≠ name) = true := by
    intro arg mem
    exact decide_eq_true fun same =>
      not_mem_line (List.mem_append_right _ known) lacking (same ▸ mem)
  have parts : line (before ++ .option name value known free :: after) =
      line before ++ (name :: value :: line after) := by simp [Block.args]
  have front : (line before ++ name :: value :: line after).takeWhile (· ≠ name) = line before := by
    rw [List.takeWhile_append_of_pos others]
    simp
  have back : (line before ++ name :: value :: line after).dropWhile (· ≠ name) =
      name :: value :: line after := by
    rw [List.dropWhile_append_of_pos others]
    simp
  simp only [takeOption, parts, front, back, line_append]

/-- A rearrangement of blocks in which the values of each option keep their order, and the texts
do. -/
structure Rearranged (bs cs : List Block) : Prop where
  blocks : bs.Perm cs
  options : ∀ name ∈ optionNames, bs.filter (·.name? = some name) = cs.filter (·.name? = some name)
  texts : bs.filter (·.name? = none) = cs.filter (·.name? = none)

namespace Rearranged

theorem symm (h : Rearranged bs cs) : Rearranged cs bs where
  blocks := h.blocks.symm
  options name known := (h.options name known).symm
  texts := h.texts.symm

theorem eq_of_perm {α : Type} {as bs : List α} (perm : as.Perm bs)
    (same : ∀ a ∈ as, ∀ b ∈ as, a = b) : as = bs := by
  cases as with
  | nil => exact perm.nil_eq
  | cons a as =>
    have copies : a :: as = List.replicate (a :: as).length a :=
      List.eq_replicate_of_mem fun b mem => same b mem a List.mem_cons_self
    rw [copies] at perm ⊢
    exact (List.perm_replicate.mp perm.symm).symm

theorem named (h : Rearranged bs cs) (name? : Option String) :
    bs.filter (·.name? = name?) = cs.filter (·.name? = name?) := by
  cases name? with
  | none => exact h.texts
  | some name =>
    by_cases option : name ∈ optionNames
    · exact h.options name option
    · apply eq_of_perm (h.blocks.filter _)
      intro b mem c mem'
      have named : b.name? = some name := by simpa using (List.mem_filter.mp mem).2
      have named' : c.name? = some name := by simpa using (List.mem_filter.mp mem').2
      cases b with
      | flag n known =>
        obtain rfl := Option.some.inj named
        exact (Block.eq_flag known named').symm
      | option n _ known _ => exact absurd (Option.some.inj named ▸ known) option
      | text => cases named

/-- What a search for a name finds in a rearrangement: nothing in both, or the same block, without
which there is still a rearrangement. -/
theorem first (h : Rearranged bs cs) (name? : Option String) :
    ((∀ b ∈ bs, b.name? ≠ name?) ∧ ∀ b ∈ cs, b.name? ≠ name?) ∨
    ∃ before b after before' after', bs = before ++ b :: after ∧ cs = before' ++ b :: after' ∧
      b.name? = name? ∧ (∀ c ∈ before, c.name? ≠ name?) ∧ (∀ c ∈ before', c.name? ≠ name?) ∧
      Rearranged (before ++ after) (before' ++ after') := by
  have found := h.named name?
  cases first : cs.filter (·.name? = name?) with
  | nil =>
    rw [first] at found
    left
    constructor
    · simpa using List.filter_eq_nil_iff.mp found
    · simpa using List.filter_eq_nil_iff.mp first
  | cons b rest =>
    rw [first] at found
    right
    obtain ⟨before, after, rfl, lacking, own, _⟩ := List.filter_eq_cons_iff.mp found
    obtain ⟨before', after', rfl, lacking', _, _⟩ := List.filter_eq_cons_iff.mp first
    simp only [decide_eq_true_eq] at lacking lacking' own
    -- Without this block, every name is left with the same blocks in both lists.
    have others (key : Option String) : (before ++ after).filter (·.name? = key) =
        (before' ++ after').filter (·.name? = key) := by
      have both := h.named key
      by_cases here : b.name? = key
      · have empty : before.filter (·.name? = key) = [] := by
          simpa [List.filter_eq_nil_iff, ← here, own] using lacking
        have empty' : before'.filter (·.name? = key) = [] := by
          simpa [List.filter_eq_nil_iff, ← here, own] using lacking'
        simpa [empty, empty', here] using both
      · simpa [here] using both
    have rest : Rearranged (before ++ after) (before' ++ after') := by
      constructor
      · have perm := (List.perm_middle.symm.trans h.blocks).trans List.perm_middle
        exact perm.cons_inv
      · intro name _
        exact others (some name)
      · exact others none
    exact ⟨before, b, after, before', after', rfl, rfl, own, lacking, lacking', rest⟩

theorem takeFlag (h : Rearranged bs cs) (known : name ∈ flagNames) (known' : other ∈ flagNames) :
    ∃ found bs' cs', Rearranged bs' cs' ∧ takeFlag name other (line bs) = (found, line bs') ∧
      takeFlag name other (line cs) = (found, line cs') := by
  rcases h.first (some name) with ⟨none, none'⟩ |
    ⟨before, b, after, before', after', rfl, rfl, named, lacking, lacking', rest⟩
  · have free := not_mem_line (List.mem_append_left _ known) none
    have free' := not_mem_line (List.mem_append_left _ known) none'
    rcases h.first (some other) with ⟨lacking, lacking'⟩ |
      ⟨before, b, after, before', after', rfl, rfl, named, lacking, lacking', rest⟩
    · have both := takeFlag_lacking free (not_mem_line (List.mem_append_left _ known') lacking)
      have both' := takeFlag_lacking free' (not_mem_line (List.mem_append_left _ known') lacking')
      exact ⟨false, bs, cs, h, both, both'⟩
    · obtain rfl := Block.eq_flag known' named
      exact ⟨true, _, _, rest, takeFlag_second known' lacking free,
        takeFlag_second known' lacking' free'⟩
  · obtain rfl := Block.eq_flag known named
    exact ⟨true, _, _, rest, takeFlag_first known lacking, takeFlag_first known lacking'⟩

theorem takeOption (h : Rearranged bs cs) (known : name ∈ optionNames) :
    takeOption name (line bs) = .absent ∧ takeOption name (line cs) = .absent ∨
    ∃ value bs' cs', Rearranged bs' cs' ∧ takeOption name (line bs) = .value value (line bs') ∧
      takeOption name (line cs) = .value value (line cs') := by
  rcases h.first (some name) with ⟨lacking, lacking'⟩ |
    ⟨before, b, after, before', after', rfl, rfl, named, lacking, lacking', rest⟩
  · left
    constructor
    · exact takeOption_lacking (not_mem_line (List.mem_append_right _ known) lacking)
    · exact takeOption_lacking (not_mem_line (List.mem_append_right _ known) lacking')
  · right
    obtain ⟨value, free, rfl⟩ := Block.eq_option known named
    exact ⟨value, _, _, rest, takeOption_first known free lacking,
      takeOption_first known free lacking'⟩

theorem length_line (h : Rearranged bs cs) : (line bs).length = (line cs).length :=
  (h.blocks.flatMap_right _).length_eq

theorem eq_of_single (h : Rearranged bs cs) {text : String} (single : line bs = [text]) :
    line cs = [text] := by
  have perm : (line bs).Perm (line cs) := h.blocks.flatMap_right Block.args
  rw [single] at perm
  exact (List.singleton_perm.mp perm).symm

end Rearranged

end Formula.CommandLine
