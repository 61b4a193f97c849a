import Mathlib.Data.List.Nodup
import Mathlib.Tactic.MkIffOfInductiveProp
import Formula.Ini

/-! Well-formed settings files. What a file consists of are the headers of its sections and the
names of its options; blank lines, comments, and the further lines of a value are passed over. A
file can be read exactly if all options stand in sections, and no section and no option of a section
is there twice. -/
namespace Formula

def IniFault.isSyntactic : IniFault → Bool
  | .missingSectionHeader | .malformedLine | .duplicateOption | .duplicateSection => true
  | .interpolationForm | .interpolationUnknownOption | .interpolationDepth => false

namespace Ini

inductive Head where
  | section_ (name : String)
  | option (name : String)
  | other
deriving DecidableEq

namespace Head

def ofValue (value : List Char) : Head :=
  match header? value with
  | some name => .section_ name
  | none =>
    match option? value with
    | some (name, _) => .option name
    | none => .other

def opens? : Head → Option String
  | .section_ name => if name = defaultName then none else some name
  | _ => none

def IsSection : Head → Prop
  | .section_ _ => True
  | _ => False

def IsNamed : Head → Prop
  | .section_ _ => True
  | .option name => name ≠ ""
  | .other => False

instance : DecidablePred IsSection := fun h => by cases h <;> unfold IsSection <;> infer_instance

instance : DecidablePred IsNamed := fun h => by cases h <;> unfold IsNamed <;> infer_instance

end Head

def isQuiet : List Char → Bool
  | [] | '#' :: _ | ';' :: _ => true
  | _ => false

def indentation (line : List Char) : Nat := (line.takeWhile Text.isBlank).length

/-- Nothing begins with a line, where an option of some indentation may have begun before: a line
that is indented further belongs to the value of that option. -/
def passes (begun : Option Nat) (line : List Char) : Bool :=
  isQuiet (Text.strip line) || begun.any (· < indentation line)

def heads : Option Nat → List (List Char) → List Head
  | _, [] => []
  | begun, line :: rest =>
    if passes begun line then heads begun rest
    else
      match Head.ofValue (Text.strip line) with
      | .option name => .option name :: heads (some (indentation line)) rest
      | head => head :: heads none rest

def placed : String → List Head → List (String × String)
  | _, [] => []
  | _, .section_ name :: rest => placed name rest
  | current, .option name :: rest => (current, name) :: placed current rest
  | current, .other :: rest => placed current rest

@[mk_iff]
structure IsOrderly (hs : List Head) : Prop where
  named : ∀ h ∈ hs, h.IsNamed
  begins : ∀ h ∈ hs.head?, h.IsSection
  sections : (hs.filterMap Head.opens?).Nodup
  options : (placed "" hs).Nodup

/-- A settings file that can be read. -/
def IsWellFormed (text : String) : Prop := IsOrderly (heads none (lines text.toList))

instance (hs : List Head) : Decidable (IsOrderly hs) :=
  decidable_of_iff' _ (isOrderly_iff hs)

instance (text : String) : Decidable (IsWellFormed text) :=
  inferInstanceAs (Decidable (IsOrderly _))

variable {d d' : Draft} {line : List Char} {ls : List (List Char)} {hs : List Head}
  {name value : String}

def AreNew {α : Type} (as seen : List α) : Prop := as.Nodup ∧ ∀ a ∈ as, a ∉ seen

theorem areNew_cons {α : Type} {a : α} {as seen : List α} (fresh : a ∉ seen) :
    AreNew (a :: as) seen ↔ AreNew as (a :: seen) := by
  constructor
  · rintro ⟨distinct, new⟩
    obtain ⟨first, distinct⟩ := List.nodup_cons.mp distinct
    refine ⟨distinct, fun b mem =>
      List.not_mem_cons_of_ne_of_not_mem ?_ (new b (List.mem_cons_of_mem a mem))⟩
    rintro rfl
    exact first mem
  · rintro ⟨distinct, new⟩
    have first : a ∉ as := fun mem => new a mem List.mem_cons_self
    refine ⟨List.nodup_cons.mpr ⟨first, distinct⟩, fun b mem => ?_⟩
    rcases List.mem_cons.mp mem with rfl | mem
    · exact fresh
    · exact fun old => new b mem (List.mem_cons_of_mem a old)

namespace Draft

/-- The indentation of the option of which more lines may follow. -/
def begun (d : Draft) : Option Nat := if d.opened.isSome then some d.indent else none

/-- What may follow what was read so far. -/
@[mk_iff]
structure Fits (d : Draft) (hs : List Head) : Prop where
  clear : d.malformed = false
  named : ∀ h ∈ hs, h.IsNamed
  begins : d.current = none → ∀ h ∈ hs.head?, h.IsSection
  sections : AreNew (hs.filterMap Head.opens?) d.seenSections
  options : AreNew (placed (d.current.getD "") hs) d.seenOptions

/-- A draft at a line with which something begins. What was read of a value before is part of the
file. -/
def moved (d : Draft) (ini : Ini) (line : List Char) : Draft :=
  { d with ini := ini, indent := indentation line }

inductive Step (d : Draft) (line : List Char) : Except Fault Draft → Prop where
  | passing {opened : Option (String × List String)} (pass : passes d.begun line = true)
    (still : opened.isSome = d.opened.isSome) : Step d line (.ok { d with opened := opened })
  | section_ {name : String} (ini : Ini) (begins : passes d.begun line = false)
    (head : Head.ofValue (Text.strip line) = .section_ name) :
    Step d line ((d.moved ini line).openSection name)
  | unplaced (begins : passes d.begun line = false)
      (head : ¬ (Head.ofValue (Text.strip line)).IsSection)
    (none : d.current = none) : Step d line (.error (.ini .missingSectionHeader))
  | option {name : String} (text : String) (ini : Ini) (begins : passes d.begun line = false)
    (head : Head.ofValue (Text.strip line) = .option name) (placed : d.current.isSome) :
    Step d line ((d.moved ini line).openOption name text)
  | other (ini : Ini) (begins : passes d.begun line = false)
      (head : Head.ofValue (Text.strip line) = .other) :
    Step d line (.ok { d.moved ini line with malformed := true })

theorem save_eq (d : Draft) : ∃ ini, d.save = { d with ini := ini } := by
  unfold save
  split
  · exact ⟨_, rfl⟩
  · exact ⟨d.ini, rfl⟩

theorem passes_loud (d : Draft) (loud : isQuiet (Text.strip line) = false) :
    passes d.begun line = (d.opened.isSome && decide (d.indent < indentation line)) := by
  unfold passes begun
  rw [loud]
  cases d.opened.isSome <;> rfl

theorem read_step (d : Draft) (line : List Char) : Step d line (d.read line) := by
  obtain ⟨ini, saved⟩ := d.save_eq
  simp only [read]
  split
  · rename_i blank
    exact .passing (by simp [passes, blank, isQuiet]) (by simp)
  · rename_i comment
    exact .passing (by simp [passes, comment, isQuiet]) (Eq.refl d.opened.isSome)
  · rename_i comment
    exact .passing (by simp [passes, comment, isQuiet]) (Eq.refl d.opened.isSome)
  · rename_i blank number semicolon
    have loud : isQuiet (Text.strip line) = false := by
      unfold isQuiet
      split <;> simp_all
    have pass := passes_loud d loud
    split
    · rename_i further
      exact .passing (pass.trans further) (by simp)
    · rename_i first
      have begins : passes d.begun line = false := pass.trans (Bool.eq_false_iff.mpr first)
      rw [saved]
      split
      · rename_i name header
        exact .section_ ini begins (by simp only [Head.ofValue, header])
      · rename_i header
        split
        · rename_i none
          refine .unplaced begins ?_ (by simpa using none)
          cases option : option? (Text.strip line)
            <;> simp [Head.ofValue, header, option, Head.IsSection]
        · rename_i some
          split
          · rename_i name text option
            have placed : d.current.isSome := by simpa [Option.isSome_iff_ne_none] using some
            exact .option text ini begins (by simp only [Head.ofValue, header, option]) placed
          · rename_i option
            exact .other ini begins (by simp only [Head.ofValue, header, option])

theorem fits_section (current : d'.current = some name) (clear : d'.malformed = d.malformed)
    (sections : d'.seenSections = (Head.section_ name).opens?.toList ++ d.seenSections)
    (options : d'.seenOptions = d.seenOptions) (fresh : name ∉ d.seenSections) :
    d.Fits (.section_ name :: hs) ↔ d'.Fits hs := by
  have new : AreNew ((Head.section_ name :: hs).filterMap Head.opens?) d.seenSections ↔
      AreNew (hs.filterMap Head.opens?) d'.seenSections := by
    by_cases usual : name = defaultName
    · simp [sections, Head.opens?, usual]
    · have opens : (Head.section_ name).opens? = some name := if_neg usual
      rw [List.filterMap_cons_some opens, areNew_cons fresh, sections, opens]
      rfl
  rw [fits_iff, fits_iff, new, current, clear, options]
  simp [placed, Head.IsNamed, Head.IsSection]

theorem fits_option (some : d.current.isSome) (current : d'.current = d.current)
    (clear : d'.malformed = (d.malformed || decide (name = "")))
    (sections : d'.seenSections = d.seenSections)
    (options : d'.seenOptions = (d.current.getD "", name) :: d.seenOptions)
    (fresh : (d.current.getD "", name) ∉ d.seenOptions) :
    d.Fits (.option name :: hs) ↔ d'.Fits hs := by
  have present : d.current ≠ none := Option.isSome_iff_ne_none.mp some
  rw [fits_iff, fits_iff, current, clear, options, sections, placed, areNew_cons fresh]
  simp [Head.IsNamed, present, Head.opens?]
  tauto

theorem Fits.congr (current : d'.current = d.current) (clear : d'.malformed = d.malformed)
    (sections : d'.seenSections = d.seenSections) (options : d'.seenOptions = d.seenOptions) :
    d'.Fits hs ↔ d.Fits hs := by
  rw [fits_iff, fits_iff, current, clear, options, sections]

theorem openSection_fits (d : Draft) (apart : defaultName ∉ d.seenSections) (name : String)
    (ls : List (List Char)) :
    match d.openSection name with
    | .ok d' =>
      (d.Fits (.section_ name :: heads none ls) ↔ d'.Fits (heads d'.begun ls)) ∧
        defaultName ∉ d'.seenSections
    | .error _ => ¬ d.Fits (.section_ name :: heads none ls) := by
  by_cases seen : name ∈ d.seenSections
  · have opens : (Head.section_ name).opens? = some name :=
      if_neg fun (usual : name = defaultName) => apart (usual ▸ seen)
    simp only [openSection, List.contains_iff_mem, seen, if_true]
    intro fits
    have new := fits.sections.2 name
    rw [List.filterMap_cons_some opens] at new
    exact new List.mem_cons_self seen
  · simp only [openSection, List.contains_iff_mem, seen, if_false]
    by_cases usual : name = defaultName
    · rw [if_pos usual]
      exact ⟨fits_section rfl rfl (by simp [Head.opens?, usual]) rfl seen, apart⟩
    · rw [if_neg usual]
      refine ⟨fits_section rfl rfl (by simp [Head.opens?, usual]) rfl seen, ?_⟩
      exact List.not_mem_cons_of_ne_of_not_mem (Ne.symm usual) apart

theorem openOption_fits (d : Draft) (placed : d.current.isSome) (name text : String)
    (ls : List (List Char)) :
    match d.openOption name text with
    | .ok d' =>
      (d.Fits (.option name :: heads (some d.indent) ls) ↔ d'.Fits (heads d'.begun ls)) ∧
        d'.seenSections = d.seenSections
    | .error _ => ¬ d.Fits (.option name :: heads (some d.indent) ls) := by
  by_cases seen : (d.current.getD "", name) ∈ d.seenOptions
  · simp only [openOption, List.contains_iff_mem, seen, if_true]
    intro fits
    exact fits.options.2 _ List.mem_cons_self seen
  · simp only [openOption, List.contains_iff_mem, seen, if_false]
    by_cases unnamed : name = ""
    · refine ⟨⟨fun fits => ?_, fun fits => ?_⟩, trivial⟩
      · exact absurd unnamed (fits.named _ List.mem_cons_self)
      · have clear := fits.clear
        simp [unnamed] at clear
    · rw [if_neg unnamed]
      exact ⟨fits_option placed rfl rfl rfl rfl seen, trivial⟩

/-- What fits before a line fits after it, and nothing fits before a line that cannot be read. -/
theorem read_fits (d : Draft) (apart : defaultName ∉ d.seenSections) (line : List Char)
    (ls : List (List Char)) :
    match d.read line with
    | .ok d' =>
      (d.Fits (heads d.begun (line :: ls)) ↔ d'.Fits (heads d'.begun ls)) ∧
        defaultName ∉ d'.seenSections
    | .error _ => ¬ d.Fits (heads d.begun (line :: ls)) := by
  have step := read_step d line
  have written (ini : Ini) (hs : List Head) : d.Fits hs ↔ (d.moved ini line).Fits hs :=
    Fits.congr rfl rfl rfl rfl
  rw [heads]
  generalize d.read line = result at step
  -- How the line was read says what begins with it.
  cases step with
  | @passing opened pass still =>
    have begun : begun { d with opened := opened } = d.begun := by simp only [Draft.begun, still]
    rw [if_pos pass]
    dsimp only
    rw [begun]
    exact ⟨Fits.congr rfl rfl rfl rfl, apart⟩
  | @section_ name ini begins head =>
    simp only [begins, Bool.false_eq_true, if_false, head, written ini]
    exact openSection_fits (d.moved ini line) apart name ls
  | unplaced begins head none =>
    simp only [begins, Bool.false_eq_true, if_false]
    intro fits
    have first := fits.begins none
    cases kind : Head.ofValue (Text.strip line) <;> simp_all [Head.IsSection]
  | @option name text ini begins head placed =>
    simp only [begins, Bool.false_eq_true, if_false, head, written ini]
    have fits := openOption_fits (d.moved ini line) placed name text ls
    cases result : (d.moved ini line).openOption name text with
    | ok d' =>
      rw [result] at fits
      exact ⟨fits.1, fits.2 ▸ apart⟩
    | error f =>
      rw [result] at fits
      exact fits
  | other ini begins head =>
    simp only [begins, Bool.false_eq_true, if_false, head]
    refine ⟨⟨fun fits => ?_, fun fits => ?_⟩, apart⟩
    · exact (fits.named _ List.mem_cons_self).elim
    · cases fits.clear

theorem foldlM_read (ls : List (List Char)) (d : Draft) (apart : defaultName ∉ d.seenSections) :
    (∃ d', ls.foldlM read d = .ok d' ∧ d'.malformed = false) ↔ d.Fits (heads d.begun ls) := by
  induction ls generalizing d with
  | nil =>
    simp [heads, fits_iff, AreNew, placed, pure, Except.pure]
  | cons line ls ih =>
    have step := read_fits d apart line ls
    rw [List.foldlM_cons]
    cases result : d.read line with
    | ok d₁ =>
      rw [result] at step
      rw [step.1, ← ih d₁ step.2]
      rfl
    | error f =>
      rw [result] at step
      simp [step, bind, Except.bind]

theorem read_error {f : Fault} (refused : d.read line = .error f) :
    ∃ cause : IniFault, cause.isSyntactic = true ∧ f = .ini cause := by
  have step := read_step d line
  rw [refused] at step
  generalize failed : (Except.error f : Except Fault Draft) = result at step
  cases step with
  | passing | other => cases failed
  | unplaced =>
    cases failed
    exact ⟨.missingSectionHeader, rfl, rfl⟩
  | section_ =>
    unfold openSection at failed
    dsimp only at failed
    split at failed
    · cases failed
      exact ⟨.duplicateSection, rfl, rfl⟩
    · split at failed <;> cases failed
  | option =>
    unfold openOption at failed
    dsimp only at failed
    split at failed
    · cases failed
      exact ⟨.duplicateOption, rfl, rfl⟩
    · cases failed

theorem foldlM_read_error {f : Fault} (refused : ls.foldlM read d = .error f) :
    ∃ cause : IniFault, cause.isSyntactic = true ∧ f = .ini cause := by
  induction ls generalizing d with
  | nil => cases refused
  | cons line ls ih =>
    rw [List.foldlM_cons] at refused
    cases result : d.read line with
    | ok d₁ =>
      rw [result] at refused
      exact ih refused
    | error f' =>
      rw [result] at refused
      cases refused
      exact read_error result

end Draft

/-- A file can be read exactly if it is well-formed, whatever was read before. -/
theorem read_ok_iff (ini : Ini) (text : String) :
    (∃ ini', ini.read text = .ok ini') ↔ IsWellFormed text := by
  have orderly (hs : List Head) : Draft.Fits { ini := ini } hs ↔ IsOrderly hs := by
    rw [Draft.fits_iff, isOrderly_iff]
    simp [AreNew]
  have whole := Draft.foldlM_read (lines text.toList) { ini := ini } (by simp)
  rw [orderly] at whole
  rw [IsWellFormed, ← show Draft.begun { ini := ini } = none from rfl, ← whole, read]
  cases (lines text.toList).foldlM Draft.read { ini := ini } with
  | error f => simp [bind, Except.bind]
  | ok d =>
    cases malformed : d.malformed <;>
      simp [bind, Except.bind, malformed, throw, throwThe, MonadExceptOf.throw, pure, Except.pure]

example : IsWellFormed "# both\n[DEFAULT]\na = 1\n  2\n[b]\na: 1\n" ∧ ¬ IsWellFormed "x = 1\n" := by
  decide +kernel

theorem read_error {ini : Ini} {text : String} {f : Fault} (refused : ini.read text = .error f) :
    ∃ cause : IniFault, cause.isSyntactic = true ∧ f = .ini cause := by
  rw [read] at refused
  cases result : (lines text.toList).foldlM Draft.read { ini := ini } with
  | error f' =>
    simp only [result, bind, Except.bind] at refused
    cases refused
    exact Draft.foldlM_read_error result
  | ok d =>
    simp only [result, bind, Except.bind] at refused
    cases malformed : d.malformed <;> simp only [malformed] at refused
    · cases refused
    · cases refused
      exact ⟨.malformedLine, rfl, rfl⟩

end Ini

end Formula
