import Formula.Proofs.CommandLine.Blocks

/-! Runs of the command line on rearranged arguments. Each step before the evaluation finds the same
in both lines and leaves a rearrangement again, and the evaluation starts when one text is left. -/
namespace Formula.CommandLine

variable {α β : Type} {files : String → Option String} {bs cs : List Block} {s t : Session}

theorem popFlag_eq (flag other : String) (s : Session) :
    popFlag flag other s =
      .ok (takeFlag flag other s.args).1 { s with args := (takeFlag flag other s.args).2 } := rfl

theorem popOption_eq (option : String) (s : Session) :
    popOption option s =
      match takeOption option s.args with
      | .absent => .ok none s
      | .missing => usage ("Missing value for " ++ option) s
      | .value v rest => .ok (some v) { s with args := rest } := by
  show (match takeOption option s.args with
    | .absent => pure none
    | .missing => usage ("Missing value for " ++ option)
    | .value v rest => do
      modify ({ · with args := rest })
      return some v : Run (Option String)) s = _
  cases takeOption option s.args <;> rfl

/-- Two runs that differ in the arrangement of the arguments that were not used yet. -/
structure Similar (s t : Session) : Prop where
  args : ∃ bs cs, Rearranged bs cs ∧ s.args = line bs ∧ t.args = line cs
  rest : t = { s with args := t.args }

inductive Matching : EStateM.Result Stop Session α → EStateM.Result Stop Session α → Prop where
  | ok (a : α) {s t : Session} (similar : Similar s t) : Matching (.ok a s) (.ok a t)
  | error (e : Stop) {s t : Session} : Matching (.error e s) (.error e t)

/-- A step that does not depend on the arrangement. -/
def Uniform (m : Run α) : Prop := ∀ s t, Similar s t → Matching (m s) (m t)

namespace Uniform

protected theorem pure (a : α) : Uniform (pure a : Run α) := fun _ _ similar => .ok a similar

protected theorem throw (e : Stop) : Uniform (throw e : Run α) := fun _ _ _ => .error e

protected theorem bind {m : Run α} {f : α → Run β} (hm : Uniform m) (hf : ∀ a, Uniform (f a)) :
    Uniform (m >>= f) := by
  intro s t similar
  have first := hm s t similar
  show Matching (EStateM.bind m f s) (EStateM.bind m f t)
  simp only [EStateM.bind]
  generalize m s = r, m t = r' at first
  cases first with
  | ok a similar => exact hf a _ _ similar
  | error e => exact .error e

protected theorem usage (message : Option String) : Uniform (usage message : Run α) := by
  intro s t similar
  have errors : t.errors = s.errors := by rw [similar.rest]
  simp only [usage, errors]
  exact .error _

protected theorem modify {f : Session → Session}
    (apart : ∀ s args, f { s with args := args } = { f s with args := args }) :
    Uniform (modify f) := by
  intro s t similar
  have kept (s : Session) : (f s).args = s.args := by
    have same : f s = { f s with args := s.args } := apart s s.args
    rw [same]
  have same : f t = { f s with args := t.args } := by
    rw [similar.rest]
    exact apart s t.args
  obtain ⟨bs, cs, rearranged, written, written'⟩ := similar.args
  have similar' : Similar (f s) (f t) := by
    constructor
    · exact ⟨bs, cs, rearranged, (kept s).trans written, (kept t).trans written'⟩
    · rw [same]
  exact .ok () similar'

protected theorem log (text : String) : Uniform (log text) := by
  apply Uniform.modify
  intro s args
  dsimp only
  split <;> rfl

protected theorem popFlag {flag other : String} (known : flag ∈ flagNames)
    (known' : other ∈ flagNames) :
    Uniform (popFlag flag other) := by
  intro s t similar
  obtain ⟨bs, cs, rearranged, written, written'⟩ := similar.args
  obtain ⟨found, bs', cs', rearranged', taken, taken'⟩ := rearranged.takeFlag known known'
  rw [popFlag_eq, popFlag_eq, written, written', taken, taken']
  apply Matching.ok found
  constructor
  · exact ⟨bs', cs', rearranged', rfl, rfl⟩
  · rw [similar.rest]

protected theorem popOption {option : String} (known : option ∈ optionNames) :
    Uniform (popOption option) := by
  intro s t similar
  obtain ⟨bs, cs, rearranged, written, written'⟩ := similar.args
  rw [popOption_eq, popOption_eq, written, written']
  rcases rearranged.takeOption known with ⟨absent, absent'⟩ |
    ⟨value, bs', cs', rearranged', taken, taken'⟩
  · rw [absent, absent']
    exact .ok none similar
  · rw [taken, taken']
    apply Matching.ok (some value)
    constructor
    · exact ⟨bs', cs', rearranged', rfl, rfl⟩
    · rw [similar.rest]

protected theorem popFlags : Uniform popFlags := by
  have verbose : Uniform
      (do if ← popFlag "-v" "--verbose" then modify ({ · with isVerbose := true })) := by
    apply Uniform.bind (.popFlag (by decide) (by decide))
    intro wanted
    cases wanted
    · exact .pure ()
    · exact .modify (f := ({ · with isVerbose := true })) fun _ _ => rfl
  apply Uniform.bind (.popFlag (by decide) (by decide))
  intro wanted
  cases wanted
  · exact verbose
  · exact .bind (.throw _) fun _ => verbose

protected theorem loadConfig (files : String → Option String) : Uniform (loadConfig files) := by
  apply Uniform.bind (.popOption (by decide))
  intro path
  split
  · exact .pure _
  · exact .pure _
  · split
    · exact .throw _
    · exact .bind (.log _) fun _ => .pure _

protected theorem changeConfig (c : Config) : Uniform (changeConfig c) := by
  have strict (c : Config) : Uniform (do
      return if ← popFlag "--strict" "--strict" then { c with isStrict := true } else c) :=
    .bind (.popFlag (by decide) (by decide)) fun _ => .pure _
  apply Uniform.bind (.popFlag (by decide) (by decide))
  intro precise
  apply Uniform.bind (.popOption (by decide))
  intro digits
  cases digits with
  | none => exact strict _
  | some text =>
    dsimp only
    split
    · exact strict _
    · exact .bind (.usage _) strict

protected theorem popDefinitions (fuel : Nat) : Uniform (popDefinitions fuel) := by
  induction fuel with
  | zero => exact .pure []
  | succ fuel ih =>
    apply Uniform.bind (.popOption (by decide))
    intro text
    cases text with
    | none => exact .pure []
    | some text =>
      dsimp only
      split
      · exact .usage _
      · exact .bind ih fun _ => .pure _

end Uniform

def outcome : EStateM.Result Stop Session Outcome → Except Fault Outcome
  | .ok o _ => .ok o
  | .error (.exit o) _ => .ok o
  | .error (.fault f) _ => .error f

theorem outcome_bind {m : Run α} {f : α → Run Outcome} (uniform : Uniform m)
    (ends : ∀ a s t, Similar s t → outcome (f a s) = outcome (f a t)) (similar : Similar s t) :
    outcome ((m >>= f) s) = outcome ((m >>= f) t) := by
  have first := uniform s t similar
  show outcome (EStateM.bind m f s) = outcome (EStateM.bind m f t)
  simp only [EStateM.bind]
  generalize m s = r, m t = r' at first
  cases first with
  | ok a similar => exact ends a _ _ similar
  | error e => cases e <;> rfl

def conclude (c : Config) (definitions : List (String × String)) : Run Outcome := do
  match (← (get : Run Session)).args with
  | [text] => evaluate c definitions text
  | _ => usage none

theorem conclude_other {c : Config} {definitions : List (String × String)}
    (other : ∀ text, s.args ≠ [text]) :
    conclude c definitions s = usage none s := by
  show
    (match s.args with
      | [text] => evaluate c definitions text
      | _ => usage none : Run Outcome) s = _
  rcases written : s.args with _ | ⟨text, _ | ⟨next, rest⟩⟩
  · rfl
  · exact absurd written (other text)
  · rfl

/-- Either one text is left in both runs, which are then at the same point, or neither has the
arguments it needs. -/
theorem outcome_conclude (c : Config) (definitions : List (String × String))
    (similar : Similar s t) :
    outcome (conclude c definitions s) = outcome (conclude c definitions t) := by
  obtain ⟨bs, cs, rearranged, written, written'⟩ := similar.args
  -- One text alone is the same in both runs; anything else ends both with the same message.
  by_cases single : ∃ text, s.args = [text]
  · obtain ⟨text, single⟩ := single
    have single' : t.args = [text] :=
      written'.trans (rearranged.eq_of_single (written.symm.trans single))
    have same : t = s := by rw [similar.rest, single', ← single]
    rw [same]
  · have other : ∀ text, s.args ≠ [text] := fun text single' => single ⟨text, single'⟩
    have other' : ∀ text, t.args ≠ [text] := fun text single' =>
      other text (written.trans (rearranged.symm.eq_of_single (written'.symm.trans single')))
    have errors : t.errors = s.errors := by rw [similar.rest]
    rw [conclude_other other, conclude_other other']
    simp only [usage, errors, outcome]

theorem outcome_perform (files : String → Option String) (similar : Similar s t) :
    outcome (perform files s) = outcome (perform files t) := by
  apply outcome_bind .popFlags ?_ similar
  intro _ s t similar
  apply outcome_bind (.loadConfig files) ?_ similar
  intro c s t similar
  apply outcome_bind (.changeConfig c) ?_ similar
  intro c s t similar
  obtain ⟨bs, cs, rearranged, written, written'⟩ := similar.args
  have count : t.args.length = s.args.length := by rw [written, written', rearranged.length_line]
  show outcome ((popDefinitions s.args.length >>= conclude c) s) =
    outcome ((popDefinitions t.args.length >>= conclude c) t)
  rw [count]
  exact outcome_bind (.popDefinitions _)
    (fun definitions s t => outcome_conclude c definitions) similar

/-- Options may stand anywhere: a run has the same outcome for every rearrangement of its flags, of
its options with their values and of its texts that keeps the order of the values of each option and
the order of the texts. -/
theorem run_rearranged (files : String → Option String) (h : Rearranged bs cs) :
    run files (line bs) = run files (line cs) := by
  have similar : Similar { args := line bs } { args := line cs } := ⟨⟨bs, cs, h, rfl, rfl⟩, rfl⟩
  have same := outcome_perform files similar
  have ends (args : List String) : run files args = outcome (perform files { args := args }) := by
    rw [run]
    cases perform files { args := args } with
    | ok o t => rfl
    | error e t => cases e <;> rfl
  rw [ends, ends, same]

def spread : List Block :=
  [.option "-D" "a=2" (by decide) (by decide), .flag "--strict" (by decide),
    .text "a < b" (by decide),
    .option "-D" "b=3" (by decide) (by decide)]

def gathered : List Block :=
  [.text "a < b" (by decide), .option "-D" "a=2" (by decide) (by decide),
    .option "-D" "b=3" (by decide) (by decide), .flag "--strict" (by decide)]

theorem run_rearranged_spread :
    line spread = ["-D", "a=2", "--strict", "a < b", "-D", "b=3"] ∧
      line gathered = ["a < b", "-D", "a=2", "-D", "b=3", "--strict"] ∧ Rearranged spread gathered ∧
      run (fun _ => none) (line gathered) = .ok { code := 0, output := "1.0\n" } ∧
      run (fun _ => none) (line spread) = .ok { code := 0, output := "1.0\n" } := by
  have rearranged : Rearranged spread gathered := by
    constructor
    · decide
    · decide
    · decide
  have value : run (fun _ => none) (line gathered) = .ok { code := 0, output := "1.0\n" } := by
    decide +kernel
  exact ⟨rfl, rfl, rearranged, value, (run_rearranged _ rearranged).trans value⟩

end Formula.CommandLine
