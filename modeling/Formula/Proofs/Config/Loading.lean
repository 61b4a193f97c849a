import Mathlib.Data.Set.Insert
import Formula.Config
import Formula.Proofs.Ini.Interpolation

/-! How loading a configuration ends. Beside a missing file and settings that are unknown or
malformed, there are two kinds of faults: a file that is not well-formed, and a value that refers to
other values in a wrong way. -/
namespace Formula

def Fault.isOfSetting : Fault → Bool
  | .unknownLexerSetting _ | .unknownParserSettings _ | .malformedValue => true
  | _ => false

namespace Config

variable {α β : Type} {files : String → Option String} {path : String} {ini : Ini}
  {options : Ini.Options}
  {used used' : Set (Ini.Options × String)}

/-- A computation that needs the values of some options: it has a result only if all of them can be
told, and it fails if one of them cannot, or for a setting. -/
structure Needs (used : Set (Ini.Options × String)) (x : Except Fault α) : Prop where
  ok : ∀ a, x = .ok a → ∀ o ∈ used, Ini.Resolves o.1 o.2
  error : ∀ f, x = .error f → f.isOfSetting = true ∨
    ∃ cause : IniFault, cause.isSyntactic = false ∧ f = .ini cause ∧
      ∃ o ∈ used, ¬ Ini.Resolves o.1 o.2

namespace Needs

theorem ofOk (a : α) : Needs ∅ (.ok a) := by
  constructor
  · intro _ _ o mem
    exact absurd mem (Set.notMem_empty o)
  · intro f failed
    cases failed

theorem ofError {f : Fault} (setting : f.isOfSetting = true) :
    Needs used (.error f : Except Fault α) := by
  constructor
  · intro a same
    cases same
  · intro f' same
    cases same
    exact .inl setting

theorem ofConversion {x : Except Fault α} (settings : ∀ f, x = .error f → f.isOfSetting = true) :
    Needs ∅ x := by
  cases x with
  | ok a => exact ofOk a
  | error f => exact ofError (settings f rfl)

theorem bind {x : Except Fault α} {f : α → Except Fault β} (first : Needs used x)
    (next : ∀ a, Needs used' (f a)) :
    Needs (used ∪ used') (x >>= f) := by
  cases x with
  | error f' =>
    constructor
    · intro b same
      cases same
    · intro g same
      cases same
      rcases first.error f' rfl with setting | ⟨cause, kind, same, o, mem, unresolved⟩
      · exact .inl setting
      · exact .inr ⟨cause, kind, same, o, .inl mem, unresolved⟩
  | ok a =>
    constructor
    · intro b same o mem
      rcases mem with mem | mem
      · exact first.ok a rfl o mem
      · exact (next a).ok b same o mem
    · intro g failed
      rcases (next a).error g failed with setting | ⟨cause, kind, same, o, mem, unresolved⟩
      · exact .inl setting
      · exact .inr ⟨cause, kind, same, o, .inr mem, unresolved⟩

theorem value? (options : Ini.Options) (name : String) :
    Needs {(options, name)} (Ini.value? options name) := by
  have resolves := Ini.value?_ok_iff options name
  constructor
  · rintro value told o rfl
    exact resolves.mp ⟨value, told⟩
  · intro f failed
    obtain ⟨cause, kind, same⟩ := Ini.value?_error failed
    refine .inr ⟨cause, kind, same, (options, name), rfl, fun resolved => ?_⟩
    obtain ⟨value, told⟩ := resolves.mpr resolved
    rw [failed] at told
    cases told

theorem mapM {f : String → Except Fault α} (each : ∀ name, Needs {(options, name)} (f name))
    (names : List String) :
    Needs {o | o.1 = options ∧ o.2 ∈ names} (names.mapM f) := by
  induction names with
  | nil =>
    have none : {o : Ini.Options × String | o.1 = options ∧ o.2 ∈ ([] : List String)} = ∅ := by simp
    rw [none]
    exact ofOk []
  | cons name names ih =>
    have all : {o : Ini.Options × String | o.1 = options ∧ o.2 ∈ name :: names} =
        {(options, name)} ∪ ({o | o.1 = options ∧ o.2 ∈ names} ∪ ∅) := by
      ext o
      simp [Prod.ext_iff]
      tauto
    rw [List.mapM_cons, all]
    exact (each name).bind fun b => ih.bind fun bs => ofOk (b :: bs)

end Needs

theorem readFlag_error {text : String} {f : Fault} (failed : readFlag text = .error f) :
    f.isOfSetting = true := by
  unfold readFlag at failed
  split at failed <;> cases failed
  rfl

theorem readSetting_error {name text : String} {f : Fault}
    (failed : readSetting name text = .error f) :
    f.isOfSetting = true := by
  unfold readSetting at failed
  split at failed
  case h_1 | h_2 =>
    cases flag : readFlag text with
    | ok b =>
      rw [flag] at failed
      cases failed
    | error f' =>
      rw [flag] at failed
      cases failed
      exact readFlag_error flag
  all_goals cases failed

theorem lexerSetting_needs (options : Ini.Options) (name : String) :
    Needs {(options, name)} (lexerSetting options name) := by
  have whole : {(options, name)} = {(options, name)} ∪ ((∅ : Set (Ini.Options × String)) ∪ ∅) := by
    simp
  unfold lexerSetting
  by_cases known : Lexer.Settings.names.contains name
  · rw [whole]
    simp only [known, Bool.not_true, Bool.false_eq_true, if_false]
    exact (Needs.value? options name).bind fun value =>
      (Needs.ofConversion fun f => readSetting_error).bind fun x => .ofOk (name, x)
  · simp only [known, Bool.not_false, if_true]
    exact .ofError rfl

theorem flag_needs (options : Ini.Options) (name : String) (usual : Bool) :
    Needs {(options, name)} (flag options name usual) := by
  rw [← Set.union_empty {(options, name)}]
  apply (Needs.value? options name).bind
  intro value
  cases value with
  | none => exact .ofOk usual
  | some text => exact .ofConversion fun f => readFlag_error

theorem number_needs (options : Ini.Options) (name : String) :
    Needs {(options, name)} (number options name) := by
  rw [← Set.union_empty {(options, name)}]
  apply (Needs.value? options name).bind
  intro value
  cases value with
  | none => exact .ofOk none
  | some text =>
    dsimp only
    split
    · exact .ofOk _
    · exact .ofError rfl

theorem withParserOptions_needs (c : Config) (options : Ini.Options) :
    Needs {o | o.1 = options ∧ o.2 ∈ parserOptions} (c.withParserOptions options) := by
  have each : {o : Ini.Options × String | o.1 = options ∧ o.2 ∈ parserOptions} =
      {(options, "use_mp")} ∪ ({(options, "dps")} ∪
        ({(options, "strict")} ∪ ({(options, "fail_on_warnings")} ∪ ∅))) := by
    ext o
    simp [parserOptions, Prod.ext_iff]
    tauto
  unfold withParserOptions
  cases unknown : ((options.map (·.1)).filter (!parserOptions.contains ·)).isEmpty with
  | true =>
    simp only [unknown, Bool.not_true, Bool.false_eq_true, if_false]
    rw [each]
    exact (flag_needs options "use_mp" false).bind fun precise =>
      (number_needs options "dps").bind fun digits =>
      (flag_needs options "strict" false).bind fun strict =>
        (flag_needs options "fail_on_warnings" true).bind fun warnings => .ofOk _
  | false =>
    simp only [unknown, Bool.not_false, if_true]
    exact .ofError rfl

def lexerPart (ini : Ini) : Except Fault (List (String × Lexer.SettingValue)) :=
  match ini.optionsOf "tokenizer" with
  | some options => lexerSettings options
  | none => .ok []

def parserPart (ini : Ini) (c : Config) : Except Fault Config :=
  match ini.optionsOf "parser" with
  | some options => c.withParserOptions options
  | none => .ok c

theorem ofIni_eq (ini : Ini) :
    ofIni ini = lexerPart ini >>= fun settings => parserPart ini { settings := settings } := by
  unfold ofIni lexerPart
  cases ini.optionsOf "tokenizer" <;> rfl

theorem lexerPart_needs (ini : Ini) :
    Needs {o | ini.optionsOf "tokenizer" = some o.1 ∧ o.2 ∈ o.1.map (·.1)} (lexerPart ini) := by
  unfold lexerPart
  cases ini.optionsOf "tokenizer" with
  | none => simpa using Needs.ofOk (α := List (String × Lexer.SettingValue)) []
  | some options =>
    have same : {o : Ini.Options × String | some options = some o.1 ∧ o.2 ∈ o.1.map (·.1)} =
        {o | o.1 = options ∧ o.2 ∈ options.map (·.1)} := by
      ext ⟨own, name⟩
      constructor
      · rintro ⟨⟨⟩, mem⟩
        exact ⟨rfl, mem⟩
      · rintro ⟨rfl, mem⟩
        exact ⟨rfl, mem⟩
    rw [same]
    exact Needs.mapM (lexerSetting_needs options) (options.map (·.1))

theorem parserPart_needs (ini : Ini) (c : Config) :
    Needs {o | ini.optionsOf "parser" = some o.1 ∧ o.2 ∈ parserOptions} (parserPart ini c) := by
  unfold parserPart
  cases ini.optionsOf "parser" with
  | none => simpa using Needs.ofOk c
  | some options =>
    have same : {o : Ini.Options × String | some options = some o.1 ∧ o.2 ∈ parserOptions} =
        {o | o.1 = options ∧ o.2 ∈ parserOptions} := by
      ext o
      simp [eq_comm]
    rw [same]
    exact withParserOptions_needs c options

/-- The values that a configuration is told from: all options of the one section, and the known ones
of the other. -/
def usedBy (ini : Ini) : Set (Ini.Options × String) :=
  {o | ini.optionsOf "tokenizer" = some o.1 ∧ o.2 ∈ o.1.map (·.1)} ∪
    {o | ini.optionsOf "parser" = some o.1 ∧ o.2 ∈ parserOptions}

theorem ofIni_needs (ini : Ini) : Needs (usedBy ini) (ofIni ini) := by
  rw [ofIni_eq]
  exact (lexerPart_needs ini).bind fun settings => parserPart_needs ini { settings := settings }

/-- What a settings file and the one beside it, if there is one, say together. -/
inductive Gives (files : String → Option String) (path : String) : Ini → Prop where
  | alone {text : String} {ini : Ini} (there : files path = some text)
      (none : files (overrideName path) = none)
      (told : Ini.read {} text = .ok ini) : Gives files path ini
  | both {text text' : String} {main ini : Ini} (there : files path = some text)
      (beside : files (overrideName path) = some text') (told : Ini.read {} text = .ok main)
      (told' : main.read text' = .ok ini) : Gives files path ini

def IsBroken (files : String → Option String) (path : String) : Prop :=
  ∃ text, files path = some text ∧ (¬ Ini.IsWellFormed text ∨
    ∃ text', files (overrideName path) = some text' ∧ ¬ Ini.IsWellFormed text')

theorem load_gives (gives : Gives files path ini) : load files path = ofIni ini := by
  cases gives with
  | alone there none told =>
    simp only [load, there, none, told]
    rfl
  | both there beside told told' =>
    simp only [load, there, beside, told]
    show (_ >>= _) = _
    simp only [bind, Except.bind, told']

theorem isBroken_iff {text : String} (there : files path = some text) :
    IsBroken files path ↔ ¬ Ini.IsWellFormed text ∨
      ∃ text', files (overrideName path) = some text' ∧ ¬ Ini.IsWellFormed text' := by
  simp [IsBroken, there]

theorem not_isWellFormed {ini : Ini} {text : String} {f : Fault}
    (refused : ini.read text = .error f) :
    ¬ Ini.IsWellFormed text := by
  rw [← Ini.read_ok_iff ini, refused]
  simp

theorem load_cases (files : String → Option String) (path : String) :
    (files path = none ∧ load files path = .error .missingFile) ∨
    (IsBroken files path ∧ ∃ cause : IniFault, cause.isSyntactic = true ∧
      load files path = .error (.ini cause)) ∨
    (files path ≠ none ∧ ¬ IsBroken files path ∧ ∃ ini, Gives files path ini) := by
  -- The file is looked for, then read, and then the one beside it.
  cases there : files path with
  | none =>
    have missing : load files path = .error .missingFile := by simp only [load, there]; rfl
    exact .inl ⟨rfl, missing⟩
  | some text =>
    right
    rw [isBroken_iff there]
    cases told : Ini.read {} text with
    | error f =>
      left
      obtain ⟨cause, kind, rfl⟩ := Ini.read_error told
      have failed : load files path = .error (.ini cause) := by simp only [load, there, told]; rfl
      exact ⟨.inl (not_isWellFormed told), cause, kind, failed⟩
    | ok main =>
      have well : Ini.IsWellFormed text := (Ini.read_ok_iff {} text).mp ⟨main, told⟩
      cases beside : files (overrideName path) with
      | none =>
        right
        exact ⟨nofun, by simp [well], main, .alone there beside told⟩
      | some text' =>
        cases told' : main.read text' with
        | error f =>
          left
          obtain ⟨cause, kind, rfl⟩ := Ini.read_error told'
          have failed : load files path = .error (.ini cause) := by
            simp only [load, there, beside, told]
            show (_ >>= _) = _
            simp only [bind, Except.bind, told']
          exact ⟨.inr ⟨text', rfl, not_isWellFormed told'⟩, cause, kind, failed⟩
        | ok ini =>
          right
          have well' : Ini.IsWellFormed text' := (Ini.read_ok_iff main text').mp ⟨ini, told'⟩
          exact ⟨nofun, by simp [well, well'], ini, .both there beside told told'⟩

theorem load_needs (gives : Gives files path ini) : Needs (usedBy ini) (load files path) := by
  rw [load_gives gives]
  exact ofIni_needs ini

theorem load_missing_iff (files : String → Option String) (path : String) :
    load files path = .error .missingFile ↔ files path = none := by
  constructor
  · intro missing
    rcases load_cases files path with ⟨none, _⟩ | ⟨_, cause, _, failed⟩ | ⟨_, _, ini, gives⟩
    · exact none
    · rw [missing] at failed
      cases failed
    · rcases (load_needs gives).error _ missing with setting | ⟨cause, _, same, _⟩
      · cases setting
      · cases same
  · intro none
    rcases load_cases files path with ⟨_, missing⟩ | ⟨⟨text, there, _⟩, _⟩ | ⟨there, _⟩
    · exact missing
    · rw [none] at there
      cases there
    · exact absurd none there

theorem load_broken_iff (files : String → Option String) (path : String) :
    (∃ cause : IniFault, cause.isSyntactic = true ∧ load files path = .error (.ini cause)) ↔
    IsBroken files path := by
  constructor
  · rintro ⟨cause, syntactic, failed⟩
    rcases load_cases files path with ⟨_, missing⟩ | ⟨broken, _⟩ | ⟨_, _, ini, gives⟩
    · rw [missing] at failed
      cases failed
    · exact broken
    · rcases (load_needs gives).error _ failed with setting | ⟨cause', other, same, _⟩
      · cases setting
      · cases same
        rw [syntactic] at other
        cases other
  · intro broken
    rcases load_cases files path with ⟨none, _⟩ | ⟨_, failed⟩ | ⟨_, whole, _⟩
    · obtain ⟨text, there, _⟩ := broken
      rw [none] at there
      cases there
    · exact failed
    · exact absurd broken whole

/-- How loading ends. A settings file that is missing is reported as such, and a broken one, or a
broken one beside it, as a fault of its syntax. What both files say gives a configuration only if
all values that are used can be told; if there is none, a setting is unknown or malformed, or one of
these values cannot be told. -/
theorem load_outcome (files : String → Option String) (path : String) :
    (load files path = .error .missingFile ↔ files path = none) ∧
    ((∃ cause : IniFault, cause.isSyntactic = true ∧ load files path = .error (.ini cause)) ↔
      IsBroken files path) ∧
    (files path = none ∨ IsBroken files path ∨ ∃ ini, Gives files path ini) ∧
    ∀ ini, Gives files path ini →
      (∀ c, load files path = .ok c → ∀ o ∈ usedBy ini, Ini.Resolves o.1 o.2) ∧
      ∀ f, load files path = .error f → f.isOfSetting = true ∨
        ∃ cause : IniFault, cause.isSyntactic = false ∧ f = .ini cause ∧
          ∃ o ∈ usedBy ini, ¬ Ini.Resolves o.1 o.2 := by
  have kinds : files path = none ∨ IsBroken files path ∨ ∃ ini, Gives files path ini := by
    rcases load_cases files path with ⟨none, _⟩ | ⟨broken, _⟩ | ⟨_, _, gives⟩
    · exact .inl none
    · exact .inr (.inl broken)
    · exact .inr (.inr gives)
  refine ⟨load_missing_iff files path, load_broken_iff files path, kinds, ?_⟩
  intro ini gives
  have needs := load_needs gives
  exact ⟨needs.ok, needs.error⟩

def overridden : String → Option String
  | "a.cfg" => some "[tokenizer]\nline_comment = #\n[parser]\ndps: 30\n"
  | "a.mine.cfg" => some "; mine\n[tokenizer]\nline_comment = %%\n"
  | _ => none

theorem load_outcome_overridden :
    ∃ ini, Gives overridden "a.cfg" ini ∧
      load overridden "a.cfg" =
        .ok { settings := [("line_comment", .text "%")], digits := some 30 } ∧
      ∀ o ∈ usedBy ini, Ini.Resolves o.1 o.2 := by
  have told : Ini.read {} "[tokenizer]\nline_comment = #\n[parser]\ndps: 30\n" =
      .ok
        { sections := [("tokenizer", [("line_comment", "#")]), ("parser", [("dps", "30")])] } := by
    decide +kernel
  have told' : Ini.read
      { sections := [("tokenizer", [("line_comment", "#")]), ("parser", [("dps", "30")])] }
      "; mine\n[tokenizer]\nline_comment = %%\n" =
      .ok
        { sections := [("tokenizer", [("line_comment", "%%")]), ("parser", [("dps", "30")])] } := by
    decide +kernel
  have beside : overrideName "a.cfg" = "a.mine.cfg" := by decide +kernel
  have gives := @Gives.both overridden "a.cfg" _ _ _ _ rfl (congrArg overridden beside) told told'
  have loaded : load overridden "a.cfg" =
      .ok { settings := [("line_comment", .text "%")], digits := some 30 } :=
    (load_gives gives).trans rfl
  obtain ⟨_, _, _, outcome⟩ := load_outcome overridden "a.cfg"
  exact ⟨_, gives, loaded, (outcome _ gives).1 _ loaded⟩

def alone (text : String) : String → Option String :=
  fun name => if name = "a.cfg" then some text else none

/-- An option outside of all sections, an option that is there twice, and a percent sign that means
nothing. -/
theorem load_undocumented :
    load (alone "x = 1\n") "a.cfg" = .error (.ini .missingSectionHeader) ∧
    load (alone "[parser]\ndps = 1\ndps = 2\n") "a.cfg" = .error (.ini .duplicateOption) ∧
    load (alone "[parser]\ndps = %x\n") "a.cfg" = .error (.ini .interpolationForm) ∧
    ¬ ∀ files path f, load files path = .error f → f = .missingFile ∨ f.isOfSetting = true := by
  have unheaded : load (alone "x = 1\n") "a.cfg" = .error (.ini .missingSectionHeader) := by rfl
  have twice : load (alone "[parser]\ndps = 1\ndps = 2\n") "a.cfg" =
      .error (.ini .duplicateOption) := by rfl
  have stray : load (alone "[parser]\ndps = %x\n") "a.cfg" = .error (.ini .interpolationForm) := by
    rfl
  refine ⟨unheaded, twice, stray, fun documented => ?_⟩
  rcases documented _ _ _ unheaded with same | setting
  · cases same
  · cases setting

end Config

end Formula
