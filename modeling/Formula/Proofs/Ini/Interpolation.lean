import Mathlib.Data.List.TakeWhile
import Formula.Proofs.Ini.Syntax

/-! Values that refer to other values. What a value stands for is told by rules on its text: a
percent sign is written twice, and `%(name)s` stands for the value of an option, to a limited depth.
All other texts with a percent sign stand for nothing, and are refused. -/
namespace Formula.Ini

variable {find : String → Option String} {depth : Nat} {cs rest out out' : List Char} {c : Char}
  {value : String}

theorem reference?_eq {key : List Char} (named : key ≠ []) (open_ : ')' ∉ key) (rest : List Char) :
    reference? (key ++ ')' :: 's' :: rest) = some (Text.lower (String.ofList key), rest) := by
  have others : ∀ c ∈ key, decide (c ≠ ')') = true := by
    intro c mem
    exact decide_eq_true fun same => open_ (same ▸ mem)
  have front : (key ++ ')' :: 's' :: rest).takeWhile (· ≠ ')') = key := by
    rw [List.takeWhile_append_of_pos others]
    simp
  have back : (key ++ ')' :: 's' :: rest).dropWhile (· ≠ ')') = ')' :: 's' :: rest := by
    rw [List.dropWhile_append_of_pos others]
    simp
  unfold reference?
  rw [front, back]
  cases key with
  | nil => contradiction
  | cons => rfl

theorem eq_of_reference? {name : String} (found : reference? cs = some (name, rest)) :
    ∃ key, key ≠ [] ∧ ')' ∉ key ∧ cs = key ++ ')' :: 's' :: rest ∧
      name = Text.lower (String.ofList key) := by
  have parts := List.takeWhile_append_dropWhile (p := (· ≠ ')')) (l := cs)
  unfold reference? at found
  split at found
  · cases found
  · rename_i back named
    obtain ⟨rfl, rfl⟩ := Prod.mk.inj (Option.some.inj found)
    refine ⟨cs.takeWhile (· ≠ ')'), named, ?_, ?_, rfl⟩
    · intro mem
      simpa using List.mem_takeWhile_imp mem
    · rw [← back, parts]
  · cases found

theorem piecesWithin_eq (fuel fuel' : Nat) (enough : cs.length ≤ fuel)
    (enough' : cs.length ≤ fuel') :
    piecesWithin fuel cs = piecesWithin fuel' cs := by
  induction fuel, cs using piecesWithin.induct generalizing fuel' with
  | case1 cs =>
    obtain rfl := List.length_eq_zero_iff.mp (Nat.le_zero.mp enough)
    cases fuel' <;> rfl
  | case2 => cases fuel' <;> rfl
  | case3 fuel rest ih =>
    obtain _ | fuel' := fuel'
    · cases enough'
    · rw [List.length_cons, List.length_cons] at enough enough'
      simp only [piecesWithin]
      rw [ih fuel' (by omega) (by omega)]
  | case4 fuel rest name rest' found ih =>
    obtain _ | fuel' := fuel'
    · cases enough'
    · obtain ⟨key, _, _, rfl, _⟩ := eq_of_reference? found
      simp only [List.length_cons, List.length_append] at enough enough'
      simp only [piecesWithin, found]
      rw [ih fuel' (by omega) (by omega)]
  | case5 fuel rest missing =>
    obtain _ | fuel' := fuel'
    · cases enough'
    · simp only [piecesWithin, missing]
  | case6 fuel rest noPercent noName =>
    obtain _ | fuel' := fuel'
    · cases enough'
    · simp only [piecesWithin]
  | case7 fuel c rest noPercent noName plain ih =>
    obtain _ | fuel' := fuel'
    · cases enough'
    · rw [List.length_cons] at enough enough'
      simp only [piecesWithin]
      rw [ih fuel' (by omega) (by omega)]

theorem pieces_char (plain : c ≠ '%') (rest : List Char) :
    pieces (c :: rest) = .char c :: pieces rest := by
  simp [pieces, piecesWithin, plain]

theorem pieces_percent (rest : List Char) :
    pieces ('%' :: '%' :: rest) = .char '%' :: pieces rest := by
  simp only [pieces, List.length_cons, piecesWithin]
  rw [piecesWithin_eq _ rest.length (Nat.le_succ _) (Nat.le_refl _)]

theorem pieces_reference {key : List Char} (named : key ≠ []) (open_ : ')' ∉ key)
    (rest : List Char) :
    pieces ('%' :: '(' :: (key ++ ')' :: 's' :: rest)) =
      .reference (Text.lower (String.ofList key)) :: pieces rest := by
  simp only [pieces, List.length_cons, piecesWithin, reference?_eq named open_]
  have enough : rest.length ≤ (key ++ ')' :: 's' :: rest).length + 1 := by
    simp only [List.length_cons, List.length_append]
    omega
  rw [piecesWithin_eq _ rest.length enough (Nat.le_refl _)]

inductive Beginning : List Char → Prop where
  | nil : Beginning []
  | char {c : Char} (plain : c ≠ '%') (rest : List Char) : Beginning (c :: rest)
  | percent (rest : List Char) : Beginning ('%' :: '%' :: rest)
  | reference {key : List Char} (named : key ≠ []) (open_ : ')' ∉ key) (rest : List Char) :
    Beginning ('%' :: '(' :: (key ++ ')' :: 's' :: rest))
  | stray {cs : List Char} (alone : pieces cs = [.stray]) : Beginning cs

theorem beginning (cs : List Char) : Beginning cs := by
  rcases cs with _ | ⟨c, rest⟩
  · exact .nil
  · by_cases plain : c = '%'
    · subst plain
      rcases rest with _ | ⟨d, rest⟩
      · exact .stray rfl
      · by_cases percent : d = '%'
        · subst percent
          exact .percent rest
        · by_cases name : d = '('
          · subst name
            cases found : reference? rest with
            | some reference =>
              obtain ⟨name, rest'⟩ := reference
              obtain ⟨key, named, open_, rfl, _⟩ := eq_of_reference? found
              exact .reference named open_ rest'
            | none =>
              apply Beginning.stray
              simp only [pieces, List.length_cons, piecesWithin, found]
          · apply Beginning.stray
            simp [pieces, piecesWithin, percent, name]
    · exact .char plain rest

/-- What a value stands for, where its references go down to a depth. -/
inductive StandsFor (find : String → Option String) : Nat → List Char → List Char → Prop where
  | nil {depth : Nat} : StandsFor find depth [] []
  | char {depth : Nat} {c : Char} {rest out : List Char} (plain : c ≠ '%')
      (further : StandsFor find depth rest out) :
    StandsFor find depth (c :: rest) (c :: out)
  | percent {depth : Nat} {rest out : List Char} (further : StandsFor find depth rest out) :
    StandsFor find depth ('%' :: '%' :: rest) ('%' :: out)
  /-- A reference to a value without references. -/
  | literal {depth : Nat} {key rest out : List Char} {value : String} (named : key ≠ [])
      (open_ : ')' ∉ key)
      (found : find (Text.lower (String.ofList key)) = some value) (plain : '%' ∉ value.toList)
      (further : StandsFor find depth rest out) :
    StandsFor find depth ('%' :: '(' :: (key ++ ')' :: 's' :: rest)) (value.toList ++ out)
  | nested {depth : Nat} {key rest inner out : List Char} {value : String} (named : key ≠ [])
      (open_ : ')' ∉ key)
      (found : find (Text.lower (String.ofList key)) = some value) (refers : '%' ∈ value.toList)
      (below : StandsFor find depth value.toList inner)
      (further : StandsFor find (depth + 1) rest out) :
    StandsFor find (depth + 1) ('%' :: '(' :: (key ++ ')' :: 's' :: rest)) (inner ++ out)

def textOf (find : String → Option String) (depth : Nat) : Piece → Except Fault (List Char)
  | .char c => .ok [c]
  | .stray => .error (.ini .interpolationForm)
  | .reference name =>
    match find name with
    | none => .error (.ini .interpolationUnknownOption)
    | some v => if v.contains '%' then expand find depth v.toList else .ok v.toList

theorem textOf_literal {name : String} (found : find name = some value)
    (plain : '%' ∉ value.toList) :
    textOf find depth (.reference name) = .ok value.toList := by
  have none : ¬ value.contains '%' = true := by simpa using plain
  simp only [textOf, found]
  rw [if_neg none]

theorem textOf_nested {name : String} (found : find name = some value)
    (refers : '%' ∈ value.toList) :
    textOf find depth (.reference name) = expand find depth value.toList := by
  have some : value.contains '%' = true := by simpa using refers
  simp only [textOf, found]
  rw [if_pos some]

theorem expand_succ (find : String → Option String) (depth : Nat) (cs : List Char) :
    expand find (depth + 1) cs = List.flatten <$> (pieces cs).mapM (textOf find depth) := by
  rw [expand]
  rfl

theorem expand_nil : expand find (depth + 1) [] = .ok [] := rfl

theorem expand_cons {piece : Piece} (first : pieces cs = piece :: pieces rest) :
    expand find (depth + 1) cs = (do
      let text ← textOf find depth piece
      let out ← expand find (depth + 1) rest
      return text ++ out) := by
  rw [expand_succ, expand_succ, first, List.mapM_cons]
  cases textOf find depth piece with
  | error f => rfl
  | ok text => cases (pieces rest).mapM (textOf find depth) <;> rfl

theorem expand_of_standsFor (h : StandsFor find depth cs out) :
    expand find (depth + 1) cs = .ok out := by
  induction h with
  | nil => exact expand_nil
  | char plain _ ih =>
    rw [expand_cons (pieces_char plain _), ih]
    rfl
  | percent _ ih =>
    rw [expand_cons (pieces_percent _), ih]
    rfl
  | literal named open_ found plain _ ih =>
    rw [expand_cons (pieces_reference named open_ _), textOf_literal found plain, ih]
    rfl
  | nested named open_ found refers _ _ below ih =>
    rw [expand_cons (pieces_reference named open_ _), textOf_nested found refers, below, ih]
    rfl

theorem standsFor_of_expand (depth : Nat) {cs out : List Char}
    (expanded : expand find depth cs = .ok out) :
    ∃ below, depth = below + 1 ∧ StandsFor find below cs out := by
  -- By induction on the depth and, for the values of one depth, on their length.
  induction depth generalizing cs out with
  | zero => cases expanded
  | succ depth deeper =>
    refine ⟨depth, rfl, ?_⟩
    induction count : cs.length using Nat.strong_induction_on generalizing cs out with
    | _ n ih =>
      -- The pieces of a value are those of its beginning, followed by those of the rest.
      have further {piece : Piece} {rest : List Char} (first : pieces cs = piece :: pieces rest)
          (shorter : rest.length < cs.length) :
          ∃ text out', textOf find depth piece = .ok text ∧ StandsFor find depth rest out' ∧
            out = text ++ out' := by
        rw [expand_cons first] at expanded
        cases text : textOf find depth piece with
        | error f =>
          rw [text] at expanded
          cases expanded
        | ok text' =>
          cases later : expand find (depth + 1) rest with
          | error f =>
            rw [text, later] at expanded
            cases expanded
          | ok out' =>
            rw [text, later] at expanded
            cases expanded
            exact ⟨text', out', rfl, ih _ (count ▸ shorter) later rfl, rfl⟩
      cases beginning cs with
      | nil =>
        cases expanded
        exact .nil
      | char plain rest =>
        obtain ⟨text, out', same, stands, rfl⟩ := further (pieces_char plain rest) (by simp)
        cases same
        exact .char plain stands
      | percent rest =>
        obtain ⟨text, out', same, stands, rfl⟩ :=
          further (pieces_percent rest) (by simp only [List.length_cons]; omega)
        cases same
        exact .percent stands
      | @reference key named open_ rest =>
        have shorter : rest.length < ('%' :: '(' :: (key ++ ')' :: 's' :: rest)).length := by
          simp only [List.length_cons, List.length_append]
          omega
        obtain ⟨text, out', same, stands, rfl⟩ :=
          further (pieces_reference named open_ rest) shorter
        cases found : find (Text.lower (String.ofList key)) with
        | none => simp [textOf, found] at same
        | some value =>
          by_cases refers : '%' ∈ value.toList
          · rw [textOf_nested found refers] at same
            obtain ⟨below, rfl, inner⟩ := deeper same
            exact .nested named open_ found refers inner stands
          · rw [textOf_literal found refers] at same
            cases same
            exact .literal named open_ found refers stands
      | stray alone =>
        rw [expand_succ, alone] at expanded
        cases expanded

/-- A value has a text in its place exactly if the rules say so, and then this text. -/
theorem expand_eq_ok_iff : expand find (depth + 1) cs = .ok out ↔ StandsFor find depth cs out := by
  constructor
  · intro expanded
    obtain ⟨below, same, stands⟩ := standsFor_of_expand (depth + 1) expanded
    exact Nat.succ.inj same ▸ stands
  · exact expand_of_standsFor

theorem error_of_mapM {α β : Type} {f : α → Except Fault β} {as : List α} {e : Fault}
    (h : as.mapM f = .error e) :
    ∃ a ∈ as, f a = .error e := by
  induction as with
  | nil => cases h
  | cons a as ih =>
    rw [List.mapM_cons] at h
    cases first : f a with
    | error e' =>
      rw [first] at h
      cases h
      exact ⟨a, List.mem_cons_self, first⟩
    | ok b =>
      cases rest : as.mapM f with
      | error e' =>
        rw [first, rest] at h
        cases h
        obtain ⟨a', mem, failed⟩ := ih rest
        exact ⟨a', List.mem_cons_of_mem a mem, failed⟩
      | ok bs =>
        rw [first, rest] at h
        cases h

theorem expand_error (depth : Nat) {cs : List Char} {f : Fault}
    (refused : expand find depth cs = .error f) :
    ∃ cause : IniFault, cause.isSyntactic = false ∧ f = .ini cause := by
  induction depth generalizing cs with
  | zero =>
    cases refused
    exact ⟨.interpolationDepth, rfl, rfl⟩
  | succ depth ih =>
    rw [expand_succ] at refused
    cases parts : (pieces cs).mapM (textOf find depth) with
    | ok texts =>
      rw [parts] at refused
      cases refused
    | error f' =>
      rw [parts] at refused
      cases refused
      obtain ⟨piece, _, failed⟩ := error_of_mapM parts
      -- The first piece that has no text is at fault, or the value that it refers to is.
      cases piece with
      | char c => cases failed
      | stray =>
        cases failed
        exact ⟨.interpolationForm, rfl, rfl⟩
      | reference name =>
        cases found : find name with
        | none =>
          simp only [textOf, found] at failed
          cases failed
          exact ⟨.interpolationUnknownOption, rfl, rfl⟩
        | some value =>
          by_cases refers : '%' ∈ value.toList
          · rw [textOf_nested found refers] at failed
            exact ih failed
          · rw [textOf_literal found refers] at failed
            cases failed

/-- The value of an option can be told, if there is one. -/
def Resolves (options : Options) (name : String) : Prop :=
  ∀ value, options.lookup name = some value →
    ∃ out, StandsFor (List.lookup · options) (depthLimit - 1) value.toList out

theorem value?_ok_iff (options : Options) (name : String) :
    (∃ value, value? options name = .ok value) ↔ Resolves options name := by
  unfold value? Resolves
  cases options.lookup name with
  | none => simp
  | some value =>
    have limit : depthLimit = depthLimit - 1 + 1 := rfl
    simp only [Option.some.injEq, forall_eq', ← expand_eq_ok_iff, ← limit]
    cases expand (List.lookup · options) depthLimit value.toList <;> simp [Except.map]

theorem value?_error {options : Options} {name : String} {f : Fault}
    (refused : value? options name = .error f) :
    ∃ cause : IniFault, cause.isSyntactic = false ∧ f = .ini cause := by
  unfold value? at refused
  split at refused
  · cases refused
  · rename_i value found
    cases expanded : expand (List.lookup · options) depthLimit value.toList with
    | ok out =>
      rw [expanded] at refused
      cases refused
    | error f' =>
      rw [expanded] at refused
      cases refused
      exact expand_error depthLimit expanded

end Formula.Ini
