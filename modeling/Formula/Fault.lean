import Formula.Mode
import Formula.Problem

/-! The causes for which an operation has no result. -/
namespace Formula

inductive IniFault where
  | missingSectionHeader
  | malformedLine
  | duplicateOption
  | duplicateSection
  | interpolationForm
  | interpolationUnknownOption
  | interpolationDepth
deriving DecidableEq, Repr, Inhabited

inductive Fault where
  /-- A look behind the current item. -/
  | negativeOffset
  | negativeCount
  | missingSource
  /-- A token is compared with no trigger at all. -/
  | missingTrigger
  /-- A token is compared with no content at all. -/
  | missingContent
  | unknownLexerSetting (name : String)
  | unknownParserSettings (names : List String)
  /-- A source that cannot be read on, for a reason that the reader does not report as a problem. -/
  | brokenSource
  | rejected (problems : List Problem)
  | unknownVariable (name : String)
  | constantVariable (name : String)
  | ownParent
  | mixedModes (parent child : Mode)
  | notAFunction (text : String)
  /-- A text or value that does not denote a number or setting of the required kind. -/
  | malformedValue
  | wrongKind
  | overflow
  | divisionByZero
  | missingArgument
  | unknownName
  /-- A question that does not make sense for this kind of thing. -/
  | missingFeature
  | tooDeep
  /-- No outcome at all, because a search never comes to an end. -/
  | endless
  | missingFile
  | ini (cause : IniFault)
deriving DecidableEq, Repr, Inhabited

namespace Fault

def modeLabel : Mode → String
  | .float => "float"
  | .precise => "mpmath"

def message : Fault → Option String
  | negativeOffset => some "offset < 0"
  | negativeCount => some "number_of_items < 0"
  | missingSource => some "source must not be None"
  | missingTrigger => some "trigger must not be None"
  | missingContent => some "content must not be None"
  | unknownLexerSetting name => some ("Unknown tokenizer setting: " ++ name)
  | unknownParserSettings names =>
    some ("Unknown parser setting(s): " ++ ", ".intercalate names)
  | rejected problems => some (Problem.summary problems)
  | unknownVariable name => some ("Unknown variable: '" ++ name ++ "'")
  | constantVariable name => some (name ++ " is constant!")
  | ownParent => some "A scope cannot be its own parent."
  | mixedModes parent child =>
    some ("Cannot use a " ++ modeLabel parent ++ " scope as parent of a " ++ modeLabel child
      ++ " scope.")
  | notAFunction text => some ("Not a Function: " ++ text)
  | _ => none

/-- Faults of the computation itself, for which an operation yields the invalid number instead. -/
def isNumeric : Fault → Bool
  | malformedValue | overflow | divisionByZero => true
  | _ => false

end Fault

end Formula
