import Narrative.Operator
import Narrative.Json.Writer

/-!
# Errors of the statement language
-/

namespace Narrative

/-- Why a statement, an operand or a condition cannot be read. -/
inductive SourceError where
  | missingOperator (code : String)
  | ambiguousOperator (code : String) (candidates : List Operator)
  | missingLeft (code : String)
  | missingRight (code : String)
  | invalidString (token : String)
  | invalidExpression (token : String)
  | invalidFirstLevel (token found : String)
  | missingStoryline (token : String)
  | invalidOperator (operator : Operator) (code : String)
  | targetNotAccess (code : String)
  | invalidCondition (found : Json)
deriving DecidableEq

namespace SourceError

/-- The first segments of accesses, as they are listed in messages. -/
def firstLevels : String := "global (g), resources (r), storylines (s), sl"

/-- The text of an error. -/
def message : SourceError → String
  | missingOperator code => "could not find the operator in '" ++ code ++ "'"
  | ambiguousOperator code candidates =>
    "too many operator candidates in '" ++ code ++ "': " ++
      ", ".intercalate (candidates.map Operator.token)
  | missingLeft code => "missing left-hand side in '" ++ code ++ "'"
  | missingRight code => "missing right-hand side in '" ++ code ++ "'"
  | invalidString token => "'" ++ token ++ "' is an invalid string expression"
  | invalidExpression token => "invalid expression: '" ++ token ++ "'"
  | invalidFirstLevel token found =>
    "first-level must be one of " ++ firstLevels ++ ", not '" ++ found ++ "' in '" ++ token ++ "'"
  | missingStoryline token => "the 'sl' shorthand needs a storyline context: '" ++ token ++ "'"
  | invalidOperator operator code =>
    "invalid operator " ++ operator.token ++ " in '" ++ code ++ "'"
  | targetNotAccess code =>
    "left-hand side of an operation must be a state access: '" ++ code ++ "'"
  | invalidCondition found =>
    "conditions must be a string or an object with one and only one of " ++
      ", ".intercalate (Connective.all.map Connective.token) ++ ": " ++ found.text

end SourceError

end Narrative
