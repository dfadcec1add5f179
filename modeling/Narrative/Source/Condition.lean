import Narrative.Source.Statement
import Narrative.Condition.Basic

/-!
# Reading conditions

In the header of an event a condition is a statement, or an object that maps `AND` or `OR` to a
list of conditions.
-/

namespace Narrative.Condition

/-- The atom that a statement writes. -/
def readAtom (storyline : Option String) (code : String) : Except SourceError Condition :=
  match Statement.read storyline code.toList with
  | .error e => .error e
  | .ok s =>
    match s.operator with
    | .comparison operator => .ok (atom s.left operator s.right)
    | .assignment operator => .error (.invalidOperator (.assignment operator) code)

mutual

/-- The condition that a document writes, in a storyline or in none. -/
def read (storyline : Option String) : Json → Except SourceError Condition
  | .str code => readAtom storyline code
  | .obj [(name, .arr items)] =>
    match Connective.ofToken? name with
    | some connective => (readMembers storyline items).map (group connective)
    | none => .error (.invalidCondition (.obj [(name, .arr items)]))
  | found => .error (.invalidCondition found)

/-- The members of a group; the first error wins. -/
def readMembers (storyline : Option String) : List Json → Except SourceError (List Condition)
  | [] => .ok []
  | item :: rest =>
    match read storyline item with
    | .error e => .error e
    | .ok member => (readMembers storyline rest).map (member :: ·)

end

end Narrative.Condition
