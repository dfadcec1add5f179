import Narrative.Condition.Basic
import Narrative.Operand.Coding

/-!
# Conditions in JSON

A condition is a record with its kind in the field `_type`, or an array that starts with the kind.
Inside a group the kind may also be given by its number, `0` or `1`.
-/

namespace Narrative.Condition

/-- The two kinds of conditions. -/
inductive Form where
  | atom
  | group
deriving DecidableEq

namespace Form

/-- The name of a kind. -/
def name : Form → String
  | atom => "atomic_condition"
  | group => "propositional_condition"

/-- The kind that a document names; `inside` a group it may do so by number. -/
def ofJson? (inside : Bool) : Json → Option Form
  | .str s => if s = atom.name then some atom else if s = group.name then some group else none
  | .num (.int n) =>
    if !inside then none else if n = 0 then some atom else if n = 1 then some group else none
  | _ => none

end Form

mutual

/-- The record of a condition. -/
def toJson : Condition → Json
  | atom left operator right =>
    .obj [("_type", .str Form.atom.name), ("lhs", left.toJson), ("operator", .str operator.token),
      ("rhs", right.toJson)]
  | group connective members =>
    .obj [("_type", .str Form.group.name), ("boolean_operator", .str connective.token),
      ("conditions", .arr (membersToJson members))]

/-- `toJson` on each member. -/
def membersToJson : List Condition → List Json
  | [] => []
  | member :: rest => toJson member :: membersToJson rest

end

/-- The atom in a record without its kind. -/
def atomOf? (body : Json) : Option Condition := do
  match ← body.fieldsNamed? ["lhs", "operator", "rhs"] with
  | [some left, some operator, some right] =>
    let left ← Operand.ofJson? left
    let operator ← Comparison.ofToken? (← operator.looseWord?)
    pure (atom left operator (← Operand.ofJson? right))
  | _ => none

/-- The connective in the record of a group without its kind, when its other field is there. -/
def connectiveOf? (body : Json) : Option Connective := do
  match ← body.fieldsNamed? ["boolean_operator", "conditions"] with
  | [some connective, some _] => Connective.ofToken? (← connective.looseWord?)
  | _ => none

/-- The kind in the entries of a record. -/
def formOf? (inside : Bool) (entries : List (String × Json)) : Option Form := do
  match ← Json.single? entries "_type" with
  | some kind => Form.ofJson? inside kind
  | none => none

mutual

/-- The condition that a document writes. -/
def decode? (inside : Bool) : Json → Option Condition
  | .obj entries =>
    match formOf? inside entries with
    | some .atom => atomOf? (.obj entries)
    | some .group =>
      match connectiveOf? (.obj entries), membersIn? entries with
      | some connective, some members => some (group connective members)
      | _, _ => none
    | none => none
  | .arr (kind :: rest) =>
    match Form.ofJson? inside kind with
    | some .atom => atomOf? (.arr rest)
    | some .group =>
      match rest with
      | [connective, .arr items] =>
        match connectiveOf? (.arr [connective, .null]), members? items with
        | some connective, some members => some (group connective members)
        | _, _ => none
      | _ => none
    | none => none
  | _ => none

/-- The members under the name `conditions` in the entries of a record. -/
def membersIn? : List (String × Json) → Option (List Condition)
  | [] => none
  | (name, value) :: rest =>
    if name = "conditions" then
      match value with
      | .arr items => members? items
      | _ => none
    else membersIn? rest

/-- `decode?` on each member of a group. -/
def members? : List Json → Option (List Condition)
  | [] => some []
  | item :: rest =>
    match decode? true item with
    | none => none
    | some member => (members? rest).map (member :: ·)

end

/-- The condition that a document writes, outside any group. -/
def ofJson? (document : Json) : Option Condition :=
  decode? false document

end Narrative.Condition
