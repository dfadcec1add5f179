import Narrative.Operation.Basic
import Narrative.Operand.Coding

/-!
# Operations in JSON

An operation is the record of its target, its operator and its operand.
-/

namespace Narrative.Operation

/-- The record of an operation. -/
def toJson (o : Operation) : Json :=
  .obj [("lhs", o.target.toJson), ("operator", .str o.operator.token), ("rhs", o.operand.toJson)]

/-- The fields of an operation. -/
def shape : Json.Shape :=
  .record [("lhs", Access.shape), ("operator", .whole), ("rhs", .whole)]

/-- The operation that a document writes. -/
def ofJson? (document : Json) : Option Operation := do
  match ← document.fields? shape with
  | [some target, some operator, some operand] =>
    let target ← Access.ofJson? target
    let operator ← Assignment.ofToken? (← operator.word?)
    pure ⟨target, operator, ← Operand.ofJson? operand⟩
  | _ => none

end Narrative.Operation
