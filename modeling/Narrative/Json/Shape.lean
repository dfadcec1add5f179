/-!
# Shapes

A shape tells a reader which parts of a document are asked for, so that it can pass over the others.
It does not say what the parts have to be.
-/

namespace Narrative.Json

/-- Which parts of a document are asked for. -/
inductive Shape where
  /-- All of it. -/
  | whole
  /-- Parts of the same shape, of a list or a mapping. -/
  | each (part : Shape)
  /-- The fields of a record, in order. -/
  | record (fields : List (String × Shape))

namespace Shape

/-- A record of fields that are asked for as a whole. -/
def ofNames (names : List String) : Shape :=
  record (names.map fun name => (name, whole))

/-- The names of the fields of a record. -/
def names : Shape → List String
  | record fields => fields.map Prod.fst
  | _ => []

/-- The shape of an item of an array by its number.  An array may stand for a record. -/
def item : Shape → Nat → Shape
  | whole, _ => whole
  | each part, _ => part
  | record fields, n => ((fields[n]?).map Prod.snd).getD whole

/-- The shape of the value under a name of an object, if that value is asked for. -/
def entry? : Shape → String → Option Shape
  | whole, _ => some whole
  | each part, _ => some part
  | record fields, name => fields.lookup name

end Shape

end Narrative.Json
