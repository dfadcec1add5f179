import Narrative.Yaml.Node
import Narrative.Yaml.Scalar

/-!
# YAML as JSON

Records become objects whose names are the texts of their keys; of a repeated key the last value
counts, in the first place.  An alias becomes a copy of its node.  Collections may be nested only so
deep, and aliases followed only so often, so that every text is read in the end.
-/

namespace Narrative.Yaml

/-- How deep collections may be nested. -/
def depthLimit : Nat := 128

/-- How often aliases may be followed, for each mark of a document. -/
def jumpsPerMark : Nat := 100

namespace Document

/-- A computation that may follow a number of aliases. -/
abbrev Expand := StateT Nat Option

/-- The node that stands for a node: that of its anchor for an alias. -/
def target (d : Document) : Node → Expand Node
  | .reference number => do
    match ← get with
    | 0 => failure
    | jumps + 1 =>
      set jumps
      match d.anchors.node? number with
      | some node => return node
      | none => failure
  | node => return node

/-- The name that a key writes. -/
def name (d : Document) (key : Node) : Expand String := do
  match ← d.target key with
  | .scalar _ _ text => return text
  | _ => failure

/-- Whether a collection is of a kind that only an application knows. -/
def isForeign : Option String → Bool
  | some tag => tag.toList.head? = some '!'
  | none => false

/-- The JSON document of a node at a depth. -/
def jsonOf (d : Document) : (depth : Nat) → Node → Expand Json
  | 0, n => do
    match ← d.target n with
    | .scalar plain tag text => (scalarJson? plain tag text : Option Json)
    | _ => failure
  | depth + 1, n => do
    match ← d.target n with
    | .scalar plain tag text => (scalarJson? plain tag text : Option Json)
    | .list tag items =>
      if isForeign tag then failure
      else return .arr (← items.mapM (jsonOf d depth))
    | .record tag entries =>
      if isForeign tag then failure
      else
        let read ← entries.mapM fun entry => do
          return (← d.name entry.1, ← jsonOf d depth entry.2)
        return .obj (Entries.distinct read)
    | .reference _ => failure

/-- The JSON document of a whole document; that of none is null. -/
def json? (d : Document) : Option Json :=
  match d.root with
  | none => some .null
  | some root => (d.jsonOf depthLimit root).run' (jumpsPerMark * root.size)

end Document

/-- The JSON document that a text writes. -/
def read? (text : String) : Option Json := do
  let tokens ← tokens? text.toList
  let document ← Document.ofTokens? tokens
  document.json?

end Narrative.Yaml
