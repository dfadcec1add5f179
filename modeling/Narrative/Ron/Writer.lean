import Narrative.Session.Snapshot
import Narrative.Decimal.Layout
import Narrative.Text.Quoted

/-!
# Snapshots as object notation

A saved game is a text in an object notation that keeps apart what JSON does not: a record stands
in parentheses, a mapping in braces, a list in brackets, and nothing is `()`.  It is written either
without white space, or with each part on a line of its own, four spaces deeper than what it
belongs to and with a comma behind it.
-/

namespace Narrative

namespace Ron

/-- A text between double quotes.  Single quotes get a backslash too. -/
def quote (s : String) : List Char :=
  '"' :: (s.toList.flatMap (fun c => if c = '\'' then ['\\', c] else Text.quoteChar c) ++ ['"'])

/-- How a text is laid out: in one piece, or on lines from a depth on. -/
inductive Layout where
  | compact
  | lines (depth : Nat)

namespace Layout

/-- The layout of what stands inside. -/
def inside : Layout → Layout
  | compact => compact
  | lines depth => lines (depth + 1)

/-- The break before what stands in a layout. -/
def newLine : Layout → List Char
  | compact => []
  | lines depth => '\n' :: List.replicate (4 * depth) ' '

/-- A name and its value. -/
def entry (layout : Layout) (name value : List Char) : List Char :=
  match layout with
  | compact => name ++ ':' :: value
  | lines _ => name ++ ':' :: ' ' :: value

/-- Parts with commas between them; on lines the last one has a comma too. -/
def parts (layout : Layout) : List (List Char) → List Char
  | [] => []
  | [part] =>
    match layout with
    | compact => part
    | lines _ => layout.inside.newLine ++ part ++ ',' :: layout.newLine
  | part :: rest => layout.inside.newLine ++ part ++ ',' :: layout.parts rest

/-- Parts between two marks. -/
def group (layout : Layout) (first last : Char) (texts : List (List Char)) : List Char :=
  first :: (layout.parts texts ++ [last])

end Layout

mutual

/-- The text of a document. -/
def write (layout : Layout) : Json → List Char
  | .null => ['(', ')']
  | .bool true => ['t', 'r', 'u', 'e']
  | .bool false => ['f', 'a', 'l', 's', 'e']
  | .num (.int n) => Decimal.integer n
  | .num (.float x) => Decimal.pointed x
  | .str s => quote s
  | .arr items => layout.group '[' ']' (writeItems layout.inside items)
  | .obj entries => layout.group '{' '}' (writeEntries layout.inside entries)

/-- The texts of items. -/
def writeItems (layout : Layout) : List Json → List (List Char)
  | [] => []
  | item :: rest => write layout item :: writeItems layout rest

/-- The texts of entries. -/
def writeEntries (layout : Layout) : List (String × Json) → List (List Char)
  | [] => []
  | (name, value) :: rest =>
    layout.entry (quote name) (write layout value) :: writeEntries layout rest

end

/-- The text of a slug that may be missing. -/
def writeOption : Option String → List Char
  | none => "None".toList
  | some s => "Some(".toList ++ quote s ++ [')']

end Ron

namespace Snapshot

/-- The text of a snapshot. -/
def writeRon (s : Snapshot) (layout : Ron.Layout) : String :=
  let inside := layout.inside
  String.ofList (layout.group '(' ')'
    [inside.entry "state".toList (Ron.write inside s.state.root),
      inside.entry "viewed_events".toList (Ron.write inside (.arr (s.viewed.map .str))),
      inside.entry "current_event".toList (Ron.writeOption s.current)])

/-- The text of a snapshot in one piece. -/
def compactRon (s : Snapshot) : String :=
  s.writeRon .compact

/-- The text of a snapshot on lines. -/
def prettyRon (s : Snapshot) : String :=
  s.writeRon (.lines 0)

end Snapshot

end Narrative
