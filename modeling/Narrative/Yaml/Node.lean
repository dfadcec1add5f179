import Narrative.Yaml.Token

/-!
# YAML nodes

The tokens of a text make one document: a tree of scalars, lists and records.  An anchor gives a
node a number, and an alias stands for the node with its number.
-/

namespace Narrative.Yaml

/-- A node of a document. -/
inductive Node where
  | reference (number : Nat)
  | scalar (plain : Bool) (tag : Option String) (text : String)
  | list (tag : Option String) (items : List Node)
  | record (tag : Option String) (entries : List (Node × Node))
deriving Inhabited

namespace Node

/-- The node of nothing. -/
def empty : Node :=
  scalar true none ""

mutual

/-- How many marks a node is made of: two for a collection, one for anything else. -/
def size : Node → Nat
  | reference _ => 1
  | scalar _ _ _ => 1
  | list _ items => 2 + sizeItems items
  | record _ entries => 2 + sizeEntries entries

/-- `size` of all items. -/
def sizeItems : List Node → Nat
  | [] => 0
  | item :: rest => size item + sizeItems rest

/-- `size` of all keys and values. -/
def sizeEntries : List (Node × Node) → Nat
  | [] => 0
  | (key, value) :: rest => size key + size value + sizeEntries rest

end

end Node

/-! ### Anchors -/

/-- The anchors of a document so far. -/
structure Anchors where
  /-- The number that each name has now. -/
  names : List (String × Nat)
  /-- How many anchors there were. -/
  count : Nat
  /-- The nodes by number, each with its place among all anchors. -/
  nodes : List (Nat × Nat × Node)

namespace Anchors

/-- No anchors. -/
def none : Anchors := ⟨[], 0, []⟩

/-- One more anchor, and its number: how many names there were before it. -/
def start (a : Anchors) (name : String) : Anchors × Nat :=
  let number := a.names.length
  let names := (name, number) :: a.names.filter fun entry => entry.1 != name
  ({ a with names, count := a.count + 1 }, number)

/-- The node of an anchor.  Of two anchors with one number the one that started later counts. -/
def finish (a : Anchors) (number place : Nat) (node : Node) : Anchors :=
  match a.nodes.lookup number with
  | some (other, _) =>
    if other < place then
      { a with nodes := (number, place, node) :: a.nodes.filter fun entry => entry.1 != number }
    else a
  | .none => { a with nodes := (number, place, node) :: a.nodes }

/-- The node with a number. -/
def node? (a : Anchors) (number : Nat) : Option Node :=
  (a.nodes.lookup number).map Prod.snd

end Anchors

/-! ### Reading tokens -/

/-- What is left of the tokens, with the anchors and the handles of tags so far. -/
structure Reading where
  tokens : List Token
  anchors : Anchors
  handles : List (String × String)

/-- Something read from tokens. -/
abbrev Parse := StateT Reading Option

/-- The next token. -/
def peek : Parse Token := do
  match (← get).tokens with
  | t :: _ => pure t
  | [] => failure

/-- Go behind the next token. -/
def advance : Parse Unit :=
  modify fun r => { r with tokens := r.tokens.drop 1 }

/-- Whether the next token is one of those given. -/
def ahead (ts : List Token) : Parse Bool := do
  return ts.contains (← peek)

/-- Go behind the next token if it is the given one, and tell whether it was. -/
def took (t : Token) : Parse Bool := do
  if (← peek) = t then
    advance
    return true
  else return false

/-- The handles that need no directive. -/
def standardHandles : List (String × String) :=
  [("!", "!"), ("!!", "tag:yaml.org,2002:")]

/-- The whole tag of a handle and a suffix; its handle must be known. -/
def wholeTag : Option (String × String) → Parse (Option String)
  | none => pure none
  | some (handle, suffix) => do
    if handle.isEmpty then return some suffix
    else
      match ((← get).handles ++ standardHandles).lookup handle with
      | some start => return some (start ++ suffix)
      | none => failure

/-- The anchor and the tag in front of a node, in either order. -/
def properties : Parse (Option String × Option (String × String)) := do
  match ← peek with
  | .anchor name =>
    advance
    match ← peek with
    | .tag handle suffix =>
      advance
      return (some name, some (handle, suffix))
    | _ => return (some name, none)
  | .tag handle suffix =>
    advance
    match ← peek with
    | .anchor name =>
      advance
      return (some name, some (handle, suffix))
    | _ => return (none, some (handle, suffix))
  | _ => return (none, none)

/-- A node that may have an anchor, which its own aliases may use. -/
def anchored (name : Option String) (body : Parse Node) : Parse Node := do
  match name with
  | none => body
  | some name =>
    let (anchors, number) := (← get).anchors.start name
    modify fun r => { r with anchors }
    let node ← body
    modify fun r => { r with anchors := r.anchors.finish number anchors.count node }
    return node

/-- The node that an alias stands for, which must have started before. -/
def aliasNode (name : String) : Parse Node := do
  match (← get).anchors.names.lookup name with
  | some number => return .reference number
  | none => failure

/-- The comma between two parts of a collection in brackets; there is none in front of the first. -/
def separated (first : Bool) : Parse Unit := do
  if first then return ()
  else if ← took .flowEntry then return ()
  else failure

/-- A scalar with its tag; the tag that says nothing is left out. -/
def scalarNode (plain : Bool) (tag : Option String) (text : String) : Node :=
  .scalar plain (if tag = some "!" then none else tag) text

mutual

/-- A node.  Block collections start only where `block` says so, and the items of a list may stand
at the indentation of their record only where `loose` does. -/
def node : (fuel : Nat) → (block loose : Bool) → Parse Node
  | 0, _, _ => failure
  | fuel + 1, block, loose => do
    match ← peek with
    | .reference name =>
      advance
      aliasNode name
    | _ =>
      let (anchor, tag) ← properties
      let tag ← wholeTag tag
      anchored anchor (content fuel block loose (anchor.isSome || tag.isSome) tag)

/-- A node behind its anchor and its tag.  Without any content it must have one of them. -/
def content : (fuel : Nat) → (block loose marked : Bool) → Option String → Parse Node
  | 0, _, _, _, _ => failure
  | fuel + 1, block, loose, marked, tag => do
    let nothing : Parse Node := if marked then pure (.scalar true tag "") else failure
    match ← peek with
    | .scalar plain text =>
      advance
      return scalarNode plain tag text
    | .blockEntry => if loose then return .list tag (← looseItems fuel) else nothing
    | .flowSequenceStart =>
      advance
      return .list tag (← flowItems fuel true)
    | .flowMappingStart =>
      advance
      return .record tag (← flowEntries fuel true)
    | .blockSequenceStart =>
      if block then
        advance
        return .list tag (← blockItems fuel)
      else nothing
    | .blockMappingStart =>
      if block then
        advance
        return .record tag (← blockEntries fuel)
      else nothing
    | _ => nothing

/-- A node, or nothing in front of the given tokens. -/
def nodeUnless : (fuel : Nat) → (block loose : Bool) → List Token → Parse Node
  | 0, _, _, _ => failure
  | fuel + 1, block, loose, ends => do
    if ← ahead ends then return .empty else node fuel block loose

/-- The value of a key, if one is marked. -/
def valueUnless : (fuel : Nat) → (block : Bool) → List Token → Parse Node
  | 0, _, _ => failure
  | fuel + 1, block, ends => do
    if ← took .value then nodeUnless fuel block block ends else return .empty

/-- The items of a list in brackets, up to its end. -/
def flowItems : (fuel : Nat) → (first : Bool) → Parse (List Node)
  | 0, _ => failure
  | fuel + 1, first => do
    if ← took .flowSequenceEnd then return []
    separated first
    if ← took .flowSequenceEnd then return []
    let item ← flowItem fuel
    return item :: (← flowItems fuel false)

/-- An item of a list in brackets. -/
def flowItem : (fuel : Nat) → Parse Node
  | 0 => failure
  | fuel + 1 => do
    if ← took .key then flowPair fuel else node fuel false false

/-- A record of one entry in a list in brackets.  Nothing as a key uses up the token behind it. -/
def flowPair : (fuel : Nat) → Parse Node
  | 0 => failure
  | fuel + 1 => do
    if ← ahead [.value, .flowEntry, .flowSequenceEnd] then
      advance
      let value ← valueUnless fuel false [.flowEntry, .flowSequenceEnd]
      return .record none [(.empty, value)]
    else
      let key ← node fuel false false
      let value ← valueUnless fuel false [.flowEntry, .flowSequenceEnd]
      return .record none [(key, value)]

/-- The entries of a record in braces, up to its end. -/
def flowEntries : (fuel : Nat) → (first : Bool) → Parse (List (Node × Node))
  | 0, _ => failure
  | fuel + 1, first => do
    if ← took .flowMappingEnd then return []
    separated first
    if ← took .flowMappingEnd then return []
    let entry ← flowEntry fuel
    return entry :: (← flowEntries fuel false)

/-- An entry of a record in braces; without a mark it is a key without a value. -/
def flowEntry : (fuel : Nat) → Parse (Node × Node)
  | 0 => failure
  | fuel + 1 => do
    if ← took .key then
      let key ← nodeUnless fuel false false [.value, .flowEntry, .flowMappingEnd]
      let value ← valueUnless fuel false [.flowEntry, .flowMappingEnd]
      return (key, value)
    else
      let key ← node fuel false false
      return (key, .empty)

/-- The items of an indented list, up to its end. -/
def blockItems : (fuel : Nat) → Parse (List Node)
  | 0 => failure
  | fuel + 1 => do
    if ← took .blockEnd then return []
    else if ← took .blockEntry then
      let item ← nodeUnless fuel true false [.blockEntry, .blockEnd]
      return item :: (← blockItems fuel)
    else failure

/-- The items of a list at the indentation of its record. -/
def looseItems : (fuel : Nat) → Parse (List Node)
  | 0 => failure
  | fuel + 1 => do
    if ← took .blockEntry then
      let item ← nodeUnless fuel true false [.blockEntry, .key, .value, .blockEnd]
      return item :: (← looseItems fuel)
    else return []

/-- The entries of an indented record, up to its end. -/
def blockEntries : (fuel : Nat) → Parse (List (Node × Node))
  | 0 => failure
  | fuel + 1 => do
    if ← took .blockEnd then return []
    else if ← took .key then
      let key ← nodeUnless fuel true true [.key, .value, .blockEnd]
      let value ← valueUnless fuel true [.key, .value, .blockEnd]
      return (key, value) :: (← blockEntries fuel)
    else failure

end

/-! ### Documents -/

/-- The directives in front of a document: at most one version, which must be known, and a start
for each handle. -/
def directives : (fuel : Nat) → (versioned : Bool) → Parse Unit
  | 0, _ => failure
  | fuel + 1, versioned => do
    match ← peek with
    | .version major minor =>
      if versioned || major != 1 || (minor != 1 && minor != 2) then failure
      else
        advance
        directives fuel true
    | .tagPrefix handle start =>
      let r ← get
      if (r.handles.lookup handle).isSome then failure
      else
        set { r with handles := r.handles ++ [(handle, start)] }
        advance
        directives fuel versioned
    | _ => return ()

/-- Go behind all marks of the end of a document. -/
def documentEnds : (fuel : Nat) → Parse Unit
  | 0 => failure
  | fuel + 1 => do
    if ← took .documentEnd then documentEnds fuel else return ()

/-- The root of the document that starts here; a document that is marked may be empty. -/
def root (fuel : Nat) : Parse Node := do
  match ← peek with
  | .version _ _ | .tagPrefix _ _ | .documentStart =>
    directives fuel false
    if ← took .documentStart then
      match ← peek with
      | .version _ _ | .tagPrefix _ _ | .documentStart | .documentEnd | .streamEnd =>
        return .empty
      | _ => node fuel true false
    else failure
  | _ => node fuel true false

/-- The only document of a text; there may be none. -/
def onlyRoot (fuel : Nat) : Parse (Option Node) := do
  if ← ahead [.streamEnd] then return none
  else
    let node ← root fuel
    documentEnds fuel
    if ← ahead [.streamEnd] then return some node else failure

/-- A document: its root, if the text has any, and the anchored nodes. -/
structure Document where
  root : Option Node
  anchors : Anchors

/-- The document that tokens make. -/
def Document.ofTokens? (tokens : List Token) : Option Document := do
  let (root, r) ← (onlyRoot (4 * tokens.length + 8)).run ⟨tokens, .none, []⟩
  some ⟨root, r.anchors⟩

end Narrative.Yaml
