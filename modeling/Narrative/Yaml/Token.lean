import Narrative.Yaml.Text

/-!
# YAML tokens

The scanner turns a text into tokens.  A key of a block mapping is recognised only by the colon
behind it, so the scanner remembers for each level of brackets where a key may have started, and
puts the tokens that open it there once the colon comes.  Indentation opens and closes block
collections.
-/

namespace Narrative.Yaml

/-- A token of a YAML text. -/
inductive Token where
  | version (major minor : Nat)
  | tagPrefix (handle start : String)
  | documentStart
  | documentEnd
  | streamEnd
  | blockSequenceStart
  | blockMappingStart
  | blockEnd
  | flowSequenceStart
  | flowSequenceEnd
  | flowMappingStart
  | flowMappingEnd
  | blockEntry
  | flowEntry
  | key
  | value
  | reference (name : String)
  | anchor (name : String)
  | tag (handle suffix : String)
  | scalar (plain : Bool) (text : String)
deriving DecidableEq

/-- A place where a key may have started. -/
structure PossibleKey where
  /-- Whether it must be a key, because it stands at the indentation of its block. -/
  required : Bool
  /-- The number of the token it would stand before. -/
  token : Nat
  index : Nat
  line : Nat
  column : Nat

/-- The state of the scanner. -/
structure Scanner where
  cursor : Cursor
  /-- The number of brackets that are open. -/
  flow : Nat
  /-- The column of the innermost block collection, `-1` outside all. -/
  indent : Int
  indents : List Int
  /-- The possible key of each level of brackets, the innermost first. -/
  keys : List (Option PossibleKey)
  keyAllowed : Bool
  tokens : Array Token

namespace Scanner

/-- The scanner at the start of a text. -/
def start (text : List Char) : Scanner :=
  ⟨Cursor.start text, 0, -1, [], [none], true, #[]⟩

/-- One more token. -/
def emit (s : Scanner) (t : Token) : Scanner :=
  { s with tokens := s.tokens.push t }

/-- One more token that is a mark of the given length. -/
def mark (s : Scanner) (length : Nat) (t : Token) : Scanner :=
  { s with cursor := s.cursor.skips length, tokens := s.tokens.push t }

/-- One more token in front of the token with the given number. -/
def insertAt (s : Scanner) (number : Nat) (t : Token) : Scanner :=
  { s with tokens := s.tokens.insertIdxIfInBounds number t }

/-- Forget the possible key of the innermost level, which must not be a required one. -/
def removeKey (s : Scanner) : Option Scanner :=
  match s.keys with
  | some k :: rest => if k.required then none else some { s with keys := none :: rest }
  | _ => some s

/-- Remember that a key may start here. -/
def saveKey (s : Scanner) : Option Scanner :=
  if s.keyAllowed then
    match s.removeKey with
    | none => none
    | some s =>
      let k : PossibleKey :=
        { required := s.flow == 0 && s.indent == s.cursor.column
          token := s.tokens.size
          index := s.cursor.index
          line := s.cursor.line
          column := s.cursor.column }
      some { s with keys := some k :: s.keys.drop 1 }
  else some s

/-- The longest distance between the start of a key and its colon. -/
def keyLimit : Nat := 1024

/-- Forget the possible keys that are on another line or too far back. -/
def dropStaleKeys (s : Scanner) : Option Scanner :=
  let stale (k : PossibleKey) : Bool :=
    k.line < s.cursor.line || k.index + keyLimit < s.cursor.index
  let bad : Option PossibleKey → Bool
    | some k => stale k && k.required
    | none => false
  if s.keys.any bad then none
  else some { s with keys := s.keys.map fun k => k.filter fun k => !stale k }

/-- Open a block collection at a column, unless one is open there. -/
def rollIndent (s : Scanner) (column : Nat) (number : Nat) (t : Token) : Scanner :=
  if s.flow == 0 && s.indent < column then
    { s with indents := s.indent :: s.indents, indent := column }.insertAt number t
  else s

/-- Close the block collections that are deeper than a column. -/
def unrollIndent (column : Int) : (fuel : Nat) → Scanner → Scanner
  | 0, s => s
  | fuel + 1, s =>
    if s.flow == 0 && column < s.indent then
      unrollIndent column fuel
        { s.emit .blockEnd with indents := s.indents.drop 1, indent := s.indents.headD (-1) }
    else s

/-- Close the block collections that are deeper than a column, however many. -/
def unroll (s : Scanner) (column : Int) : Scanner :=
  unrollIndent column (s.indents.length + 1) s

/-- Go to the next token, over blanks, comments and line breaks. -/
def toNextToken : (fuel : Nat) → Scanner → Scanner
  | 0, s => s
  | fuel + 1, s =>
    let tabs := s.flow != 0 || !s.keyAllowed
    let c := s.cursor.skipOrderMark
    let c := (c.skipWhile fun x => x == ' ' || (tabs && x == '\t')).skipComment
    if c.has isBreak then
      toNextToken fuel
        { s with cursor := c.readBreak.2, keyAllowed := s.keyAllowed || s.flow == 0 }
    else { s with cursor := c }

/-! ### Directives and properties -/

/-- The number of a run of digits, of which there must be one to nine. -/
def versionNumber (c : Cursor) : Option (Nat × Cursor) :=
  let (ds, c) := c.takeWhile Char.isDigit
  if ds.isEmpty || 9 < ds.length then none
  else some (ds.foldl (fun n d => 10 * n + (d.toNat - 48)) 0, c)

/-- A character of the address of a tag; `verbatim` ones may hold some more. -/
def isTagChar (verbatim : Bool) (x : Char) : Bool :=
  isNameChar x || ";/?:@&=+$.%!~*'()".toList.contains x || (verbatim && ",[]".toList.contains x)

/-- The bytes of an address with those spelled by a percent sign and two digits put in. -/
def tagBytes : List Char → Option (List UInt8)
  | [] => some []
  | '%' :: a :: b :: rest =>
    match Text.hexValue? a, Text.hexValue? b with
    | some x, some y => (tagBytes rest).map (UInt8.ofNat (16 * x + y) :: ·)
    | _, _ => none
  | '%' :: _ => none
  | x :: rest => (tagBytes rest).map (UInt8.ofNat x.toNat :: ·)

/-- The address of a tag behind characters that are known already. -/
def tagAddress (verbatim : Bool) (known : List Char) (c : Cursor) : Option (String × Cursor) :=
  let (read, c) := c.takeWhile (isTagChar verbatim)
  match tagBytes read with
  | none => none
  | some bytes => do
    let text ← String.fromUTF8? ⟨bytes.toArray⟩
    some (String.ofList (known.drop 1) ++ text, c)

/-- The handle of a tag: an exclamation mark, and a name and a second mark where there is one. -/
def tagHandle (c : Cursor) : List Char × Cursor :=
  let (name, c) := c.skip.takeWhile isNameChar
  if c.sees 0 '!' then ('!' :: (name ++ ['!']), c.skip) else ('!' :: name, c)

/-- A tag at the cursor. -/
def readTag (flow : Bool) (c : Cursor) : Option (Token × Cursor) := do
  let (token, c) ←
    if c.sees 1 '<' then do
      let (suffix, c) ← tagAddress true [] (c.skips 2)
      if suffix.isEmpty || !c.sees 0 '>' then none else some (Token.tag "" suffix, c.skip)
    else do
      let (handle, c) := tagHandle c
      if 1 < handle.length && handle.getLast? == some '!' then do
        let (suffix, c) ← tagAddress false [] c
        if suffix.isEmpty then none else some (Token.tag (String.ofList handle) suffix, c)
      else do
        let (suffix, c) ← tagAddress false handle c
        if suffix.isEmpty then some (Token.tag "" "!", c) else some (Token.tag "!" suffix, c)
  if (flow && c.sees 0 ',') || c.seesSeparator 0 then some (token, c) else none

/-- The name of an anchor or an alias at the cursor. -/
def readName (c : Cursor) : Option (String × Cursor) :=
  let (name, c) := c.skip.takeWhile isNameChar
  if name.isEmpty then none
  else if c.seesSeparator 0 || c.has "?:,]\x7d%@".toList.contains || c.sees 0 (Char.ofNat 0x60) then
    some (String.ofList name, c)
  else none

/-- A directive at the cursor, up to the end of its line. -/
def readDirective (c : Cursor) : Option (Token × Cursor) := do
  let (name, c) := c.skip.takeWhile isNameChar
  if !c.seesSeparator 0 then none
  else
    let (token, c) ←
      if name == "YAML".toList then do
        let (major, c) ← versionNumber (c.skipWhile isBlank)
        if !c.sees 0 '.' then none
        else do
          let (minor, c) ← versionNumber c.skip
          some (Token.version major minor, c)
      else if name == "TAG".toList then do
        let c := c.skipWhile isBlank
        if !c.sees 0 '!' then none
        else do
          let (handle, c) := tagHandle c
          if handle.length ≠ 1 && handle.getLast? ≠ some '!' then none
          else if !c.has isBlank then none
          else do
            let (start, c) ← tagAddress true [] (c.skipWhile isBlank)
            if start.isEmpty || !c.seesSeparator 0 then none
            else some (Token.tagPrefix (String.ofList handle) start, c)
      else none
    let c := (c.skipWhile isBlank).skipComment
    if !c.atBreak then none else some (token, c.readBreak.2)

/-! ### Tokens -/

/-- The end of the text: all blocks are closed. -/
def fetchEnd (s : Scanner) : Option Scanner := do
  let s ← (s.unroll (-1)).removeKey
  some (s.emit .streamEnd)

/-- A directive. -/
def fetchDirective (s : Scanner) : Option Scanner := do
  let s ← (s.unroll (-1)).removeKey
  let (token, cursor) ← readDirective s.cursor
  some { s with cursor, keyAllowed := false, tokens := s.tokens.push token }

/-- The start or the end of a document. -/
def fetchIndicator (s : Scanner) (t : Token) : Option Scanner := do
  let s ← (s.unroll (-1)).removeKey
  some { s.mark 3 t with keyAllowed := false }

/-- An opening bracket. -/
def fetchOpen (s : Scanner) (t : Token) : Option Scanner := do
  let s ← s.saveKey
  some { s.mark 1 t with flow := s.flow + 1, keys := none :: s.keys, keyAllowed := true }

/-- A closing bracket. -/
def fetchClose (s : Scanner) (t : Token) : Option Scanner := do
  let s ← s.removeKey
  let s := if s.flow == 0 then s else { s with flow := s.flow - 1, keys := s.keys.drop 1 }
  some { s.mark 1 t with keyAllowed := false }

/-- A comma between brackets. -/
def fetchFlowEntry (s : Scanner) : Option Scanner := do
  let s ← s.removeKey
  some { s.mark 1 .flowEntry with keyAllowed := true }

/-- The mark of an item of a block sequence. -/
def fetchBlockEntry (s : Scanner) : Option Scanner := do
  if s.flow == 0 && !s.keyAllowed then none
  else
    let s ← (s.rollIndent s.cursor.column s.tokens.size .blockSequenceStart).removeKey
    some { s.mark 1 .blockEntry with keyAllowed := true }

/-- The mark of a key. -/
def fetchKey (s : Scanner) : Option Scanner := do
  if s.flow == 0 && !s.keyAllowed then none
  else
    let s ← (s.rollIndent s.cursor.column s.tokens.size .blockMappingStart).removeKey
    some { s.mark 1 .key with keyAllowed := s.flow == 0 }

/-- The mark of a value, which makes what may have been a key one. -/
def fetchValue (s : Scanner) : Option Scanner :=
  match s.keys with
  | some k :: rest =>
    let s := (s.insertAt k.token .key).rollIndent k.column k.token .blockMappingStart
    some { s.mark 1 .value with keys := none :: rest, keyAllowed := false }
  | _ =>
    if s.flow == 0 && !s.keyAllowed then none
    else
      let s := s.rollIndent s.cursor.column s.tokens.size .blockMappingStart
      some { s.mark 1 .value with keyAllowed := s.flow == 0 }

/-- An anchor or an alias. -/
def fetchName (s : Scanner) (t : String → Token) : Option Scanner := do
  let s ← s.saveKey
  let (name, cursor) ← readName s.cursor
  some { s with cursor, keyAllowed := false, tokens := s.tokens.push (t name) }

/-- A tag. -/
def fetchTag (s : Scanner) : Option Scanner := do
  let s ← s.saveKey
  let (token, cursor) ← readTag (s.flow != 0) s.cursor
  some { s with cursor, keyAllowed := false, tokens := s.tokens.push token }

/-- A block scalar. -/
def fetchBlockScalar (s : Scanner) (literal : Bool) : Option Scanner := do
  let s ← s.removeKey
  let (cursor, text) ← blockText literal s.indent s.cursor.skip
  some { s with cursor, keyAllowed := true, tokens := s.tokens.push (.scalar false text) }

/-- A quoted scalar. -/
def fetchQuoted (s : Scanner) (quote : Char) : Option Scanner := do
  let s ← s.saveKey
  let c := s.cursor.skip
  let (cursor, text) ← quotedText quote (c.rest.length + 1) c (Fold.ofText "")
  some { s with cursor, keyAllowed := false, tokens := s.tokens.push (.scalar false text) }

/-- A plain scalar.  When it ends behind a line break, a key may follow. -/
def fetchPlain (s : Scanner) : Option Scanner := do
  let s ← s.saveKey
  let c := s.cursor
  let (cursor, f) ← plainText (s.flow != 0) (s.indent + 1) (c.rest.length + 1) c (Fold.ofText "")
  some { s with cursor, keyAllowed := f.broken, tokens := s.tokens.push (.scalar true f.text) }

/-- Characters that cannot start a plain scalar. -/
def indicators : List Char :=
  "-?:,[]\x7b\x7d#&*!|>'\"%@".toList ++ [Char.ofNat 0x60]

/-- Whether a plain scalar starts at the cursor. -/
def startsPlain (s : Scanner) (x : Char) : Bool :=
  let c := s.cursor
  !(isSeparator x || indicators.contains x) ||
    (x == '-' && !(c.peek 1).any isBlank) ||
    (s.flow == 0 && (x == '?' || x == ':') && !c.seesSeparator 1)

/-- The scanner behind the next token, and whether it was the end. -/
def fetch (s : Scanner) : Option (Scanner × Bool) := do
  let s ← (toNextToken (s.cursor.rest.length + 1) s).dropStaleKeys
  let s := s.unroll s.cursor.column
  let c := s.cursor
  let more (s : Option Scanner) : Option (Scanner × Bool) := s.map (·, false)
  let block := s.flow == 0
  match c.peek 0 with
  | none => s.fetchEnd.map (·, true)
  | some x =>
    if c.column == 0 && x == '%' then more s.fetchDirective
    else if c.seesIndicator '-' then more (s.fetchIndicator .documentStart)
    else if c.seesIndicator '.' then more (s.fetchIndicator .documentEnd)
    else if x == '[' then more (s.fetchOpen .flowSequenceStart)
    else if x == '{' then more (s.fetchOpen .flowMappingStart)
    else if x == ']' then more (s.fetchClose .flowSequenceEnd)
    else if x == '}' then more (s.fetchClose .flowMappingEnd)
    else if x == ',' then more s.fetchFlowEntry
    else if x == '-' && c.seesSeparator 1 then more s.fetchBlockEntry
    else if x == '?' && (!block || c.seesSeparator 1) then more s.fetchKey
    else if x == ':' && (!block || c.seesSeparator 1) then more s.fetchValue
    else if x == '*' then more (s.fetchName .reference)
    else if x == '&' then more (s.fetchName .anchor)
    else if x == '!' then more s.fetchTag
    else if x == '|' && block then more (s.fetchBlockScalar true)
    else if x == '>' && block then more (s.fetchBlockScalar false)
    else if x == '\'' then more (s.fetchQuoted '\'')
    else if x == '"' then more (s.fetchQuoted '"')
    else if s.startsPlain x then more s.fetchPlain
    else none

/-- All tokens from a scanner on. -/
def run : (fuel : Nat) → Scanner → Option (List Token)
  | 0, _ => none
  | fuel + 1, s =>
    match s.fetch with
    | none => none
    | some (s, true) => some s.tokens.toList
    | some (s, false) => run fuel s

end Scanner

/-- The tokens of a text, the end included. -/
def tokens? (text : List Char) : Option (List Token) :=
  if text.all isReadable then Scanner.run (text.length + 2) (Scanner.start text) else none

end Narrative.Yaml
