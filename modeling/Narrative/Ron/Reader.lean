import Narrative.Session.Snapshot
import Narrative.Decimal.Binary
import Narrative.Decimal.Reading
import Narrative.Text.Hex
import Narrative.Text.Search

/-!
# Reading object notation

A text of the notation is first read into a tree, `Ron`, which tells the shapes apart, and then
taken as a JSON document or as a snapshot.  White space and comments may stand between tokens, and
a comma may stand behind the last part of anything.

A text may start with attributes that turn on extensions of the notation.  Only one of them,
`implicit_some`, makes a difference here: it lets the content of a value that may be missing stand
without parentheses.

Values are at most 128 levels deep.  A container takes up one level and each of its parts another one;
the content of a value that may be missing takes up one.
-/

namespace Narrative

/-- What a text of the notation writes. -/
inductive Ron where
  | unit
  | nothing
  | just (content : Ron)
  | bool (value : Bool)
  /-- A number; `none` for one that is not finite. -/
  | num (value : Option Number)
  | char (value : Char)
  | str (value : String)
  | list (items : List Ron)
  | tuple (items : List Ron)
  | map (entries : List (Ron × Ron))
  | record (fields : List (String × Ron))
deriving Inhabited

namespace Ron

/-- A reader of what stands at the start of a text; it gives what follows too. -/
abbrev Reader (α : Type) :=
  List Char → Option (α × List Char)

/-! ### White space and names -/

/-- Where in white space and comments a character stands. -/
inductive Gap where
  | space
  | slash
  | line
  | block (depth : Nat)

/-- The text behind white space and comments. -/
def skip : Gap → List Char → Option (List Char)
  | .space, [] => some []
  | .space, c :: rest =>
    if c = ' ' ∨ c = '\t' ∨ c = '\n' ∨ c = '\r' then skip .space rest
    else if c = '/' then skip .slash rest
    else some (c :: rest)
  | .slash, [] => none
  | .slash, c :: rest =>
    if c = '/' then skip .line rest else if c = '*' then skip (.block 0) rest else none
  | .line, [] => some []
  | .line, c :: rest => if c = '\n' then skip .space rest else skip .line rest
  | .block _, [] => none
  | .block depth, '/' :: '*' :: rest => skip (.block (depth + 1)) rest
  | .block 0, '*' :: '/' :: rest => skip .space rest
  | .block (depth + 1), '*' :: '/' :: rest => skip (.block depth) rest
  | .block depth, _ :: rest => skip (.block depth) rest

/-- The text behind a comma, if one follows, and whether there was one. -/
def comma (text : List Char) : Option (Bool × List Char) :=
  match skip .space text with
  | some (',' :: rest) => (skip .space rest).map (true, ·)
  | some rest => some (false, rest)
  | none => none

/-- A character that a name may start with. -/
def isNameStart (c : Char) : Bool :=
  c.isAlpha || c == '_'

/-- A character of a name. -/
def isNameChar (c : Char) : Bool :=
  c.isAlphanum || c == '_'

/-- A character of a name that is marked as such. -/
def isRawChar (c : Char) : Bool :=
  isNameChar c || c == '.' || c == '+' || c == '-'

/-- The text behind a whole word. -/
def word? (word : String) (text : List Char) : Option (List Char) :=
  match Text.after? word.toList text with
  | some (c :: rest) => if isNameChar c then none else some (c :: rest)
  | some [] => some []
  | none => none

/-- A name at the start of a text, and what follows.  One with points or signs must be marked. -/
def name? (text : List Char) : Option (String × List Char) :=
  match text with
  | 'r' :: '"' :: _ => none
  | 'r' :: '#' :: rest =>
    let taken := rest.takeWhile isRawChar
    if taken.isEmpty then none else some (String.ofList taken, rest.drop taken.length)
  | c :: _ =>
    if isNameStart c then
      let taken := text.takeWhile isNameChar
      if taken.length < (text.takeWhile isRawChar).length then none
      else some (String.ofList taken, text.drop taken.length)
    else none
  | [] => none

/-! ### Numbers -/

/-- A character that an integer may hold. -/
def isIntegerChar (c : Char) : Bool :=
  (Text.hexValue? c).isSome || c == '_'

/-- A character that a float may hold. -/
def isFloatChar (c : Char) : Bool :=
  Decimal.isDigit c || c == 'e' || c == 'E' || c == '.' || c == '+' || c == '-' || c == '_'

/-- The magnitude of an integer, with a mark for its base, and what follows. -/
def magnitude? (text : List Char) : Option (Nat × List Char) :=
  let (base, text) :=
    match text with
    | '0' :: 'x' :: rest => (16, rest)
    | '0' :: 'b' :: rest => (2, rest)
    | '0' :: 'o' :: rest => (8, rest)
    | text => (10, text)
  let taken := text.takeWhile isIntegerChar
  if taken.isEmpty || taken.head? == some '_' then none
  else (Text.numeral? base (taken.filter (· != '_'))).map (·, text.drop taken.length)

/-- An integer of sixty-four bits, signed when it has a sign, and what follows. -/
def integer? (text : List Char) : Option (Int × List Char) :=
  match text with
  | '-' :: text =>
    match magnitude? text with
    | some (n, rest) => if n ≤ Nat.pow 2 63 then some (-(n : Int), rest) else none
    | none => none
  | '+' :: text =>
    match magnitude? text with
    | some (n, rest) => if n < Nat.pow 2 63 then some ((n : Int), rest) else none
    | none => none
  | text =>
    match magnitude? text with
    | some (n, rest) => if n < Nat.pow 2 64 then some ((n : Int), rest) else none
    | none => none

/-- A float, and what follows; `none` inside for one that is not finite. -/
def float? (text : List Char) : Option (Option Number × List Char) :=
  let taken := text.takeWhile isFloatChar
  match Decimal.Numeral.read? taken with
  | none => none
  | some n =>
    let rest := text.drop taken.length
    match Decimal.Binary.ofFloat n.value with
    | .finite _ _ _ => some (some (.float n.value), rest)
    | _ => some (none, rest)

/-- Whether more of a text belongs to a float than to an integer. -/
def looksFloat (text : List Char) : Bool :=
  let body :=
    match text with
    | '+' :: rest => rest
    | '-' :: rest => rest
    | text => text
  (body.takeWhile isIntegerChar).length < (body.takeWhile isFloatChar).length

/-- A number, and what follows.  What is no integer may still be a float. -/
def number? (text : List Char) : Option (Option Number × List Char) :=
  if looksFloat text then float? text
  else
    match integer? text with
    | some (n, rest) => some (some (.int n), rest)
    | none => float? text

/-! ### Texts -/

/-- The character of one to six digits up to a closing brace, and what follows. -/
def codeChar? (text : List Char) : Option (Char × List Char) :=
  let digits := text.takeWhile fun c => (Text.hexValue? c).isSome
  if digits.isEmpty || 6 < digits.length then none
  else
    match text.drop digits.length, Text.numeral? 16 digits with
    | '}' :: rest, some n =>
      if n < 0xD800 ∨ (0xE000 ≤ n ∧ n ≤ 0x10FFFF) then some (Char.ofNat n, rest) else none
    | _, _ => none

/-- The character of an escape behind its backslash, and what follows. -/
def escape? (text : List Char) : Option (Char × List Char) :=
  match text with
  | 'x' :: a :: b :: rest => (Text.numeral? 16 [a, b]).map fun n => (Char.ofNat n, rest)
  | 'u' :: '{' :: rest => codeChar? rest
  | 'n' :: rest => some ('\n', rest)
  | 'r' :: rest => some ('\r', rest)
  | 't' :: rest => some ('\t', rest)
  | '0' :: rest => some ('\x00', rest)
  | c :: rest => if c = '\'' ∨ c = '"' ∨ c = '\\' then some (c, rest) else none
  | [] => none

/-- The characters up to the closing quote, and what follows. -/
def chars? : (fuel : Nat) → List Char → Option (List Char × List Char)
  | 0, _ => none
  | _ + 1, [] => none
  | fuel + 1, c :: rest =>
    if c = '"' then some ([], rest)
    else if c = '\\' then
      match escape? rest with
      | none => none
      | some (x, rest) => (chars? fuel rest).map fun parts => (x :: parts.1, parts.2)
    else (chars? fuel rest).map fun parts => (c :: parts.1, parts.2)

/-- A text at the start, and what follows.  Behind an `r` and any number of hash signs it goes up
to a quote with as many of them, and there are no escapes in it. -/
def text? (text : List Char) : Option (String × List Char) :=
  match text with
  | '"' :: rest =>
    (chars? (rest.length + 1) rest).map fun parts => (String.ofList parts.1, parts.2)
  | 'r' :: rest =>
    let hashes := rest.takeWhile (· == '#')
    match rest.drop hashes.length with
    | '"' :: rest => (Text.cut ('"' :: hashes) rest).map fun parts => (String.ofList parts.1, parts.2)
    | _ => none
  | _ => none

/-- A character between single quotes, and what follows. -/
def char? (text : List Char) : Option (Char × List Char) :=
  let close (c : Char) : List Char → Option (Char × List Char)
    | '\'' :: rest => some (c, rest)
    | _ => none
  match text with
  | '\'' :: '\\' :: rest => (escape? rest).bind fun parts => close parts.1 parts.2
  | '\'' :: c :: rest => if c = '\'' then none else close c rest
  | _ => none

/-! ### Parts -/

/-- The parts up to a closing mark, with commas between them; `free` tells whether one may come
without a comma. -/
def parts? {α : Type} (part? : Reader α) (last : Char) : (fuel : Nat) → (free : Bool) →
    Reader (List α)
  | 0, _, _ => none
  | fuel + 1, free, text => do
    match ← skip .space text with
    | [] => none
    | c :: rest =>
      if c = last then some ([], rest)
      else if !free then none
      else
        let (part, rest) ← part? (c :: rest)
        let (free, rest) ← comma rest
        let (parts, rest) ← parts? part? last fuel free rest
        some (part :: parts, rest)

/-- The parts of a container behind its opening mark. -/
def container? {α : Type} (part? : Reader α) (last : Char) (text : List Char) :
    Option (List α × List Char) :=
  parts? part? last (text.length + 1) true text

/-- A key and a value with a colon between them. -/
def pair? {α β : Type} (key? : Reader α) (value? : Reader β) (text : List Char) :
    Option ((α × β) × List Char) := do
  let (key, rest) ← key? text
  match ← skip .space rest with
  | ':' :: rest =>
    let (value, rest) ← value? (← skip .space rest)
    some ((key, value), rest)
  | _ => none

/-! ### Values -/

/-- The text behind a number that is not finite, with or without a sign. -/
def infinite? (text : List Char) : Option (List Char) :=
  ["inf", "+inf", "-inf", "NaN", "+NaN", "-NaN"].findSome? fun word => word? word text

/-- Whether a record with named fields stands behind an opening parenthesis. -/
def startsRecord (text : List Char) : Bool :=
  match (skip .space text).bind name? with
  | none => false
  | some (_, rest) =>
    match skip .space rest with
    | some (':' :: _) => true
    | _ => false

/-- What a value that may be missing holds, behind its word. -/
def just? (implicit : Bool) (content? : Reader Ron) (text : List Char) :
    Option (Ron × List Char) := do
  match ← skip .space text with
  | '(' :: rest =>
    let (content, rest) ← content? (← skip .space rest)
    match ← comma rest with
    | (_, ')' :: rest) => some (just content, rest)
    | _ => none
  | rest =>
    if implicit then (content? rest).map fun parts => (just parts.1, parts.2) else none

/-- What stands behind an opening parenthesis: a record if it starts with a field. -/
def group? (part? : Reader Ron) (text : List Char) : Option (Ron × List Char) :=
  if startsRecord text then
    (container? (pair? name? part?) ')' text).map fun parts => (record parts.1, parts.2)
  else (container? part? ')' text).map fun parts => (tuple parts.1, parts.2)

/-- A value without a word or a name in front. -/
def bare? (part? : Option (Reader Ron)) (text : List Char) : Option (Ron × List Char) :=
  match text with
  | [] => none
  | c :: rest =>
    if c = '(' then part?.bind fun part? => group? part? rest
    else if c = '[' then part?.bind fun part? =>
      (container? part? ']' rest).map fun parts => (list parts.1, parts.2)
    else if c = '{' then part?.bind fun part? =>
      (container? (pair? part? part?) '}' rest).map fun parts => (map parts.1, parts.2)
    else if Decimal.isDigit c ∨ c = '+' ∨ c = '-' then
      (number? text).map fun parts => (num parts.1, parts.2)
    else if c = '.' then (float? text).map fun parts => (num parts.1, parts.2)
    else if c = '"' ∨ c = 'r' then (text? text).map fun parts => (str parts.1, parts.2)
    else if c = '\'' then (char? text).map fun parts => (char parts.1, parts.2)
    else none

/-- A value, with readers for what may stand in it; without one for parts no container may open. -/
def valueOf? (implicit : Bool) (content? : Reader Ron) (part? : Option (Reader Ron))
    (text : List Char) : Option (Ron × List Char) :=
  match word? "true" text, word? "false" text, word? "Some" text, word? "None" text with
  | some rest, _, _, _ => some (bool true, rest)
  | _, some rest, _, _ => some (bool false, rest)
  | _, _, some rest, _ => just? implicit content? rest
  | _, _, _, some rest => some (nothing, rest)
  | none, none, none, none =>
    match text with
    | '(' :: ')' :: rest => some (unit, rest)
    | _ =>
      match infinite? text, name? text with
      | some rest, _ => some (num none, rest)
      | none, some (_, rest) =>
        match skip .space rest with
        | some ('(' :: rest) => part?.bind fun part? => group? part? rest
        | some rest => some (unit, rest)
        | none => none
      | none, none => bare? part? text

/-- The reader where there are no more levels. -/
def tooDeep : Reader Ron :=
  fun _ => none

/-- A value that takes up at most the given number of levels. -/
def value? (implicit : Bool) : (levels : Nat) → Reader Ron
  | 0, text => valueOf? implicit tooDeep none text
  | 1, text => valueOf? implicit (value? implicit 0) (some tooDeep) text
  | levels + 2, text =>
    valueOf? implicit (value? implicit (levels + 1)) (some (value? implicit levels)) text

/-! ### Attributes -/

/-- The names of the extensions. -/
def extensions : List String :=
  ["unwrap_newtypes", "implicit_some", "unwrap_variant_newtypes"]

/-- The text behind the given marks, each with a gap behind it. -/
def marks? : List String → List Char → Option (List Char)
  | [], text => some text
  | mark :: marks, text => do marks? marks (← skip .space (← Text.after? mark.toList text))

/-- The names of extensions with commas between them. -/
def extensions? : (fuel : Nat) → Reader (List String)
  | 0, _ => none
  | fuel + 1, text => do
    let (name, rest) ← name? text
    if !extensions.contains name then none
    else
      let (separated, rest) ← comma rest
      if (rest.head?.map isNameChar).getD false then
        if separated then (extensions? fuel rest).map fun parts => (name :: parts.1, parts.2)
        else none
      else some ([name], rest)

/-- The extensions that the attributes at the start of a text turn on. -/
def attributes? : (fuel : Nat) → Reader (List String)
  | 0, _ => none
  | fuel + 1, text =>
    if text.head? = some '#' then do
      let rest ← marks? ["#", "!", "[", "enable", "("] text
      let (names, rest) ← extensions? (rest.length + 1) rest
      let rest ← marks? [")", "]"] rest
      let (more, rest) ← attributes? fuel rest
      some (names ++ more, rest)
    else some ([], text)

/-! ### Documents and snapshots -/

/-- The text of a string. -/
def string? : Ron → Option String
  | str s => some s
  | _ => none

mutual

/-- A value as a JSON document: what is missing or not finite is null.  A mapping has to have texts
as keys. -/
def toJson? : Ron → Option Json
  | unit => some .null
  | nothing => some .null
  | just content => content.toJson?
  | bool b => some (.bool b)
  | num (some n) => some (.num n)
  | num none => some .null
  | char c => some (.str (String.singleton c))
  | str s => some (.str s)
  | list items => (itemsToJson? items).map .arr
  | tuple items => (itemsToJson? items).map .arr
  | map entries => (entriesToJson? entries).map fun entries => .obj (Entries.distinct entries)
  | record fields => (fieldsToJson? fields).map fun fields => .obj (Entries.distinct fields)

/-- `toJson?` on each item. -/
def itemsToJson? : List Ron → Option (List Json)
  | [] => some []
  | item :: rest =>
    match item.toJson?, itemsToJson? rest with
    | some item, some rest => some (item :: rest)
    | _, _ => none

/-- `toJson?` on each value under a text. -/
def entriesToJson? : List (Ron × Ron) → Option (List (String × Json))
  | [] => some []
  | (key, value) :: rest =>
    match key.string?, value.toJson?, entriesToJson? rest with
    | some key, some value, some rest => some ((key, value) :: rest)
    | _, _, _ => none

/-- `toJson?` on each value of a field. -/
def fieldsToJson? : List (String × Ron) → Option (List (String × Json))
  | [] => some []
  | (name, value) :: rest =>
    match value.toJson?, fieldsToJson? rest with
    | some value, some rest => some ((name, value) :: rest)
    | _, _ => none

end

/-- The texts of a list of strings. -/
def strings? : Ron → Option (List String)
  | list items => items.mapM string?
  | _ => none

/-- A text that may be missing; an `implicit` one stands for itself. -/
def option? (implicit : Bool) : Ron → Option (Option String)
  | nothing => some none
  | just content => content.string?.map some
  | bare => if implicit then bare.string?.map some else none

/-- A record with the extensions that were turned on in front of it. -/
structure Document where
  extensions : List String
  fields : List (String × Ron)

/-- The extension that lets a value stand for one that may be missing. -/
def Document.implicit (d : Document) : Bool :=
  d.extensions.contains "implicit_some"

/-- The field of a name, which stands at most once. -/
def Document.field? (d : Document) (name : String) : Option (Option Ron) :=
  match d.fields.filter fun field => field.1 == name with
  | [] => some none
  | [field] => some (some field.2)
  | _ => none

/-- How many levels deep a value may be. -/
def levelLimit : Nat := 128

/-- The record that a whole text is; it may have the given name. -/
def document? (title : String) (text : List Char) : Option Document := do
  let start ← skip .space text
  let (extensions, start) ← attributes? (start.length + 1) start
  let start ←
    match name? start with
    | some (found, rest) => if found = title then skip .space rest else none
    | none => some start
  match start with
  | '(' :: rest =>
    let part? := value? (extensions.contains "implicit_some") (levelLimit - 2)
    let (fields, rest) ← container? (pair? name? part?) ')' rest
    if (← skip .space rest).isEmpty then some ⟨extensions, fields⟩ else none
  | _ => none

end Ron

namespace Snapshot

/-- The snapshot that a text writes. -/
def ofRon? (text : String) : Option Snapshot := do
  let d ← Ron.document? "Snapshot" text.toList
  let some state ← d.field? "state" | none
  let some viewed ← d.field? "viewed_events" | none
  let current ← d.field? "current_event"
  let entries ← (← state.toJson?).entries?
  some ⟨⟨entries⟩, ← viewed.strings?, ← (current.getD .nothing).option? d.implicit⟩

end Snapshot

end Narrative
