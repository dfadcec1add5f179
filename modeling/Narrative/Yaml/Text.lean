import Narrative.Yaml.Cursor
import Narrative.Text.Hex

/-!
# The texts of YAML scalars

Scalars without quotes and those in quotes run over several lines, which are folded: one line break
becomes a space and of several the first is dropped.  Block scalars keep their lines, or fold those
that are not indented further.
-/

namespace Narrative.Yaml

/-! ### Folding -/

/-- A text that is being read, with the white space behind it that is not part of it yet. -/
structure Fold where
  text : String
  /-- Blanks behind the text, when no line break has come. -/
  blanks : String
  /-- The first line break behind the text. -/
  first : String
  /-- The line breaks behind the first one. -/
  more : String
  broken : Bool

namespace Fold

/-- A text with nothing behind it. -/
def ofText (text : String) : Fold :=
  ⟨text, "", "", "", false⟩

/-- The white space folded into the text. -/
def join (f : Fold) : Fold :=
  if f.broken then
    if f.first == "\n" then ofText (f.text ++ if f.more.isEmpty then " " else f.more)
    else ofText (f.text ++ f.first ++ f.more)
  else ofText (f.text ++ f.blanks)

/-- One more character behind the white space. -/
def push (f : Fold) (c : Char) : Fold :=
  ofText (f.join.text.push c)

/-- One more blank. -/
def blank (f : Fold) (c : Char) : Fold :=
  if f.broken then f else { f with blanks := f.blanks.push c }

/-- One more line break. -/
def newline (f : Fold) (read : String) : Fold :=
  if f.broken then { f with more := f.more ++ read }
  else { f with blanks := "", first := read, broken := true }

end Fold

/-- The blanks and breaks from a cursor on.  A tab in front of column `indent` behind a break is an
error. -/
def separation (indent : Int) : (fuel : Nat) → Cursor → Fold → Option (Cursor × Fold)
  | 0, c, f => some (c, f)
  | fuel + 1, c, f =>
    match c.peek 0 with
    | none => some (c, f)
    | some x =>
      if isBlank x then
        if f.broken && c.column < indent && x == '\t' then none
        else separation indent fuel c.skip (f.blank x)
      else if isBreak x then
        let (read, c) := c.readBreak
        separation indent fuel c (f.newline read)
      else some (c, f)

/-! ### Plain scalars -/

/-- The characters of a plain scalar up to the next separator or the end of the scalar. -/
def plainRun (flow : Bool) : (fuel : Nat) → Cursor → Fold → Option (Cursor × Fold)
  | 0, c, f => some (c, f)
  | fuel + 1, c, f =>
    match c.peek 0 with
    | none => some (c, f)
    | some x =>
      if isSeparator x then some (c, f)
      else if flow && x == ':' && ",?[]\x7b\x7d".toList.any (c.sees 1) then none
      else if x == ':' && c.seesSeparator 1 then some (c, f)
      else if flow && ",[]\x7b\x7d".toList.contains x then some (c, f)
      else plainRun flow fuel c.skip (f.push x)

/-- A plain scalar in a collection at `indent - 1`. -/
def plainText (flow : Bool) (indent : Int) : (fuel : Nat) → Cursor → Fold → Option (Cursor × Fold)
  | 0, c, f => some (c, f)
  | fuel + 1, c, f =>
    if c.atIndicator || c.sees 0 '#' then some (c, f)
    else
      match plainRun flow c.rest.length c f with
      | none => none
      | some (c, f) =>
        if !c.has isSeparator then some (c, f)
        else
          match separation indent c.rest.length c f with
          | none => none
          | some (c, f) =>
            if !flow && c.column < indent then some (c, f) else plainText flow indent fuel c f

/-! ### Quoted scalars -/

/-- The character that a backslash and one more character stand for. -/
def escaped? (c : Char) : Option Char :=
  match c with
  | '0' => some '\x00'
  | 'a' => some '\x07'
  | 'b' => some '\x08'
  | 't' | '\t' => some '\t'
  | 'n' => some '\n'
  | 'v' => some '\x0b'
  | 'f' => some '\x0c'
  | 'r' => some '\r'
  | 'e' => some '\x1b'
  | ' ' => some ' '
  | '"' => some '"'
  | '/' => some '/'
  | '\\' => some '\\'
  | 'N' => some '\u0085'
  | '_' => some '\u00a0'
  | 'L' => some '\u2028'
  | 'P' => some '\u2029'
  | _ => none

/-- How many digits follow a backslash and one more character that spell a character by number. -/
def codeLength? (c : Char) : Option Nat :=
  match c with
  | 'x' => some 2
  | 'u' => some 4
  | 'U' => some 8
  | _ => none

/-- The character that a number of digits spell. -/
def codeChar? (digits : List Char) : Option Char := do
  let n ← Text.numeral? 16 digits
  if n < 0xD800 ∨ (0xE000 ≤ n ∧ n ≤ 0x10FFFF) then some (Char.ofNat n) else none

/-- The characters of a quoted scalar up to the next separator, its closing quote, or an escaped
line break. -/
def quotedRun (mark : Char) : (fuel : Nat) → Cursor → Fold → Option (Cursor × Fold)
  | 0, c, f => some (c, f)
  | fuel + 1, c, f =>
    match c.peek 0 with
    | none => some (c, f)
    | some x =>
      if isSeparator x then some (c, f)
      else if mark == '\'' && x == mark && c.sees 1 mark then
        quotedRun mark fuel (c.skips 2) (f.push mark)
      else if x == mark then some (c, f)
      else if mark == '"' && x == '\\' then
        match c.peek 1 with
        | none => none
        | some e =>
          if isBreak e then some (c.skip.readBreak.2, { f with broken := true })
          else
            match codeLength? e with
            | some n =>
              let digits := (c.rest.drop 2).take n
              if digits.length ≠ n then none
              else
                match codeChar? digits with
                | none => none
                | some x => quotedRun mark fuel (c.skips (n + 2)) (f.push x)
            | none =>
              match escaped? e with
              | none => none
              | some x => quotedRun mark fuel (c.skips 2) (f.push x)
      else quotedRun mark fuel c.skip (f.push x)

/-- A quoted scalar behind its opening quote, and the place behind its closing one. -/
def quotedText (mark : Char) : (fuel : Nat) → Cursor → Fold → Option (Cursor × String)
  | 0, _, _ => none
  | fuel + 1, c, f =>
    if c.atIndicator || c.rest.isEmpty then none
    else
      match quotedRun mark c.rest.length c f with
      | none => none
      | some (c, f) =>
        if c.sees 0 mark then some (c.skip, f.text)
        else
          match separation 0 c.rest.length c f with
          | none => none
          | some (c, f) => quotedText mark fuel c f.join

/-! ### Block scalars -/

/-- What to do with the line breaks at the end of a block scalar. -/
inductive Chomping where
  | strip
  | clip
  | keep
deriving DecidableEq

/-- The marks behind the indicator of a block scalar: chomping and indentation, in either order. -/
def blockHeader (c : Cursor) : Option (Chomping × Nat × Cursor) :=
  let chomp (c : Cursor) : Option (Chomping × Cursor) :=
    if c.sees 0 '+' then some (.keep, c.skip)
    else if c.sees 0 '-' then some (.strip, c.skip)
    else none
  let digit (c : Cursor) : Option (Option (Nat × Cursor)) :=
    match c.peek 0 with
    | none => some none
    | some x =>
      if x = '0' then none
      else if '1' ≤ x ∧ x ≤ '9' then some (some (x.toNat - 48, c.skip))
      else some none
  match chomp c with
  | some (chomping, c) =>
    match digit c with
    | none => none
    | some none => some (chomping, 0, c)
    | some (some (n, c)) => some (chomping, n, c)
  | none =>
    match digit c with
    | none => none
    | some none => some (.clip, 0, c)
    | some (some (n, c)) =>
      match chomp c with
      | some (chomping, c) => some (chomping, n, c)
      | none => some (.clip, n, c)

/-- Empty lines and the indentation behind them: the breaks, the greatest column that was reached
and the place.  An indentation of zero is not known yet. -/
def blockBreaks (indent : Nat) :
    (fuel : Nat) → Cursor → String → Nat → Option (String × Nat × Cursor)
  | 0, c, breaks, deepest => some (breaks, deepest, c)
  | fuel + 1, c, breaks, deepest =>
    let inside (c : Cursor) : Bool := indent == 0 || c.column < indent
    let spaces := (c.rest.takeWhile (· == ' ')).length
    let c := c.skips (if indent == 0 then spaces else min spaces (indent - c.column))
    let deepest := max deepest c.column
    if inside c && c.sees 0 '\t' then none
    else if c.has isBreak then
      let (read, c) := c.readBreak
      blockBreaks indent fuel c (breaks ++ read) deepest
    else some (breaks, deepest, c)

/-- A block scalar that is being read: its text, the break behind the last line and those behind
it, and whether the last line started with a blank. -/
structure BlockFold where
  text : String
  last : String
  more : String
  blankStart : Bool

/-- The lines of a block scalar at a known indentation. -/
def blockLines (literal : Bool) (indent : Nat) :
    (fuel : Nat) → Cursor → BlockFold → Option (BlockFold × Cursor)
  | 0, c, f => some (f, c)
  | fuel + 1, c, f =>
    if c.column ≠ indent ∨ c.rest.isEmpty then some (f, c)
    else
      let blankHere := c.has isBlank
      let text :=
        if !literal && f.last == "\n" && !f.blankStart && !blankHere then
          f.text ++ (if f.more.isEmpty then " " else "") ++ f.more
        else f.text ++ f.last ++ f.more
      let (line, c) := c.takeWhile fun x => !isBreak x
      let (last, c) := c.readBreak
      match blockBreaks indent (c.rest.length + 1) c "" 0 with
      | none => none
      | some (more, _, c) =>
        blockLines literal indent fuel c ⟨text ++ String.ofList line, last, more, blankHere⟩

/-- A block scalar behind its indicator, in a collection at `parent`. -/
def blockText (literal : Bool) (parent : Int) (c : Cursor) : Option (Cursor × String) :=
  match blockHeader c with
  | none => none
  | some (chomping, increment, c) =>
    let c := (c.skipWhile isBlank).skipComment
    if !c.atBreak then none
    else
      let c := c.readBreak.2
      let base := parent.toNat
      let indent := if increment = 0 then 0 else base + increment
      match blockBreaks indent (c.rest.length + 1) c "" 0 with
      | none => none
      | some (more, deepest, c) =>
        let indent := if indent = 0 then max (max deepest (parent + 1).toNat) 1 else indent
        match blockLines literal indent (c.rest.length + 1) c ⟨"", "", more, false⟩ with
        | none => none
        | some (f, c) =>
          match chomping with
          | .strip => some (c, f.text)
          | .clip => some (c, f.text ++ f.last)
          | .keep => some (c, f.text ++ f.last ++ f.more)

end Narrative.Yaml
