/-!
# Places in a YAML text

A cursor is what is left of a text, with the line and the column of its first character.  The end of
the text counts as a blank and as a line break.
-/

namespace Narrative.Yaml

/-- A space or a tab. -/
def isBlank (c : Char) : Bool :=
  c == ' ' || c == '\t'

/-- A character that ends a line. -/
def isBreak (c : Char) : Bool :=
  c == '\n' || c == '\r' || c == '\u0085' || c == '\u2028' || c == '\u2029'

/-- A character that separates words. -/
def isSeparator (c : Char) : Bool :=
  isBlank c || isBreak c

/-- A character of a name: an ASCII letter or digit, a hyphen or an underscore. -/
def isNameChar (c : Char) : Bool :=
  c.isAlphanum || c == '-' || c == '_'

/-- A character that may stand in a text: control characters are not, but for tabs and line
breaks. -/
def isReadable (c : Char) : Bool :=
  let n := c.toNat
  n == 9 || n == 10 || n == 13 || (0x20 ≤ n && n ≤ 0x7E) || n == 0x85 ||
    (0xA0 ≤ n && n ≤ 0xD7FF) || (0xE000 ≤ n && n ≤ 0xFFFD) || 0x10000 ≤ n

/-- A place in a text. -/
structure Cursor where
  rest : List Char
  index : Nat
  line : Nat
  column : Nat

namespace Cursor

/-- The start of a text. -/
def start (text : List Char) : Cursor :=
  ⟨text, 0, 0, 0⟩

/-- The character a number of places ahead; `none` behind the end. -/
def peek (c : Cursor) (n : Nat) : Option Char :=
  c.rest[n]?

/-- Whether the character ahead is the given one. -/
def sees (c : Cursor) (n : Nat) (x : Char) : Bool :=
  c.peek n == some x

/-- Whether a blank, a break or the end is ahead. -/
def seesSeparator (c : Cursor) (n : Nat) : Bool :=
  match c.peek n with
  | none => true
  | some x => isSeparator x

/-- Whether a break or the end is here. -/
def atBreak (c : Cursor) : Bool :=
  match c.peek 0 with
  | none => true
  | some x => isBreak x

/-- Whether a character that satisfies a test is here. -/
def has (c : Cursor) (test : Char → Bool) : Bool :=
  match c.peek 0 with
  | none => false
  | some x => test x

/-- Behind one character that is no break. -/
def skip (c : Cursor) : Cursor :=
  ⟨c.rest.drop 1, c.index + 1, c.line, c.column + 1⟩

/-- Behind a number of characters. -/
def skips (c : Cursor) (n : Nat) : Cursor :=
  ⟨c.rest.drop n, c.index + n, c.line, c.column + n⟩

/-- The line break here, as it is read, and the place behind it.  Two characters may make one break,
and all breaks but the two Unicode separators are read as a line feed. -/
def readBreak (c : Cursor) : String × Cursor :=
  match c.rest with
  | '\r' :: '\n' :: rest => ("\n", ⟨rest, c.index + 2, c.line + 1, 0⟩)
  | x :: rest =>
    if x = '\u2028' ∨ x = '\u2029' then (String.singleton x, ⟨rest, c.index + 1, c.line + 1, 0⟩)
    else if isBreak x then ("\n", ⟨rest, c.index + 1, c.line + 1, 0⟩)
    else ("", c)
  | [] => ("", c)

/-- Behind the characters that satisfy a test, and those characters. -/
def takeWhile (c : Cursor) (test : Char → Bool) : List Char × Cursor :=
  let taken := c.rest.takeWhile test
  (taken, c.skips taken.length)

/-- Behind the characters that satisfy a test. -/
def skipWhile (c : Cursor) (test : Char → Bool) : Cursor :=
  (c.takeWhile test).2

/-- Behind the byte order mark that a line may start with; it takes up a column. -/
def skipOrderMark (c : Cursor) : Cursor :=
  if c.column == 0 && c.sees 0 '\ufeff' then c.skip else c

/-- Behind a comment, if one starts here. -/
def skipComment (c : Cursor) : Cursor :=
  if c.sees 0 '#' then c.skipWhile fun x => !isBreak x else c

/-- Whether a line of the three given marks, a document indicator, starts here. -/
def seesIndicator (c : Cursor) (mark : Char) : Bool :=
  c.column == 0 && c.sees 0 mark && c.sees 1 mark && c.sees 2 mark && c.seesSeparator 3

/-- Whether a document ends or starts here. -/
def atIndicator (c : Cursor) : Bool :=
  c.seesIndicator '-' || c.seesIndicator '.'

end Cursor

end Narrative.Yaml
