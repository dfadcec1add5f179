import Narrative.Json.Basic
import Narrative.Decimal.Binary
import Narrative.Decimal.Reading
import Narrative.Text.Hex

/-!
# The values of YAML scalars

A scalar without quotes and tag is null, a boolean, a number or else a text.  Digits behind a
leading zero are a text, and so is a number too large for a float.  Numbers that are no finite
floats become null.
-/

namespace Narrative.Yaml

/-- The texts of null. -/
def nullTexts : List String := ["~", "null", "Null", "NULL"]

/-- The boolean that a text writes. -/
def boolean? (text : String) : Option Bool :=
  if ["true", "True", "TRUE"].contains text then some true
  else if ["false", "False", "FALSE"].contains text then some false
  else none

/-- The natural number that a text of digits writes in a base. -/
def natural? (base : Nat) (text : List Char) : Option Nat :=
  if text.isEmpty then none else Text.numeral? base text

/-- Digits behind a leading zero. -/
def isPadded : List Char → Bool
  | '0' :: rest => !rest.isEmpty && rest.all Decimal.isDigit
  | _ => false

/-- The text behind its sign, and whether that was a minus sign. -/
def signed : List Char → Bool × List Char
  | '-' :: rest => (true, rest)
  | '+' :: rest => (false, rest)
  | text => (false, text)

/-- The natural number that a text without a sign writes, with a mark for its base. -/
def magnitude? : List Char → Option Nat
  | '0' :: 'x' :: rest => natural? 16 rest
  | '0' :: 'o' :: rest => natural? 8 rest
  | '0' :: 'b' :: rest => natural? 2 rest
  | text => if isPadded text then none else natural? 10 text

/-- The integer that a text writes, when it fits into a hundred and twenty-eight bits. -/
def integer? (text : List Char) : Option Int :=
  let (negative, body) := signed text
  match magnitude? body with
  | none => none
  | some n =>
    if negative then (if n ≤ Nat.pow 2 127 then some (-(n : Int)) else none)
    else if n < Nat.pow 2 128 then some n
    else none

/-- The document of an integer, which must fit into sixty-four bits. -/
def integerJson? (n : Int) : Option Json :=
  if -Nat.pow 2 63 ≤ n ∧ n < Nat.pow 2 64 then some (.num (.int n)) else none

/-- The document of the float that a text writes: null for one that is no finite number. -/
def floatJson? (text : String) : Option Json :=
  if [".inf", ".Inf", ".INF", "+.inf", "+.Inf", "+.INF", "-.inf", "-.Inf", "-.INF",
      ".nan", ".NaN", ".NAN"].contains text then some .null
  else
    match Decimal.Numeral.read? text.toList with
    | none => none
    | some n =>
      match Decimal.Binary.ofFloat n.value with
      | .finite _ _ _ => some (.num (.float n.value))
      | _ => none

/-- The document of a scalar without quotes and tag. -/
def plainJson? (text : String) : Option Json :=
  if text.isEmpty || nullTexts.contains text then some .null
  else
    match boolean? text with
    | some b => some (.bool b)
    | none =>
      match integer? text.toList with
      | some n => integerJson? n
      | none =>
        if isPadded (signed text.toList).2 then some (.str text)
        else some ((floatJson? text).getD (.str text))

/-- The document of a scalar.  The standard tags ask for a kind, the tags of applications are
refused, and under any other tag a scalar is a text. -/
def scalarJson? (plain : Bool) (tag : Option String) (text : String) : Option Json :=
  match tag with
  | none => if plain then plainJson? text else some (.str text)
  | some "tag:yaml.org,2002:null" => if nullTexts.contains text then some .null else none
  | some "tag:yaml.org,2002:bool" => (boolean? text).map .bool
  | some "tag:yaml.org,2002:int" => (integer? text.toList).bind integerJson?
  | some "tag:yaml.org,2002:float" => floatJson? text
  | some tag => if tag.toList.head? = some '!' then none else some (.str text)

end Narrative.Yaml
