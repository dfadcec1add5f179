import Narrative.Source.Operand
import Narrative.Operation.Basic

/-!
# Statements

A statement is an operator between two operands, with a single space on each side.  Several tokens
may stand in it when all first occurrences lie inside that of the longest one, which then is the
operator; so `NOT IN` wins over the `IN` inside it, and two separate operators are an error.
-/

namespace Narrative

/-- `left operator right`. -/
structure Statement where
  left : Operand
  operator : Operator
  right : Operand
deriving DecidableEq

namespace Source

/-- A text with one space at each end. -/
def padded (code : List Char) : List Char :=
  ' ' :: (code ++ [' '])

/-- The token of an operator with the spaces around it. -/
def delimited (operator : Operator) : List Char :=
  padded operator.token.toList

/-- The parts of a padded text before and behind the first place of an operator. -/
def splitAt (operator : Operator) (text : List Char) : Option (List Char × List Char) :=
  Text.cut (delimited operator) text

/-- An operator with the place of its token in a padded text. -/
structure Candidate where
  operator : Operator
  first : Nat
  last : Nat
deriving DecidableEq

namespace Candidate

/-- The number of characters of the token. -/
def length (c : Candidate) : Nat :=
  c.last - c.first

/-- Whether the place of `inner` lies in that of `outer`. -/
def within (inner outer : Candidate) : Bool :=
  outer.first ≤ inner.first && inner.last ≤ outer.last

end Candidate

/-- The operators of a padded text, each at its first place. -/
def candidates (text : List Char) : List Candidate :=
  Operator.all.filterMap fun operator =>
    (splitAt operator text).map fun parts =>
      ⟨operator, parts.1.length + 1, parts.1.length + 1 + operator.token.length⟩

/-- The last of the longest candidates. -/
def longest? (found : List Candidate) : Option Candidate :=
  found.foldl (fun best c =>
    match best with
    | none => some c
    | some b => if c.length < b.length then some b else some c) none

/-- The operator of a statement. -/
def findOperator (code : List Char) : Except SourceError Operator :=
  let found := candidates (padded code)
  match longest? found with
  | none => .error (.missingOperator (String.ofList code))
  | some outer =>
    if found.all fun c => c.within outer then .ok outer.operator
    else .error (.ambiguousOperator (String.ofList code) (found.map Candidate.operator))

end Source

namespace Statement

open Source

/-- The statement that a text writes, in a storyline or in none. -/
def read (storyline : Option String) (code : List Char) : Except SourceError Statement :=
  match findOperator code with
  | .error e => .error e
  | .ok operator =>
    match splitAt operator (padded code) with
    | none => .error (.missingOperator (String.ofList code))
    | some (before, rest) =>
      let left := Text.trim before
      let right := Text.trim rest
      if left.isEmpty then .error (.missingLeft (String.ofList code))
      else if right.isEmpty then .error (.missingRight (String.ofList code))
      else
        match Operand.read storyline left with
        | .error e => .error e
        | .ok l =>
          match Operand.read storyline right with
          | .error e => .error e
          | .ok r => .ok ⟨l, operator, r⟩

end Statement

namespace Operation

/-- The operation that a statement writes. -/
def read (storyline : Option String) (code : String) : Except SourceError Operation :=
  match Statement.read storyline code.toList with
  | .error e => .error e
  | .ok s =>
    match s.operator, s.left with
    | .assignment operator, .access target => .ok ⟨target, operator, s.right⟩
    | .assignment _, _ => .error (.targetNotAccess code)
    | .comparison operator, _ => .error (.invalidOperator (.comparison operator) code)

/-- The operations that a list of statements writes; the first error wins. -/
def readAll (storyline : Option String) : List String → Except SourceError (List Operation)
  | [] => .ok []
  | code :: rest =>
    match read storyline code with
    | .error e => .error e
    | .ok operation => (readAll storyline rest).map (operation :: ·)

end Operation

end Narrative
