import Narrative.Operation.Basic
import Narrative.State.Basic
import Narrative.Json.Equality
import Narrative.Decimal.Layout

/-!
# Applying operations

An operation fails before it changes anything.  A batch is not undone when one of its operations
fails: what came before stays applied.
-/

namespace Narrative

/-- A number as it is joined to a string: whole numbers below `10 ^ 15` have no point. -/
def numberText (x : Float) : List Char :=
  match Decimal.whole? x with
  | some n => if n.natAbs < Nat.pow 10 15 then Decimal.integer n else Decimal.plain x
  | none => Decimal.plain x

namespace Assignment

/-- The result of arithmetic before it is written back. -/
inductive Combined where
  | number (value : Float)
  | text (value : String)

/-- The arithmetic of an assignment on floats. -/
def arithmetic : Assignment → Float → Float → Option Float
  | add, x, y => some (x + y)
  | subtract, x, y => some (x - y)
  | multiply, x, y => some (x * y)
  | divide, x, y => some (x / y)
  | remainder, x, y => some (Decimal.remainder x y)
  | _, _, _ => none

/-- Arithmetic on two documents.  Addition also joins strings, and a string with a number on either
side; all else needs two numbers. -/
def combine (operator : Assignment) (left right : Json) : Option Combined :=
  match operator, left, right with
  | add, .str a, .str b => some (.text (a ++ b))
  | add, .str a, .num b => some (.text (a ++ String.ofList (numberText b.toFloat)))
  | add, .num a, .str b => some (.text (String.ofList (numberText a.toFloat) ++ b))
  | _, .num a, .num b => (operator.arithmetic a.toFloat b.toFloat).map .number
  | _, _, _ => none

end Assignment

namespace State

/-- The state after an operation. -/
def apply (s : State) (o : Operation) : Except StateError State :=
  match s.resolvePath o.target true with
  | .error e => .error e
  | .ok place =>
    if place.missing && o.operator.isCompound then
      .error (.compoundOnUndefined o.operator o.target)
    else
      match s.resolve o.operand with
      | .error e => .error e
      | .ok none => .error (.undefinedOperand o.operator o.target)
      | .ok (some right) =>
        match o.operator with
        | .set => s.write o.target right
        | .append | .remove =>
          match s.slot? o.target with
          | some ⟨.arr items, fill⟩ =>
            if o.operator = .append then ofJson (fill (.arr (items ++ [right])))
            else ofJson (fill (.arr (items.filter fun item => !item.same right)))
          | other =>
            .error (.notAnArray (.assignment o.operator) o.target.dotted
              (other.map fun slot => slot.value.kind))
        | _ =>
          let left := place.value?.getD .null
          match o.operator.combine left right with
          | none =>
            .error (.incompatibleOperands o.operator o.target left.kind right.kind)
          | some (.text t) => s.write o.target (.str t)
          | some (.number x) =>
            match Number.ofFloat? x with
            | some n => s.write o.target (.num n)
            | none => .error (.nonFiniteResult o.operator o.target)

/-- Operations one after the other: the state they leave, and the error of the first that fails. -/
def applyAll (s : State) : List Operation → State × Option StateError
  | [] => (s, none)
  | o :: rest =>
    match s.apply o with
    | .error e => (s, some e)
    | .ok s => s.applyAll rest

end State

end Narrative
