import Narrative.Lottery.Generator

/-!
# The lottery

A weighted draw takes the whole part of the total weight times a roll in `[0, 1)` and goes down the
list of weights, taking each away from it, until less than the next weight is left.
-/

namespace Narrative

namespace Lottery

variable {α : Type} [LT α] [DecidableLT α] [Sub α]

/-- The walk down the weights, from the entry with the given index on. -/
def descend (left : α) (index : Nat) : List α → Option Nat
  | [] => none
  | weight :: rest =>
    if left < weight then some index else descend (left - weight) (index + 1) rest

/-- The index that a roll picks; what rounding leaves over falls to the last entry. -/
def pickBy [Add α] [Mul α] [OfNat α 0] (whole : α → α) (weights : List α) (roll : α) :
    Option Nat :=
  match descend (whole (weights.foldl (· + ·) 0 * roll)) 0 weights with
  | some index => some index
  | none => if weights.isEmpty then none else some (weights.length - 1)

/-- The index that a roll picks among floats. -/
def pick (weights : List Float) (roll : Float) : Option Nat :=
  pickBy Decimal.floor weights roll

end Lottery

/-- A source of draws in `[0, 1)` and how many of them have been used. -/
structure Draws where
  source : Nat → Float
  used : Nat

namespace Draws

/-- The next draw, and the draws behind it. -/
def next (d : Draws) : Float × Draws :=
  (d.source d.used, { d with used := d.used + 1 })

/-- The draws of a seed. -/
def seeded (seed : UInt64) : Draws :=
  ⟨Lottery.seededDraw seed, 0⟩

/-- The given draws, and zeros behind them. -/
def ofList (rolls : List Float) : Draws :=
  ⟨fun n => rolls.getD n 0.0, 0⟩

end Draws

end Narrative
