import Narrative.Decimal.Binary

/-!
# Seeded draws

A seed of sixty-four bits is stretched to a key of eight words by a permuted congruential generator.
The draws are read off the key stream of ChaCha with twelve rounds: draw `n` is made from the words
`2 n` and `2 n + 1` of the stream, as the upper fifty-three bits of their sixty-four divided by
`2 ^ 53`.  So a draw is a function of the seed and its number.
-/

namespace Narrative.Lottery

/-- One step of the congruential generator. -/
def advance (state : UInt64) : UInt64 :=
  state * 6364136223846793005 + 11634580027462260723

/-- A word with its bits rotated to the left. -/
def rotateLeft (x : UInt32) (n : UInt32) : UInt32 :=
  (x <<< n) ||| (x >>> ((32 : UInt32) - n))

/-- The word that a state of the congruential generator gives out. -/
def output (state : UInt64) : UInt32 :=
  let x := (((state >>> 18) ^^^ state) >>> 27).toUInt32
  rotateLeft x ((32 : UInt32) - (state >>> 59).toUInt32)

/-- The next words of the congruential generator. -/
def words : Nat → UInt64 → List UInt32
  | 0, _ => []
  | n + 1, state =>
    let next := advance state
    output next :: words n next

/-- The sixteen words that ChaCha works on. -/
abbrev Block := Vector UInt32 16

/-- The quarter round on four words of a block. -/
def quarter (v : Block) (i j k l : Fin 16) : Block :=
  let a := v[i] + v[j]
  let d := rotateLeft (v[l] ^^^ a) 16
  let c := v[k] + d
  let b := rotateLeft (v[j] ^^^ c) 12
  let a := a + b
  let d := rotateLeft (d ^^^ a) 8
  let c := c + d
  let b := rotateLeft (b ^^^ c) 7
  (((v.set i a).set j b).set k c).set l d

/-- Two rounds: the columns, then the diagonals. -/
def doubleRound (v : Block) : Block :=
  let v := quarter v 0 4 8 12
  let v := quarter v 1 5 9 13
  let v := quarter v 2 6 10 14
  let v := quarter v 3 7 11 15
  let v := quarter v 0 5 10 15
  let v := quarter v 1 6 11 12
  let v := quarter v 2 7 8 13
  quarter v 3 4 9 14

/-- The block of a key and a counter before the rounds. -/
def startBlock (key : List UInt32) (counter : Nat) : Block :=
  let k (i : Nat) := key.getD i 0
  #v[0x61707865, 0x3320646e, 0x79622d32, 0x6b206574, k 0, k 1, k 2, k 3, k 4, k 5, k 6, k 7,
    UInt32.ofNat counter, UInt32.ofNat (counter / Nat.pow 2 32), 0, 0]

/-- The block of the key stream with the given number. -/
def streamBlock (key : List UInt32) (counter : Nat) : Block :=
  let start := startBlock key counter
  let mixed := Nat.repeat doubleRound 6 start
  Vector.ofFn fun i => mixed[i] + start[i]

/-- The draw with the given number, from zero on. -/
def seededDraw (seed : UInt64) (n : Nat) : Float :=
  let block := streamBlock (words 8 seed) (n / 8)
  let low := block.toArray.getD (2 * (n % 8)) 0
  let high := block.toArray.getD (2 * (n % 8) + 1) 0
  Decimal.Binary.pack false ((high.toNat * Nat.pow 2 32 + low.toNat) / Nat.pow 2 11) (-53)

end Narrative.Lottery
