import Mathlib.Algebra.Order.Floor.Ring
import Mathlib.Algebra.Order.BigOperators.Group.List
import Mathlib.Tactic.Linarith
import Narrative.Lottery.Basic

/-!
# The slices of a lottery

In exact arithmetic the weights of a lottery cut the total into slices, one behind the other.  A roll
is turned into a whole number below the total, and the walk down the weights picks the entry in whose
slice that number falls.  So some entry is always reached by the walk, it is the only one, and it has
a positive weight; entries without weight have empty slices and can be left out.
-/

namespace Narrative.Lottery

/-! ### Walks -/

section Walk

variable {α : Type} [LT α] [DecidableLT α] [Sub α]

theorem descend_lt {left : α} {index k : Nat} {weights : List α}
    (h : descend left index weights = some k) : k < index + weights.length := by
  induction weights generalizing left index with
  | nil => exact absurd h nofun
  | cons weight rest ih =>
    rw [descend] at h
    split at h
    · obtain rfl := Option.some.inj h
      simp
    · have := ih h
      simp only [List.length_cons]
      omega

/-- A walk that counts from a later index on stops that much later. -/
theorem descend_succ (left : α) (index : Nat) (weights : List α) :
    descend left (index + 1) weights = (descend left index weights).map (· + 1) := by
  induction weights generalizing left index with
  | nil => rfl
  | cons weight rest ih =>
    rw [descend, descend, ih]
    by_cases hlt : left < weight
    · rw [if_pos hlt, if_pos hlt, Option.map_some]
    · rw [if_neg hlt, if_neg hlt]

/-- A draw among some entries picks one of them. -/
theorem exists_pickBy [Add α] [Mul α] [OfNat α 0] (whole : α → α) {weights : List α}
    (hne : weights ≠ []) (roll : α) :
    ∃ k, pickBy whole weights roll = some k ∧ k < weights.length := by
  have hpos := List.length_pos_iff.2 hne
  unfold pickBy
  split
  · rename_i k hk
    have hlt := descend_lt hk
    exact ⟨k, rfl, by omega⟩
  · rw [if_neg (by simpa using hne)]
    exact ⟨_, rfl, by omega⟩

end Walk

variable {K : Type} [Field K] [LinearOrder K]

/-- The index that a roll picks in exact arithmetic. -/
def exactPick [FloorRing K] (weights : List K) (roll : K) : Option Nat :=
  pickBy (fun x => (⌊x⌋ : K)) weights roll

/-- The whole number that is walked down the weights for a roll. -/
def number [FloorRing K] (weights : List K) (roll : K) : Int :=
  ⌊weights.sum * roll⌋

/-- A number is in the slice of an index: not below the sum of the weights before it, and below that
sum and its own weight. -/
def InSlice (weights : List K) (i : Nat) (x : K) : Prop :=
  (weights.take i).sum ≤ x ∧ x < (weights.take (i + 1)).sum

variable {weights rest : List K} {weight left roll x : K} {i j : Nat}

/-- What the walk leaves over falls to the last entry. -/
theorem exactPick_eq [FloorRing K] (weights : List K) (roll : K) :
    exactPick weights roll =
      (descend (number weights roll : K) 0 weights).or
        (if weights.isEmpty then none else some (weights.length - 1)) := by
  have hsum : weights.foldl (· + ·) 0 = weights.sum := List.sum_eq_foldl.symm
  rw [exactPick, pickBy, hsum, number]
  cases descend (⌊weights.sum * roll⌋ : K) 0 weights with
  | none => rfl
  | some index => rfl

/-! ### Slices -/

theorem not_inSlice_nil : ¬InSlice ([] : List K) i x := by
  rintro ⟨hlow, hhigh⟩
  simp only [List.take_nil, List.sum_nil] at hlow hhigh
  exact absurd hlow (not_le.2 hhigh)

theorem inSlice_cons_zero : InSlice (weight :: rest) 0 x ↔ 0 ≤ x ∧ x < weight := by
  simp [InSlice]

variable [IsStrictOrderedRing K]

theorem inSlice_cons_succ : InSlice (weight :: rest) (i + 1) x ↔ InSlice rest i (x - weight) := by
  simp only [InSlice, List.take_succ_cons, List.sum_cons, le_sub_iff_add_le', sub_lt_iff_lt_add']

theorem sum_take_nonneg (h : ∀ w ∈ weights, 0 ≤ w) (i : Nat) : 0 ≤ (weights.take i).sum :=
  List.sum_nonneg fun w hw => h w (List.mem_of_mem_take hw)

theorem sum_take_le (h : ∀ w ∈ weights, 0 ≤ w) (i : Nat) : (weights.take i).sum ≤ weights.sum := by
  have hdrop : 0 ≤ (weights.drop i).sum :=
    List.sum_nonneg fun w hw => h w (List.mem_of_mem_drop hw)
  have hsplit := List.sum_take_add_sum_drop weights i
  linarith

/-- Only an entry with a positive weight has numbers in its slice. -/
theorem InSlice.exists_pos (h : InSlice weights i x) :
    ∃ hi : i < weights.length, 0 < weights[i] := by
  obtain ⟨hlow, hhigh⟩ := h
  by_cases hi : i < weights.length
  · refine ⟨hi, ?_⟩
    rw [List.sum_take_succ _ _ hi] at hhigh
    linarith
  · rw [List.take_of_length_le (by omega)] at hlow hhigh
    exact absurd hlow (not_le.2 hhigh)

/-- The slices leave no gap. -/
theorem exists_inSlice (hx : 0 ≤ x) (h : x < weights.sum) : ∃ i, InSlice weights i x := by
  induction weights generalizing x with
  | nil => exact absurd hx (not_le.2 (by simpa using h))
  | cons weight rest ih =>
    by_cases hlt : x < weight
    · exact ⟨0, inSlice_cons_zero.2 ⟨hx, hlt⟩⟩
    · rw [List.sum_cons] at h
      obtain ⟨i, hi⟩ := @ih (x - weight) (by linarith) (by linarith)
      exact ⟨i + 1, inSlice_cons_succ.2 hi⟩

/-- The walk down the weights stops at the entry in whose slice the number is. -/
theorem descend_eq_some_iff (h : ∀ w ∈ weights, 0 ≤ w) (hleft : 0 ≤ left) :
    descend left 0 weights = some i ↔ InSlice weights i left := by
  induction weights generalizing left i with
  | nil => exact iff_of_false (by simp [descend]) not_inSlice_nil
  | cons weight rest ih =>
    obtain ⟨hweight, hrest⟩ := List.forall_mem_cons.1 h
    rw [descend]
    by_cases hlt : left < weight
    · rw [if_pos hlt]
      cases i with
      | zero => exact iff_of_true rfl (inSlice_cons_zero.2 ⟨hleft, hlt⟩)
      | succ i =>
        -- the slices behind the first one begin at its weight
        refine iff_of_false (by simp) fun hi => ?_
        have hlow := (inSlice_cons_succ.1 hi).1
        have hsum := sum_take_nonneg hrest i
        exact absurd hlt (not_lt.2 (by linarith))
    · rw [if_neg hlt, descend_succ, Option.map_eq_some_iff]
      have hbelow := fun j => @ih (left - weight) j hrest (by linarith)
      constructor
      · rintro ⟨j, hj, rfl⟩
        exact inSlice_cons_succ.2 ((hbelow j).1 hj)
      · intro hi
        cases i with
        | zero => exact absurd (inSlice_cons_zero.1 hi).2 hlt
        | succ i => exact ⟨i, (hbelow i).2 (inSlice_cons_succ.1 hi), rfl⟩

/-- No two slices overlap. -/
theorem InSlice.unique (h : ∀ w ∈ weights, 0 ≤ w) (hi : InSlice weights i x)
    (hj : InSlice weights j x) : i = j := by
  have hx : 0 ≤ x := le_trans (sum_take_nonneg h i) hi.1
  have hwalk := (descend_eq_some_iff h hx).2 hi
  rw [(descend_eq_some_iff h hx).2 hj] at hwalk
  exact (Option.some.inj hwalk).symm

/-! ### Rolls -/

variable [FloorRing K]

theorem number_nonneg (h : ∀ w ∈ weights, 0 ≤ w) (hroll : 0 ≤ roll) :
    0 ≤ (number weights roll : K) := by
  have hproduct : 0 ≤ weights.sum * roll := mul_nonneg (List.sum_nonneg h) hroll
  exact Int.cast_nonneg (Int.floor_nonneg.2 hproduct)

theorem number_lt_sum (hsum : 0 < weights.sum) (hroll : roll < 1) :
    (number weights roll : K) < weights.sum := by
  calc (number weights roll : K) ≤ weights.sum * roll := Int.floor_le _
    _ < weights.sum * 1 := mul_lt_mul_of_pos_left hroll hsum
    _ = weights.sum := mul_one _

/-- The walk of a roll ends in a slice, before the weights do. -/
theorem exists_descend_number (h : ∀ w ∈ weights, 0 ≤ w) (hsum : 0 < weights.sum)
    (hlow : 0 ≤ roll) (hhigh : roll < 1) :
    ∃ i, descend (number weights roll : K) 0 weights = some i ∧
      InSlice weights i (number weights roll : K) := by
  have hnumber := number_nonneg h hlow
  obtain ⟨i, hi⟩ := exists_inSlice hnumber (number_lt_sum hsum hhigh)
  exact ⟨i, (descend_eq_some_iff h hnumber).2 hi, hi⟩

theorem exactPick_eq_some_iff (h : ∀ w ∈ weights, 0 ≤ w) (hsum : 0 < weights.sum)
    (hlow : 0 ≤ roll) (hhigh : roll < 1) :
    exactPick weights roll = some i ↔ InSlice weights i (number weights roll : K) := by
  obtain ⟨j, hwalk, hj⟩ := exists_descend_number h hsum hlow hhigh
  rw [exactPick_eq, hwalk, Option.some_or]
  constructor
  · intro hi
    exact Option.some.inj hi ▸ hj
  · intro hi
    exact congrArg some (InSlice.unique h hj hi)

/-- The rolls of a whole number, when the total is positive. -/
theorem number_eq_iff (hsum : 0 < weights.sum) (roll : K) (n : Int) :
    number weights roll = n ↔ (n : K) / weights.sum ≤ roll ∧ roll < ((n : K) + 1) / weights.sum := by
  rw [number, Int.floor_eq_iff, div_le_iff₀' hsum, lt_div_iff₀' hsum]

/-- A whole number from zero to the total has a roll. -/
theorem number_div (hsum : 0 < weights.sum) (n : Int) :
    number weights ((n : K) / weights.sum) = n := by
  rw [number, mul_div_cancel₀ _ (ne_of_gt hsum), Int.floor_intCast]

end Narrative.Lottery
