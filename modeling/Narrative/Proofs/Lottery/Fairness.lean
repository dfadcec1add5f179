import Mathlib.Algebra.BigOperators.Ring.Finset
import Mathlib.Algebra.Order.Archimedean.Real.Basic
import Mathlib.Data.Rat.Floor
import Mathlib.Data.Set.Card
import Mathlib.Order.Interval.Finset.Nat
import Mathlib.Tactic.NormNum
import Narrative.Proofs.Lottery.Slices

/-!
# Who wins a lottery

In exact arithmetic, whole weights are shared out fairly: each entry wins as many of the whole numbers
below the total as its weight says, and all of these numbers have rolls on an interval of the same
length.  Entries without weight change nothing.  Other weights need not be shared out fairly: an entry
can win exactly when there is a whole number in its slice of the total.
-/

namespace Narrative.Lottery

variable {K : Type} [Field K] [LinearOrder K]

/-! ### Entries without weight -/

section Entries

variable {α : Type} {weight : α → K} {keep : α → Bool} {entries : List α} {winner : α} {left roll : K}

/-- The entry that a roll draws in exact arithmetic. -/
def exactDraw [FloorRing K] (weight : α → K) (entries : List α) (roll : K) : Option α :=
  (exactPick (entries.map weight) roll).bind fun i => entries[i]?

/-- The entry at which the walk down the weights stops. -/
def landing (weight : α → K) (left : K) : List α → Option α
  | [] => none
  | entry :: rest =>
    if left < weight entry then some entry else landing weight (left - weight entry) rest

theorem bind_descend (weight : α → K) (left : K) (entries : List α) :
    ((descend left 0 (entries.map weight)).bind fun i => entries[i]?) =
      landing weight left entries := by
  induction entries generalizing left with
  | nil => rfl
  | cons entry rest ih =>
    rw [List.map_cons, descend, landing, ← ih]
    by_cases hlt : left < weight entry
    · rw [if_pos hlt, if_pos hlt]
      rfl
    · rw [if_neg hlt, if_neg hlt, descend_succ, Option.bind_map]
      rfl

/-- A roll draws the entry at which the walk stops, or the last one when it does not stop. -/
theorem exactDraw_eq [FloorRing K] (weight : α → K) (entries : List α) (roll : K) :
    exactDraw weight entries roll =
      (landing weight (number (entries.map weight) roll : K) entries).or entries.getLast? := by
  rw [exactDraw, exactPick_eq, ← bind_descend]
  cases hwalk : descend (number (entries.map weight) roll : K) 0 (entries.map weight) with
  | none =>
    cases entries with
    | nil => rfl
    | cons entry rest => simp [List.getLast?_eq_getElem?]
  | some i =>
    have hi : i < entries.length := by simpa using descend_lt hwalk
    simp [List.getElem?_eq_getElem hi]

omit [LinearOrder K] in
theorem sum_map_filter (hdrop : ∀ e ∈ entries, keep e = false → weight e = 0) :
    ((entries.filter keep).map weight).sum = (entries.map weight).sum := by
  induction entries with
  | nil => rfl
  | cons entry rest ih =>
    obtain ⟨hentry, hrest⟩ := List.forall_mem_cons.1 hdrop
    cases hkeep : keep entry with
    | false => simp [hkeep, hentry hkeep, ih hrest]
    | true => simp [hkeep, ih hrest]

variable [IsStrictOrderedRing K]

theorem landing_filter (hnonneg : ∀ e ∈ entries, 0 ≤ weight e)
    (hdrop : ∀ e ∈ entries, keep e = false → weight e = 0) (hleft : 0 ≤ left) :
    landing weight left (entries.filter keep) = landing weight left entries := by
  induction entries generalizing left with
  | nil => rfl
  | cons entry rest ih =>
    obtain ⟨hentry, hrest⟩ := List.forall_mem_cons.1 hdrop
    have hothers := (List.forall_mem_cons.1 hnonneg).2
    cases hkeep : keep entry with
    | false =>
      have hzero := hentry hkeep
      rw [List.filter_cons_of_neg (by simp [hkeep]), landing, hzero, if_neg (not_lt.2 hleft), sub_zero]
      exact ih hothers hrest hleft
    | true =>
      rw [List.filter_cons_of_pos hkeep, landing, landing]
      by_cases hlt : left < weight entry
      · rw [if_pos hlt, if_pos hlt]
      · rw [if_neg hlt, if_neg hlt]
        exact ih hothers hrest (by linarith)

theorem getLast?_filter (h : entries.getLast? = some winner) (hkeep : keep winner = true) :
    (entries.filter keep).getLast? = some winner := by
  obtain ⟨front, rfl⟩ := List.getLast?_eq_some_iff.1 h
  simp [List.filter_append, hkeep]

variable [FloorRing K]

/-- Without entries that have no weight, the same entry is drawn, unless it was left out itself. -/
theorem exactDraw_filter (hnonneg : ∀ e ∈ entries, 0 ≤ weight e)
    (hdrop : ∀ e ∈ entries, keep e = false → weight e = 0) (hroll : 0 ≤ roll)
    (hdraw : exactDraw weight entries roll = some winner) (hkeep : keep winner = true) :
    exactDraw weight (entries.filter keep) roll = some winner := by
  have hweights : ∀ w ∈ entries.map weight, 0 ≤ w := List.forall_mem_map.2 hnonneg
  have hnumber : number ((entries.filter keep).map weight) roll = number (entries.map weight) roll := by
    rw [number, number, sum_map_filter hdrop]
  rw [exactDraw_eq] at hdraw ⊢
  rw [hnumber, landing_filter hnonneg hdrop (number_nonneg hweights hroll)]
  cases hlanding : landing weight (number (entries.map weight) roll : K) entries with
  | none =>
    rw [hlanding, Option.none_or] at hdraw
    exact getLast?_filter hdraw hkeep
  | some entry =>
    rw [hlanding] at hdraw
    exact hdraw

/-- While there is any weight, an entry without weight is never drawn. -/
theorem exists_exactDraw (hnonneg : ∀ e ∈ entries, 0 ≤ weight e)
    (hsum : 0 < (entries.map weight).sum) (hlow : 0 ≤ roll) (hhigh : roll < 1) :
    ∃ e ∈ entries, 0 < weight e ∧ exactDraw weight entries roll = some e := by
  have hweights : ∀ w ∈ entries.map weight, 0 ≤ w := List.forall_mem_map.2 hnonneg
  obtain ⟨i, -, hi⟩ := exists_descend_number hweights hsum hlow hhigh
  obtain ⟨hlt, hpos⟩ := hi.exists_pos
  have hlt' : i < entries.length := by simpa using hlt
  refine ⟨entries[i], List.getElem_mem hlt', by simpa using hpos, ?_⟩
  rw [exactDraw, (exactPick_eq_some_iff hweights hsum hlow hhigh).2 hi, Option.bind_some,
    List.getElem?_eq_getElem hlt']

end Entries

/-! ### Whole weights -/

section Whole

variable {counts : List Nat} {roll : K} {i n : Nat}

omit [LinearOrder K] in
theorem sum_map_cast (counts : List Nat) :
    (counts.map (Nat.cast : Nat → K)).sum = (counts.sum : Nat) := by
  rw [Nat.cast_list_sum]

variable [IsStrictOrderedRing K]

theorem map_cast_nonneg (counts : List Nat) : ∀ w ∈ counts.map (Nat.cast : Nat → K), 0 ≤ w :=
  List.forall_mem_map.2 fun n _ => Nat.cast_nonneg n

theorem sum_map_cast_pos (h : 0 < counts.sum) : 0 < (counts.map (Nat.cast : Nat → K)).sum := by
  rw [sum_map_cast]
  exact Nat.cast_pos.2 h

/-- The whole numbers in a slice of whole weights. -/
theorem inSlice_map_cast_iff :
    InSlice (counts.map (Nat.cast : Nat → K)) i (n : K) ↔
      (counts.take i).sum ≤ n ∧ n < (counts.take (i + 1)).sum := by
  rw [InSlice, ← List.map_take, ← List.map_take, sum_map_cast, sum_map_cast, Nat.cast_le,
    Nat.cast_lt]

variable [FloorRing K]

/-- The whole number of a roll is below the total. -/
theorem exists_number_eq (h : 0 < counts.sum) (hlow : 0 ≤ roll) (hhigh : roll < 1) :
    ∃ n < counts.sum, number (counts.map (Nat.cast : Nat → K)) roll = n := by
  have hnonneg := number_nonneg (map_cast_nonneg counts) hlow
  have hlt := number_lt_sum (sum_map_cast_pos h) hhigh
  obtain ⟨n, hn⟩ := Int.eq_ofNat_of_zero_le (Int.cast_nonneg_iff.1 hnonneg)
  refine ⟨n, ?_, hn⟩
  rw [hn, sum_map_cast, Int.cast_natCast] at hlt
  exact Nat.cast_lt.1 hlt

/-- The rolls of a whole number below the total are those of an interval. -/
theorem number_eq_natCast_iff (h : n < counts.sum) :
    (0 ≤ roll ∧ roll < 1 ∧ number (counts.map (Nat.cast : Nat → K)) roll = n) ↔
      (n : K) / counts.sum ≤ roll ∧ roll < ((n : K) + 1) / counts.sum := by
  have hsum : 0 < (counts.sum : K) := Nat.cast_pos.2 (Nat.zero_lt_of_lt h)
  have hiff := number_eq_iff (sum_map_cast_pos (Nat.zero_lt_of_lt h)) roll n
  rw [sum_map_cast, Int.cast_natCast] at hiff
  rw [hiff]
  constructor
  · rintro ⟨-, -, hroll⟩
    exact hroll
  · rintro ⟨hfirst, hlast⟩
    have hlow : 0 ≤ (n : K) / counts.sum := div_nonneg (Nat.cast_nonneg n) hsum.le
    have hhigh : ((n : K) + 1) / counts.sum ≤ 1 := by
      rw [div_le_one hsum]
      exact_mod_cast h
    exact ⟨hlow.trans hfirst, hlast.trans_le hhigh, hfirst, hlast⟩

/-- An index wins a whole number when every roll with that number picks it. -/
def Wins (weights : List K) (i n : Nat) : Prop :=
  ∀ roll : K, 0 ≤ roll → roll < 1 → number weights roll = n → exactPick weights roll = some i

theorem wins_iff (h : n < counts.sum) :
    Wins (counts.map (Nat.cast : Nat → K)) i n ↔
      (counts.take i).sum ≤ n ∧ n < (counts.take (i + 1)).sum := by
  have hnonneg := map_cast_nonneg (K := K) counts
  have hsum := sum_map_cast_pos (K := K) (Nat.zero_lt_of_lt h)
  rw [← inSlice_map_cast_iff (K := K)]
  constructor
  · intro hwins
    have hfirst : (n : K) / counts.sum < ((n : K) + 1) / counts.sum :=
      div_lt_div_of_pos_right (lt_add_one _) (Nat.cast_pos.2 (Nat.zero_lt_of_lt h))
    obtain ⟨hlow, hhigh, hnumber⟩ := (number_eq_natCast_iff h).2 ⟨le_refl _, hfirst⟩
    have hpick := (exactPick_eq_some_iff hnonneg hsum hlow hhigh).1 (hwins _ hlow hhigh hnumber)
    rwa [hnumber, Int.cast_natCast] at hpick
  · intro hslice roll hlow hhigh hnumber
    rw [exactPick_eq_some_iff hnonneg hsum hlow hhigh, hnumber, Int.cast_natCast]
    exact hslice

/-- An index wins as many whole numbers as its weight says. -/
theorem ncard_wins (hi : i < counts.length) :
    {n | n < counts.sum ∧ Wins (counts.map (Nat.cast : Nat → K)) i n}.ncard = counts[i] := by
  have hstep := List.sum_take_succ counts i hi
  have htotal := List.sum_take_add_sum_drop counts (i + 1)
  have hset : {n | n < counts.sum ∧ Wins (counts.map (Nat.cast : Nat → K)) i n} =
      Finset.Ico (counts.take i).sum (counts.take (i + 1)).sum := by
    refine Set.ext fun n => ⟨?_, fun hn => ?_⟩
    · rintro ⟨hn, hwins⟩
      exact Finset.mem_coe.2 (Finset.mem_Ico.2 ((wins_iff hn).1 hwins))
    · have hslice := Finset.mem_Ico.1 (Finset.mem_coe.1 hn)
      have hlt : n < counts.sum := by omega
      exact ⟨hlt, (wins_iff hlt).2 hslice⟩
  rw [hset, Set.ncard_coe_finset, Nat.card_Ico]
  omega

end Whole

section Fair

variable [IsStrictOrderedRing K] [FloorRing K]

/-- The lottery is fair.  When there is any weight, the walk stops at the one entry in whose slice the
whole number of the roll falls, which has a positive weight.  Whole weights give each entry as many
whole numbers as its weight says, and each whole number below the total has an interval of rolls, all
of one length.  Leaving out entries without weight does not change which other entry is drawn. -/
theorem exactPick_fair :
    (∀ weights : List K, (∀ w ∈ weights, 0 ≤ w) → 0 < weights.sum →
      ∀ roll : K, 0 ≤ roll → roll < 1 →
        ∃ i, ∃ hi : i < weights.length, 0 < weights[i] ∧
          exactPick weights roll = some i ∧
          descend (number weights roll : K) 0 weights = some i ∧
          ∀ j, InSlice weights j (number weights roll : K) ↔ j = i) ∧
    (∀ counts : List Nat, 0 < counts.sum →
      (∀ roll : K, 0 ≤ roll → roll < 1 →
        ∃ n < counts.sum, number (counts.map (Nat.cast : Nat → K)) roll = n) ∧
      (∀ n < counts.sum, ∃ first last : K, last - first = 1 / counts.sum ∧
        ∀ roll : K, (0 ≤ roll ∧ roll < 1 ∧ number (counts.map (Nat.cast : Nat → K)) roll = n) ↔
          first ≤ roll ∧ roll < last) ∧
      ∀ i, ∀ hi : i < counts.length,
        {n | n < counts.sum ∧ Wins (counts.map (Nat.cast : Nat → K)) i n}.ncard = counts[i]) ∧
    ∀ (α : Type) (weight : α → K) (keep : α → Bool) (entries : List α),
      (∀ e ∈ entries, 0 ≤ weight e) → (∀ e ∈ entries, keep e = false → weight e = 0) →
        ∀ roll : K, 0 ≤ roll → roll < 1 →
          (0 < (entries.map weight).sum →
            exactDraw weight (entries.filter keep) roll = exactDraw weight entries roll) ∧
          ∀ winner, exactDraw weight entries roll = some winner → keep winner = true →
            exactDraw weight (entries.filter keep) roll = some winner := by
  refine ⟨?_, ?_, ?_⟩
  · intro weights hnonneg hsum roll hlow hhigh
    obtain ⟨i, hwalk, hslice⟩ := exists_descend_number hnonneg hsum hlow hhigh
    obtain ⟨hi, hpos⟩ := hslice.exists_pos
    refine ⟨i, hi, hpos, (exactPick_eq_some_iff hnonneg hsum hlow hhigh).2 hslice, hwalk, fun j => ?_⟩
    constructor
    · intro hj
      exact hj.unique hnonneg hslice
    · rintro rfl
      exact hslice
  · intro counts hsum
    refine ⟨fun roll => exists_number_eq hsum, fun n hn => ?_, fun i hi => ncard_wins hi⟩
    refine ⟨(n : K) / counts.sum, ((n : K) + 1) / counts.sum, ?_, fun roll => number_eq_natCast_iff hn⟩
    rw [← sub_div, add_sub_cancel_left]
  · intro α weight keep entries hnonneg hdrop roll hlow hhigh
    refine ⟨fun hsum => ?_, fun winner => exactDraw_filter hnonneg hdrop hlow⟩
    obtain ⟨e, he, hpos, hdraw⟩ := exists_exactDraw hnonneg hsum hlow hhigh
    have hkeep : keep e = true := by
      by_contra hgone
      exact absurd (hdrop e he (by simpa using hgone)) (ne_of_gt hpos)
    rw [hdraw, exactDraw_filter hnonneg hdrop hlow hdraw hkeep]

/-- Weights two, zero and three: the middle roll falls on the last entry, which wins three of the five
whole numbers, and the entry in the middle can be left out. -/
theorem exactPick_fair_twoZeroThree :
    exactPick ([2, 0, 3] : List ℚ) (1 / 2) = some 2 ∧
      (∀ j, InSlice ([2, 0, 3] : List ℚ) j (number ([2, 0, 3] : List ℚ) (1 / 2) : ℚ) ↔ j = 2) ∧
      {n | n < [2, 0, 3].sum ∧ Wins ([2, 0, 3].map (Nat.cast : Nat → ℚ)) 2 n}.ncard = 3 ∧
      exactDraw (fun n : Nat => (n : ℚ)) [2, 3] (1 / 2) =
        exactDraw (fun n : Nat => (n : ℚ)) [2, 0, 3] (1 / 2) := by
  obtain ⟨hpick, hcounts, hremove⟩ := exactPick_fair (K := ℚ)
  have hhalf : exactPick ([2, 0, 3] : List ℚ) (1 / 2) = some 2 := by decide +kernel
  obtain ⟨i, -, -, hi, -, hslice⟩ :=
    hpick [2, 0, 3] (by decide +kernel) (by decide +kernel) (1 / 2) (by decide +kernel)
      (by decide +kernel)
  obtain rfl : i = 2 := Option.some.inj (hi.symm.trans hhalf)
  have hdraw := (hremove Nat (fun n => (n : ℚ)) (fun n => n != 0) [2, 0, 3] (by decide +kernel)
    (by decide +kernel) (1 / 2) (by decide +kernel) (by decide +kernel)).1 (by decide +kernel)
  exact ⟨hhalf, hslice, (hcounts [2, 0, 3] (by decide)).2.2 2 (by decide), hdraw⟩

end Fair

/-! ### Any weights -/

section Reach

variable {weights : List K} {i : Nat}

omit [LinearOrder K] in
theorem exists_natCast_eq_sum (hwhole : ∀ w ∈ weights, ∃ n : Nat, w = n) :
    ∃ n : Nat, weights.sum = n := by
  induction weights with
  | nil => exact ⟨0, by simp⟩
  | cons weight rest ih =>
    obtain ⟨⟨m, hm⟩, hrest⟩ := List.forall_mem_cons.1 hwhole
    obtain ⟨n, hn⟩ := ih hrest
    exact ⟨m + n, by rw [List.sum_cons, hm, hn, Nat.cast_add]⟩

variable [IsStrictOrderedRing K]

theorem sum_pos_of_getElem_pos (hnonneg : ∀ w ∈ weights, 0 ≤ w) (hi : i < weights.length)
    (hpos : 0 < weights[i]) : 0 < weights.sum :=
  hpos.trans_le (List.single_le_sum hnonneg _ (List.getElem_mem hi))

/-- A slice that begins at a whole number has that number in it. -/
theorem exists_natCast_inSlice_of_whole (hi : i < weights.length) (hpos : 0 < weights[i])
    (hwhole : ∀ w ∈ weights.take i, ∃ n : Nat, w = n) : ∃ n : Nat, InSlice weights i (n : K) := by
  obtain ⟨n, hn⟩ := exists_natCast_eq_sum hwhole
  refine ⟨n, hn.le, ?_⟩
  rw [List.sum_take_succ _ _ hi, hn]
  linarith

variable [FloorRing K]

/-- A slice that is at least one long has a whole number in it. -/
theorem exists_natCast_inSlice (hnonneg : ∀ w ∈ weights, 0 ≤ w) (hi : i < weights.length)
    (hone : 1 ≤ weights[i]) : ∃ n : Nat, InSlice weights i (n : K) := by
  have hceil := Nat.ceil_lt_add_one (sum_take_nonneg hnonneg i)
  refine ⟨⌈(weights.take i).sum⌉₊, Nat.le_ceil _, ?_⟩
  rw [List.sum_take_succ _ _ hi]
  linarith

/-- Some roll picks an entry exactly when there is a whole number in its slice. -/
theorem exists_roll_iff (hnonneg : ∀ w ∈ weights, 0 ≤ w) (hsum : 0 < weights.sum) :
    (∃ roll, 0 ≤ roll ∧ roll < 1 ∧ exactPick weights roll = some i) ↔
      ∃ n : Nat, InSlice weights i (n : K) := by
  constructor
  · rintro ⟨roll, hlow, hhigh, hpick⟩
    have hslice := (exactPick_eq_some_iff hnonneg hsum hlow hhigh).1 hpick
    obtain ⟨n, hn⟩ := Int.eq_ofNat_of_zero_le (Int.cast_nonneg_iff.1 (number_nonneg hnonneg hlow))
    rw [hn] at hslice
    exact ⟨n, by exact_mod_cast hslice⟩
  · rintro ⟨n, hslice⟩
    have hlow : 0 ≤ (n : K) / weights.sum := div_nonneg (Nat.cast_nonneg n) hsum.le
    have hhigh : (n : K) / weights.sum < 1 :=
      (div_lt_one hsum).2 (hslice.2.trans_le (sum_take_le hnonneg _))
    refine ⟨(n : K) / weights.sum, hlow, hhigh, ?_⟩
    have hnumber := number_div hsum n
    rw [Int.cast_natCast] at hnumber
    rw [exactPick_eq_some_iff hnonneg hsum hlow hhigh, hnumber, Int.cast_natCast]
    exact hslice

/-- An entry with a positive weight can win exactly when there is a whole number in its slice of the
total.  That is so when its weight is at least one, and when all weights before it are whole. -/
theorem exactPick_reaches_iff (hnonneg : ∀ w ∈ weights, 0 ≤ w) (hi : i < weights.length)
    (hpos : 0 < weights[i]) :
    ((∃ roll, 0 ≤ roll ∧ roll < 1 ∧ exactPick weights roll = some i) ↔
      ∃ n : Nat, (weights.take i).sum ≤ n ∧ n < (weights.take i).sum + weights[i]) ∧
    (1 ≤ weights[i] → ∃ roll, 0 ≤ roll ∧ roll < 1 ∧ exactPick weights roll = some i) ∧
    ((∀ w ∈ weights.take i, ∃ n : Nat, w = n) →
      ∃ roll, 0 ≤ roll ∧ roll < 1 ∧ exactPick weights roll = some i) := by
  have hiff := exists_roll_iff (i := i) hnonneg (sum_pos_of_getElem_pos hnonneg hi hpos)
  refine ⟨?_, fun hone => ?_, fun hwhole => ?_⟩
  · rw [hiff, ← List.sum_take_succ _ _ hi]
    rfl
  · exact hiff.2 (exists_natCast_inSlice hnonneg hi hone)
  · exact hiff.2 (exists_natCast_inSlice_of_whole hi hpos hwhole)

/-- Behind a half and a quarter, an entry of weight one has the number one in its slice. -/
theorem exactPick_reaches_last :
    (1 : ℚ) ≤ ([1 / 2, 1 / 4, 1] : List ℚ)[2] ∧
      (∃ n : Nat, (([1 / 2, 1 / 4, 1] : List ℚ).take 2).sum ≤ n ∧
        n < (([1 / 2, 1 / 4, 1] : List ℚ).take 2).sum + ([1 / 2, 1 / 4, 1] : List ℚ)[2]) ∧
      ∃ roll, 0 ≤ roll ∧ roll < 1 ∧ exactPick ([1 / 2, 1 / 4, 1] : List ℚ) roll = some 2 := by
  have hnonneg : ∀ w ∈ ([1 / 2, 1 / 4, 1] : List ℚ), 0 ≤ w := by decide +kernel
  obtain ⟨hiff, hone, -⟩ :=
    exactPick_reaches_iff (i := 2) hnonneg (by decide) (by decide +kernel)
  have hroll := hone (by decide +kernel)
  exact ⟨by decide +kernel, hiff.1 hroll, hroll⟩

/-- Of two halves the second one never wins: its slice goes from a half to one and has no whole number
in it. -/
theorem exactPick_twoHalves :
    (∀ w ∈ ([1 / 2, 1 / 2] : List ℝ), 0 ≤ w) ∧ 0 < ([1 / 2, 1 / 2] : List ℝ)[1] ∧
      ¬∃ roll, 0 ≤ roll ∧ roll < 1 ∧ exactPick ([1 / 2, 1 / 2] : List ℝ) roll = some 1 := by
  have hnonneg : ∀ w ∈ ([1 / 2, 1 / 2] : List ℝ), 0 ≤ w := by
    intro w hw
    obtain rfl : w = 1 / 2 := by simpa using hw
    norm_num
  refine ⟨hnonneg, by norm_num, ?_⟩
  rw [exists_roll_iff hnonneg (by norm_num)]
  rintro ⟨n, hlow, hhigh⟩
  have hpos : 0 < n := by
    rcases Nat.eq_zero_or_pos n with rfl | hpos
    · norm_num at hlow
    · exact hpos
  have hlt : n < 1 := by
    have hsum : (([1 / 2, 1 / 2] : List ℝ).take 2).sum = (1 : Nat) := by norm_num
    rw [hsum] at hhigh
    exact Nat.cast_lt.1 hhigh
  omega

/-- The greatest draw below one does not reach the second half either. -/
example : pick [0.5, 0.5] 0.9999999999999999 = some 0 := by decide +kernel

end Reach

end Narrative.Lottery
