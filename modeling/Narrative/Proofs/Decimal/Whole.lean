import Narrative.Json.Number
import Narrative.Proofs.Decimal.Bits

/-!
# Whole floats

A natural number of at most fifty-three bits is a float, and the sum of two such floats is the float
of their sum as long as it has no more bits: nothing is rounded.
-/

namespace Narrative.Decimal

open Float.Model Float.Model.UnpackedFloat

/-- How far a significand is shifted to the left to have fifty-three bits. -/
def room (n : Nat) : Nat :=
  52 - n.log2

/-- A natural number of at most fifty-three bits in the form in which floats are packed. -/
def whole (n : Nat) : UnpackedFloat :=
  if h : n = 0 then .zero .positive
  else .finite .positive (n * 2 ^ room n) (-(room n : Int))
    (Nat.mul_pos (Nat.pos_of_ne_zero h) (Nat.two_pow_pos _))

theorem whole_of_pos {n : Nat} (h : 0 < n) :
    whole n = .finite .positive (n * 2 ^ room n) (-(room n : Int))
      (Nat.mul_pos h (Nat.two_pow_pos _)) :=
  dif_neg (Nat.ne_of_gt h)

theorem log2_add_room {n : Nat} (hpos : 0 < n) (h : n < 2 ^ 53) : n.log2 + room n = 52 := by
  have hlog : n.log2 < 53 := (Nat.log2_lt (Nat.ne_of_gt hpos)).2 h
  unfold room
  omega

theorem log2_mul_two_pow {n : Nat} (h : 0 < n) (j : Nat) : (n * 2 ^ j).log2 = n.log2 + j := by
  rw [Nat.log2_eq_iff (Nat.ne_of_gt (Nat.mul_pos h (Nat.two_pow_pos j)))]
  refine ⟨?_, ?_⟩
  · rw [Nat.pow_add]
    exact Nat.mul_le_mul_right _ (Nat.log2_self_le (Nat.ne_of_gt h))
  · rw [Nat.add_right_comm, Nat.pow_add]
    exact Nat.mul_lt_mul_of_pos_right Nat.lt_log2_self (Nat.two_pow_pos j)

/-! ### Rounding -/

theorem repeat_shiftRightOne (n d : Nat) :
    d.repeat ExtendedMantissa.shiftRightOne ⟨n * 2 ^ d, false, false⟩ = ⟨n, false, false⟩ := by
  induction d generalizing n with
  | zero => simp [Nat.repeat]
  | succ d ih =>
    have hmul : n * 2 ^ (d + 1) = (n * 2) * 2 ^ d := by rw [Nat.pow_succ', Nat.mul_assoc]
    rw [Nat.repeat, hmul, ih]
    simp [ExtendedMantissa.shiftRightOne]

/-- The place of a whole number depends on its value alone. -/
theorem targetExponent_whole {n : Nat} (hpos : 0 < n) (h : n < 2 ^ 53) (j : Nat) :
    Format.binary64.targetExponent (totalExponent (n * 2 ^ j) (-(j : Int))) = -(room n : Int) := by
  have hroom := log2_add_room hpos h
  have hmin : Format.binary64.minExponent = -1074 := rfl
  have hbits : Format.binary64.mantissaBits = 53 := rfl
  simp only [Format.targetExponent, totalExponent, log2_mul_two_pow hpos, hmin, hbits]
  omega

/-- No bit of a whole number is lost when it is shifted to its place. -/
theorem shiftToTargetExponent_whole {n j : Nat} (hpos : 0 < n) (h : n < 2 ^ 53)
    (hj : room n ≤ j) :
    shiftToTargetExponent Format.binary64 (n * 2 ^ j) (-(j : Int)) .exact =
      (⟨n * 2 ^ room n, false, false⟩, -(room n : Int)) := by
  obtain ⟨d, rfl⟩ := Nat.exists_eq_add_of_le hj
  have hshift : (-(room n : Int) - -((room n + d : Nat) : Int)).toNat = d := by omega
  have hmul : n * 2 ^ (room n + d) = (n * 2 ^ room n) * 2 ^ d := by rw [Nat.pow_add, Nat.mul_assoc]
  simp only [shiftToTargetExponent, targetExponent_whole hpos h, shiftToExponent, hshift]
  refine Prod.ext ?_ ?_
  · rw [hmul]
    exact repeat_shiftRightOne _ d
  · show -((room n + d : Nat) : Int) + (d : Int) = -(room n : Int)
    omega

theorem roundWithAccuracy_whole {n j : Nat} (hpos : 0 < n) (h : n < 2 ^ 53) (hj : room n ≤ j) :
    roundWithAccuracy Format.binary64 .positive (n * 2 ^ j) (-(j : Int)) .exact = whole n := by
  have hne : n * 2 ^ room n ≠ 0 := Nat.ne_of_gt (Nat.mul_pos hpos (Nat.two_pow_pos _))
  -- the second shift of a rounding finds the significand in its place
  have hagain : shiftToTargetExponent Format.binary64
      (ExtendedMantissa.mk (n * 2 ^ room n) false false).roundedMantissa (-(room n : Int)) .exact =
        (⟨n * 2 ^ room n, false, false⟩, -(room n : Int)) :=
    shiftToTargetExponent_whole hpos h (Nat.le_refl _)
  simp only [roundWithAccuracy, shiftToTargetExponent_whole hpos h hj, hagain, dif_neg hne,
    whole_of_pos hpos]

theorem decreaseExponent_mul_two_pow (n : Nat) {i j : Nat} (h : i ≤ j) :
    decreaseExponent (n * 2 ^ i) (-(i : Int)) (-(j : Int)) = (n * 2 ^ j, -(j : Int)) := by
  obtain ⟨d, rfl⟩ := Nat.exists_eq_add_of_le h
  have hshift : (-(i : Int) - -((i + d : Nat) : Int)).toNat = d := by omega
  simp only [decreaseExponent, hshift, Nat.shiftLeft_eq, Nat.mul_assoc, ← Nat.pow_add]
  refine Prod.ext rfl ?_
  show -(i : Int) - (d : Int) = -((i + d : Nat) : Int)
  omega

theorem normalize_whole {n : Nat} (h : n < 2 ^ 53) (i : Nat) :
    UnpackedFloat.normalize Format.binary64 ((n * 2 ^ i : Nat) : Int) (-(i : Int)) .positive =
      whole n := by
  rcases Nat.eq_zero_or_pos n with rfl | hpos
  · rw [Nat.zero_mul]
    rfl
  have hgt : compare (((n * 2 ^ i : Nat) : Int)) 0 = .gt :=
    Int.compare_eq_gt.2 (Int.natCast_pos.2 (Nat.mul_pos hpos (Nat.two_pow_pos i)))
  simp only [UnpackedFloat.normalize, hgt, Int.toNat_natCast, UnpackedFloat.round,
    targetExponent_whole hpos h]
  rcases Nat.le_total i (room n) with hi | hi
  · simp only [decreaseExponent_mul_two_pow n hi]
    exact roundWithAccuracy_whole hpos h (Nat.le_refl _)
  · have hshift : (-(i : Int) - -(room n : Int)).toNat = 0 := by omega
    simp only [decreaseExponent, hshift, Nat.shiftLeft_zero, Int.natCast_zero, Int.sub_zero]
    exact roundWithAccuracy_whole hpos h hi

theorem normalize_natCast {n : Nat} (h : n < 2 ^ 53) :
    UnpackedFloat.normalize Format.binary64 (n : Int) 0 .positive = whole n := by
  simpa using normalize_whole h 0

/-- A whole number is packed without loss. -/
theorem unpack_pack_whole {n : Nat} (h : n < 2 ^ 53) :
    (Float.Model.pack (whole n)).unpack = whole n := by
  rcases Nat.eq_zero_or_pos n with rfl | hpos
  · rfl
  have hroom := log2_add_room hpos h
  rw [whole_of_pos hpos]
  exact unpack_pack_normal _ (by rw [log2_mul_two_pow hpos, hroom]) (by omega) (by omega)

/-! ### Arithmetic -/

theorem mul_whole_one {n : Nat} (h : n < 2 ^ 53) :
    UnpackedFloat.mul Format.binary64 (whole n) (whole 1) = whole n := by
  rcases Nat.eq_zero_or_pos n with rfl | hpos
  · rfl
  have hmul : n * 2 ^ room n * (1 * 2 ^ room 1) = n * 2 ^ (room n + room 1) := by
    rw [Nat.one_mul, Nat.mul_assoc, Nat.pow_add]
  have hadd : -(room n : Int) + -(room 1 : Int) = -((room n + room 1 : Nat) : Int) := by omega
  rw [whole_of_pos hpos, whole_of_pos Nat.one_pos]
  simp only [UnpackedFloat.mul, hmul, hadd]
  exact (roundWithAccuracy_whole hpos h (Nat.le_add_right _ _)).trans (whole_of_pos hpos)

theorem add_whole {n m : Nat} (h : n + m < 2 ^ 53) :
    UnpackedFloat.add Format.binary64 (whole n) (whole m) = whole (n + m) := by
  rcases Nat.eq_zero_or_pos n with rfl | hn
  · rw [Nat.zero_add]
    rcases Nat.eq_zero_or_pos m with rfl | hm
    · rfl
    · rw [whole_of_pos hm]
      rfl
  rcases Nat.eq_zero_or_pos m with rfl | hm
  · rw [Nat.add_zero, whole_of_pos hn]
    rfl
  have hmin : min (-(room n : Int)) (-(room m : Int)) = -((max (room n) (room m) : Nat) : Int) := by
    omega
  have hsum : Sign.apply .positive ((n * 2 ^ max (room n) (room m) : Nat) : Int) +
      Sign.apply .positive ((m * 2 ^ max (room n) (room m) : Nat) : Int) =
        (((n + m) * 2 ^ max (room n) (room m) : Nat) : Int) := by
    rw [Nat.add_mul, Int.natCast_add]
    rfl
  rw [whole_of_pos hn, whole_of_pos hm]
  simp only [UnpackedFloat.add, hmin, decreaseExponent_mul_two_pow n (Nat.le_max_left _ _),
    decreaseExponent_mul_two_pow m (Nat.le_max_right _ _), hsum]
  exact normalize_whole h _

/-! ### Floats -/

/-- A float that is a natural number. -/
theorem unpack_ofNat {n : Nat} (h : n < 2 ^ 53) : (Float.ofNat n).toModel.unpack = whole n := by
  show (Float.ofScientific n false 0).toModel.unpack = whole n
  have hone : (Float.ofBits 0x3FF0000000000000).toModel.unpack = whole 1 := by rfl
  have hnat : n.toUInt64.toNat = n :=
    UInt64.toNat_ofNat_of_lt' (Nat.lt_trans h (by decide))
  have hleft : (Float.Model.ofUInt64 n.toUInt64).unpack = whole n := by
    show (Float.Model.pack (UnpackedFloat.normalize Format.binary64 (n.toUInt64.toNat : Int) 0
      .positive)).unpack = whole n
    rw [hnat, normalize_natCast h, unpack_pack_whole h]
  unfold Float.ofScientific
  rw [dif_pos ⟨h, Nat.zero_le _⟩]
  show (Float.Model.pack (UnpackedFloat.mul Format.binary64 (Float.Model.ofUInt64 n.toUInt64).unpack
    (Float.ofBits 0x3FF0000000000000).toModel.unpack)).unpack = whole n
  rw [hleft, hone, mul_whole_one h, unpack_pack_whole h]

theorem whole?_of_ofFloat {x : Float} {n k : Nat}
    (h : Binary.ofFloat x = .finite false (n * 2 ^ k) (-(k : Int))) :
    whole? x = some (n : Int) := by
  have hback : (-(-(k : Int))).toNat = k := by omega
  simp only [whole?, h, hback, Nat.pow_eq]
  split
  · have hzero : k = 0 := by omega
    simp [hzero]
  · rw [if_pos (Nat.mul_mod_left _ _), Nat.mul_div_cancel _ (Nat.two_pow_pos k)]
    simp

theorem whole?_of_unpack {x : Float} {n : Nat} (h : x.toModel.unpack = whole n) :
    whole? x = some (n : Int) := by
  rcases Nat.eq_zero_or_pos n with rfl | hpos
  · refine @whole?_of_ofFloat x 0 leastExponent.natAbs ?_
    rw [Binary.ofFloat_eq, h, Nat.zero_mul]
    rfl
  · refine @whole?_of_ofFloat x n (room n) ?_
    rw [Binary.ofFloat_eq, h, whole_of_pos hpos]
    rfl

theorem whole?_ofNat {n : Nat} (h : n < 2 ^ 53) : whole? (Float.ofNat n) = some (n : Int) :=
  whole?_of_unpack (unpack_ofNat h)

/-- Counting on by one loses nothing. -/
theorem whole?_ofNat_add_one {n : Nat} (h : n + 1 < 2 ^ 53) :
    whole? (Float.ofNat n + 1.0) = some ((n + 1 : Nat) : Int) := by
  have hone : (1.0 : Float).toModel.unpack = whole 1 := by rfl
  refine whole?_of_unpack ?_
  show (Float.Model.pack (UnpackedFloat.add Format.binary64 (Float.ofNat n).toModel.unpack
    (1.0 : Float).toModel.unpack)).unpack = whole (n + 1)
  rw [unpack_ofNat (by omega), hone, add_whole h, unpack_pack_whole h]

end Narrative.Decimal

namespace Narrative.Number

/-- A natural number below the limit, counted on by one, is written as an integer. -/
theorem ofFloat?_ofNat_add_one {n : Nat} (h : n + 1 < wholeLimit.natAbs) :
    ofFloat? (Float.ofNat n + 1.0) = some (.int ((n + 1 : Nat) : Int)) := by
  have hbits : n + 1 < 2 ^ 53 := Nat.lt_trans h (by decide)
  rw [ofFloat?, Decimal.whole?_ofNat_add_one hbits]
  exact if_pos h

end Narrative.Number
