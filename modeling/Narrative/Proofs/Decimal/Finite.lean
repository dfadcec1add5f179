import Narrative.Proofs.Decimal.Bits

/-!
# Finite floats

A float is finite when its bits say so, and the float nearest to an integer of a document is finite:
the exponent of what is rounded stays far below that of the infinities.
-/

namespace Narrative.Decimal

open Float.Model Float.Model.UnpackedFloat

/-! ### Finite bits -/

/-- A number whose significand and exponent are bounded. -/
def Within (bits : Nat) (limit : Int) : UnpackedFloat → Prop
  | .zero _ => True
  | .finite _ m e _ => m < 2 ^ bits ∧ e ≤ limit
  | _ => False

instance (bits : Nat) (limit : Int) : (u : UnpackedFloat) → Decidable (Within bits limit u)
  | .zero _ => inferInstanceAs (Decidable True)
  | .finite _ m e _ => inferInstanceAs (Decidable (m < 2 ^ bits ∧ e ≤ limit))
  | .infinity _ | .notANumber => inferInstanceAs (Decidable False)

theorem Within.isFinite {bits : Nat} {limit : Int} {u : UnpackedFloat} (h : Within bits limit u) :
    u.isFinite = true := by
  cases u with
  | infinity _ => exact h.elim
  | notANumber => exact h.elim
  | zero _ => rfl
  | finite _ _ _ _ => rfl

theorem Within.neg {bits : Nat} {limit : Int} {u : UnpackedFloat} (h : Within bits limit u) :
    Within bits limit u.neg := by
  cases u with
  | infinity _ => exact h.elim
  | notANumber => exact h.elim
  | zero _ => trivial
  | finite _ _ _ _ => exact h

/-- What the bits of a number say when its exponent is not that of the infinities. -/
theorem within_unpack {b : BitVec Format.binary64.numBits}
    (h : @unpackExponent Format.binary64 b ≠ -1#_) :
    Within 53 (max ((@unpackExponent Format.binary64 b).toNat - 1075) (-1074))
      (UnpackedFloat.unpack Format.binary64 b) := by
  have hbias : Format.binary64.exponentBias = 1023 := rfl
  simp only [UnpackedFloat.unpack, if_neg h, hbias]
  split
  · split
    · trivial
    · have hm : (@unpackMantissa Format.binary64 b).toNat < 2 ^ 52 := BitVec.isLt _
      rename_i hzero _
      simp only [Within, hzero, BitVec.toNat_zero]
      omega
  · refine ⟨BitVec.isLt _, ?_⟩
    omega

theorem Within.mono {bits : Nat} {low high : Int} {u : UnpackedFloat} (h : Within bits low u)
    (hle : low ≤ high) : Within bits high u := by
  cases u with
  | infinity _ => exact h.elim
  | notANumber => exact h.elim
  | zero _ => trivial
  | finite _ _ _ _ => exact ⟨h.1, Int.le_trans h.2 hle⟩

theorem within_unpack_packComponents {s : Sign} {e : BitVec 11} {m : BitVec 52} {limit : Int}
    (he : e ≠ -1#11) (hlow : -1074 ≤ limit) (hhigh : (e.toNat : Int) - 1075 ≤ limit) :
    Within 53 limit
      (UnpackedFloat.unpack Format.binary64 (packComponents Format.binary64 s e m)) := by
  have hexponent : unpackExponent (packComponents Format.binary64 s e m) = e :=
    unpackExponent_packComponents
  have h := within_unpack (b := packComponents Format.binary64 s e m) (by rw [hexponent]; exact he)
  rw [hexponent] at h
  exact h.mono (by omega)

/-- A number below the infinities keeps its bounds when it is packed. -/
theorem Within.unpack_pack {bits : Nat} {limit : Int} {u : UnpackedFloat} (h : Within bits limit u)
    (hlow : -1074 ≤ limit) (hhigh : limit ≤ 971) :
    Within 53 limit (Float.Model.pack u).unpack := by
  show Within 53 limit (UnpackedFloat.unpack Format.binary64 (UnpackedFloat.pack Format.binary64 u))
  cases u with
  | infinity _ => exact h.elim
  | notANumber => exact h.elim
  | zero s => exact within_unpack_packComponents (by decide) hlow (by simp; omega)
  | finite s m e hm =>
    obtain ⟨-, he⟩ := h
    have hbias : Format.binary64.exponentBias = 1023 := rfl
    simp only [UnpackedFloat.pack, hbias]
    rw [if_neg (by omega)]
    split
    · have hexponent : (BitVec.ofNat 11 (e + (1023 : Nat) + (52 : Nat)).toNat).toNat =
          (e + (1023 : Nat) + (52 : Nat)).toNat := by
        rw [BitVec.toNat_ofNat, Nat.mod_eq_of_lt (by omega)]
      refine within_unpack_packComponents (fun hne => ?_) hlow ?_
      · have hnat := congrArg BitVec.toNat hne
        rw [hexponent] at hnat
        simp at hnat
        omega
      · omega
    · exact within_unpack_packComponents (by decide) hlow (by simp; omega)

/-! ### Rounding -/

theorem mantissa_repeat_shiftRightOne_le (n : Nat) (em : ExtendedMantissa) :
    (n.repeat ExtendedMantissa.shiftRightOne em).mantissa ≤ em.mantissa := by
  induction n with
  | zero => exact Nat.le_refl _
  | succ n ih =>
    rw [Nat.repeat]
    exact Nat.le_trans (Nat.div_le_self _ _) ih

theorem mantissa_ofMantissaAndAccuracy (m : Nat) (a : Accuracy) :
    (ExtendedMantissa.ofMantissaAndAccuracy m a).mantissa = m := by
  unfold ExtendedMantissa.ofMantissaAndAccuracy
  split <;> rfl

theorem roundedMantissa_le (em : ExtendedMantissa) : em.roundedMantissa ≤ em.mantissa + 1 := by
  unfold ExtendedMantissa.roundedMantissa Accuracy.roundToNearestEven
  split <;> omega

/-- Shifting does not enlarge a significand, and raises its exponent to where its bits fit. -/
theorem shiftToTargetExponent_le {m bits : Nat} {e limit : Int} (a : Accuracy) (hm : m < 2 ^ bits)
    (he : e ≤ limit) (hlow : -1074 ≤ limit) :
    (shiftToTargetExponent Format.binary64 m e a).1.mantissa ≤ m ∧
      (shiftToTargetExponent Format.binary64 m e a).2 ≤ limit + bits := by
  have hlog : m.log2 ≤ bits := by
    by_cases hzero : m = 0
    · simp [hzero]
    · exact Nat.le_of_lt ((Nat.log2_lt hzero).2 hm)
  have hmin : Format.binary64.minExponent = -1074 := rfl
  have hbits : Format.binary64.mantissaBits = 53 := rfl
  refine ⟨?_, ?_⟩
  · exact Nat.le_trans (mantissa_repeat_shiftRightOne_le _ _)
      (Nat.le_of_eq (mantissa_ofMantissaAndAccuracy m a))
  · simp only [shiftToTargetExponent, shiftToExponent, Format.targetExponent, totalExponent, hmin,
      hbits]
    omega

/-- Rounding adds at most one bit to a significand. -/
theorem within_roundWithAccuracy {m bits : Nat} {e limit : Int} (s : Sign) (a : Accuracy)
    (hm : m < 2 ^ bits) (he : e ≤ limit) (hlow : -1074 ≤ limit) :
    Within (bits + 1) (limit + 2 * bits + 1) (roundWithAccuracy Format.binary64 s m e a) := by
  obtain ⟨hm₁, he₁⟩ := shiftToTargetExponent_le a hm he hlow
  have hround := roundedMantissa_le (shiftToTargetExponent Format.binary64 m e a).1
  have hpow : 2 ^ (bits + 1) = 2 * 2 ^ bits := Nat.pow_succ'
  have hpos := Nat.two_pow_pos bits
  have hrounded :
      (shiftToTargetExponent Format.binary64 m e a).1.roundedMantissa < 2 ^ (bits + 1) := by omega
  obtain ⟨hm₂, he₂⟩ := shiftToTargetExponent_le .exact hrounded he₁ (by omega)
  simp only [roundWithAccuracy]
  split
  · trivial
  · exact ⟨by omega, by omega⟩

/-! ### Integers -/

theorem within_mul {u v : UnpackedFloat} {bits bits' : Nat} {limit limit' : Int}
    (hu : Within bits limit u) (hv : Within bits' limit' v) (hlow : -1074 ≤ limit + limit') :
    Within (bits + bits' + 1) (limit + limit' + 2 * (bits + bits' : Nat) + 1)
      (UnpackedFloat.mul Format.binary64 u v) := by
  cases u with
  | infinity _ => exact hu.elim
  | notANumber => exact hu.elim
  | zero _ =>
    cases v with
    | infinity _ => exact hv.elim
    | notANumber => exact hv.elim
    | zero _ => trivial
    | finite _ _ _ _ => trivial
  | finite _ m e _ =>
    cases v with
    | infinity _ => exact hv.elim
    | notANumber => exact hv.elim
    | zero _ => trivial
    | finite _ m' e' _ =>
      refine within_roundWithAccuracy _ _ ?_ (Int.add_le_add hu.2 hv.2) hlow
      rw [Nat.pow_add]
      exact Nat.mul_lt_mul'' hu.1 hv.1

theorem within_ofUInt64 (n : UInt64) (h : n.toNat < 2 ^ 53) :
    Within 53 211 (Float.Model.ofUInt64 n).unpack := by
  refine @Within.unpack_pack 106 _ _ ?_ (by decide) (by decide)
  simp only [UnpackedFloat.ofUInt64, UnpackedFloat.ofNat, UnpackedFloat.ofInt,
    UnpackedFloat.normalize]
  split
  · rename_i hlt
    rw [Int.compare_eq_lt] at hlt
    omega
  · trivial
  · rw [Int.toNat_natCast, UnpackedFloat.round, decreaseExponent]
    have htarget : -52 ≤ Format.binary64.targetExponent (totalExponent n.toNat 0) := by
      have hbits : Format.binary64.mantissaBits = 53 := rfl
      simp only [Format.targetExponent, totalExponent, hbits]
      omega
    have hshift : (0 - Format.binary64.targetExponent (totalExponent n.toNat 0)).toNat ≤ 52 := by
      omega
    refine @within_roundWithAccuracy _ 105 _ 0 _ _ ?_ (by omega) (by decide)
    rw [Nat.shiftLeft_eq, show (2 : Nat) ^ 105 = 2 ^ 53 * 2 ^ 52 by decide]
    exact Nat.mul_lt_mul_of_lt_of_le h (Nat.pow_le_pow_right (by decide) hshift)
      (Nat.two_pow_pos 52)

theorem within_ofNat {n : Nat} (h : n < 2 ^ 64) :
    Within 53 600 (Float.ofNat n).toModel.unpack := by
  show Within 53 600 (Float.ofScientific n false 0).toModel.unpack
  unfold Float.ofScientific
  split
  · rename_i hn
    have hone : Within 53 (-52) (Float.ofBits 0x3FF0000000000000).toModel.unpack := by
      decide +kernel
    have hnat : n.toUInt64.toNat = n := by
      exact UInt64.toNat_ofNat_of_lt' h
    have hleft := within_ofUInt64 n.toUInt64 (by rw [hnat]; exact hn.1)
    exact ((within_mul hleft hone (by decide)).unpack_pack (by decide) (by decide)).mono (by decide)
  · show Within 53 600 (Float.Model.ofScientific n 0).unpack
    refine @Within.unpack_pack 119 _ _ ?_ (by decide) (by decide)
    by_cases hzero : n = 0
    · rw [UnpackedFloat.ofScientific, dif_pos hzero]
      trivial
    · have hlow : ¬(0 : Int) < -((2 ^ Format.binary64.exponentBits : Int) + n.log2) := by
        have hpos : (0 : Int) ≤ 2 ^ Format.binary64.exponentBits := by decide
        omega
      rw [UnpackedFloat.ofScientific, dif_neg hzero, if_neg (by decide), if_neg hlow,
        if_pos (by decide)]
      simp only [UnpackedFloat.mul]
      have hm : n <<< Format.binary64.mantissaBits * 10 ^ Int.toNat 0 < 2 ^ 118 := by
        simp only [Format.mantissaBits, Nat.shiftLeft_eq, Int.toNat_zero, Nat.pow_zero, Nat.mul_one]
        omega
      have he : -(Format.binary64.mantissaBits : Int) + 0 ≤ -53 := by decide
      generalize n <<< Format.binary64.mantissaBits * 10 ^ Int.toNat 0 = m at hm ⊢
      generalize -(Format.binary64.mantissaBits : Int) + 0 = e at he ⊢
      exact (within_roundWithAccuracy _ _ hm he (by decide)).mono (by decide)

/-- The float nearest to an integer of a document is finite. -/
theorem isFinite_ofInt {n : Int} (h : -(2 ^ 63) ≤ n ∧ n < 2 ^ 64) :
    (Float.ofInt n).isFinite = true := by
  cases n with
  | ofNat n =>
    have hn : (n : Int) < 2 ^ 64 := h.2
    exact (within_ofNat (by omega)).isFinite
  | negSucc n =>
    exact ((within_ofNat (n := n + 1) (by omega)).neg.unpack_pack (by decide) (by decide)).isFinite

/-- A float is finite when its bits are those of a significand and an exponent. -/
theorem isFinite_of_ofFloat {x : Float} {negative : Bool} {m : Nat} {q : Int}
    (h : Binary.ofFloat x = .finite negative m q) : x.isFinite = true := by
  show x.toModel.unpack.isFinite = true
  rw [Binary.ofFloat_eq] at h
  cases hu : x.toModel.unpack with
  | zero _ => rfl
  | finite _ _ _ _ => rfl
  | infinity _ =>
    rw [hu] at h
    cases h
  | notANumber =>
    rw [hu] at h
    cases h

end Narrative.Decimal
