import Narrative.Proofs.Decimal.Finite

/-!
# Quotients of finite floats

A finite float divided by a power of ten that is no less than one is finite: the exponent of the
quotient is that of the dividend less that of the divisor, and rounding moves it by little.
-/

namespace Narrative.Decimal

open Float.Model Float.Model.UnpackedFloat

/-! ### Quotients -/

/-- The quotient of two significands keeps the bits of the dividend, or has those of a float and
one more. -/
theorem divCore_le {m m' bits : Nat} {e e' limit least : Int} (hm : m < 2 ^ bits)
    (hbits : 54 ≤ bits) (hm' : 0 < m') (he : e ≤ limit) (he' : least ≤ e') :
    (divCore Format.binary64 m e m' e').1 < 2 ^ bits ∧
      (divCore Format.binary64 m e m' e').2.1 ≤ limit - least := by
  have hprecision : Format.binary64.mantissaBits = 53 := rfl
  have hleast : Format.binary64.minExponent = -1074 := rfl
  simp only [divCore, Format.targetExponent, totalExponent, hprecision, hleast]
  refine ⟨?_, by omega⟩
  generalize hshift : (e - e' - min (e - e') (max ((m.log2 : Int) + 1 + e - (m'.log2 + 1 + e') -
    (53 : Nat)) (-1074))).toNat = shift
  by_cases hzero : shift = 0
  · rw [hzero, Nat.shiftLeft_zero]
    exact Nat.lt_of_le_of_lt (Nat.div_le_self _ _) hm
  have hbehind : shift + m.log2 ≤ 53 + m'.log2 := by omega
  have hdividend : m < 2 ^ (m.log2 + 1) := Nat.lt_log2_self
  have hdivisor : 2 ^ m'.log2 ≤ m' := Nat.log2_self_le (by omega)
  rw [Nat.div_lt_iff_lt_mul hm', Nat.shiftLeft_eq]
  calc m * 2 ^ shift < 2 ^ (m.log2 + 1) * 2 ^ shift :=
        Nat.mul_lt_mul_of_pos_right hdividend (Nat.two_pow_pos shift)
    _ = 2 ^ (m.log2 + 1 + shift) := (Nat.pow_add ..).symm
    _ ≤ 2 ^ (bits + m'.log2) := Nat.pow_le_pow_right (by decide) (by omega)
    _ = 2 ^ bits * 2 ^ m'.log2 := Nat.pow_add ..
    _ ≤ 2 ^ bits * m' := Nat.mul_le_mul_left _ hdivisor

/-- A positive number whose exponent is bounded from below. -/
def AtLeast (least : Int) : UnpackedFloat → Prop
  | .finite _ _ e _ => least ≤ e
  | _ => False

instance (least : Int) : (u : UnpackedFloat) → Decidable (AtLeast least u)
  | .finite _ _ e _ => inferInstanceAs (Decidable (least ≤ e))
  | .zero _ | .infinity _ | .notANumber => inferInstanceAs (Decidable False)

theorem within_div {u v : UnpackedFloat} {bits : Nat} {limit least : Int}
    (hu : Within bits limit u) (hbits : 54 ≤ bits) (hv : AtLeast least v)
    (hlow : -1074 ≤ limit - least) :
    Within (bits + 1) (limit - least + 2 * bits + 1) (UnpackedFloat.div Format.binary64 u v) := by
  cases v with
  | infinity _ => exact hv.elim
  | notANumber => exact hv.elim
  | zero _ => exact hv.elim
  | finite _ m' e' hm' =>
    cases u with
    | infinity _ => exact hu.elim
    | notANumber => exact hu.elim
    | zero _ => trivial
    | finite _ m e _ =>
      obtain ⟨hquotient, hexponent⟩ := divCore_le hu.1 hbits hm' hu.2 hv
      exact within_roundWithAccuracy _ _ hquotient hexponent hlow

theorem Within.wider {bits more : Nat} {limit : Int} {u : UnpackedFloat} (h : Within bits limit u)
    (hle : bits ≤ more) : Within more limit u := by
  cases u with
  | infinity _ => exact h.elim
  | notANumber => exact h.elim
  | zero _ => trivial
  | finite _ _ _ _ => exact ⟨Nat.lt_of_lt_of_le h.1 (Nat.pow_le_pow_right (by decide) hle), h.2⟩

/-- A quotient of floats. -/
theorem within_div_float {x y : Float} {limit least : Int} (hx : Within 53 limit x.toModel.unpack)
    (hy : AtLeast least y.toModel.unpack) (hlow : -1074 ≤ limit - least)
    (hhigh : limit - least + 109 ≤ 971) :
    Within 53 (limit - least + 109) (x / y).toModel.unpack := by
  have hquotient := within_div (hx.wider (show 53 ≤ 54 by decide)) (Nat.le_refl 54) hy hlow
  exact Within.unpack_pack (hquotient.mono (by omega)) (by omega) hhigh

/-! ### Powers of ten -/

/-- A power of ten is no less than one. -/
theorem atLeast_power (k : Nat) :
    AtLeast (-52) (Float.ofScientific 1 false (min k 308)).toModel.unpack := by
  have hpowers : ∀ k < 309, AtLeast (-52) (Float.ofScientific 1 false k).toModel.unpack := by
    decide +kernel
  exact hpowers (min k 308) (by omega)

/-- The last power of ten that is a float is far greater. -/
theorem atLeast_lastPower {k : Nat} (h : 308 ≤ k) :
    AtLeast 971 (Float.ofScientific 1 false (min k 308)).toModel.unpack := by
  rw [Nat.min_eq_right h]
  decide +kernel

/-! ### Signs -/

/-- What the bits of a finite float say. -/
theorem within_of_isFinite {x : Float} (h : x.isFinite = true) :
    Within 53 971 x.toModel.unpack := by
  have hexponent : @unpackExponent Format.binary64 x.toModel.toBits.toBitVec ≠ -1#_ := by
    intro heq
    have hfinite : (UnpackedFloat.unpack Format.binary64 x.toModel.toBits.toBitVec).isFinite =
        true := h
    simp only [UnpackedFloat.unpack, if_pos heq] at hfinite
    split at hfinite <;> exact absurd hfinite nofun
  refine (within_unpack hexponent).mono ?_
  have hlt : (@unpackExponent Format.binary64 x.toModel.toBits.toBitVec).toNat < 2 ^ 11 :=
    BitVec.isLt _
  have hne : (@unpackExponent Format.binary64 x.toModel.toBits.toBitVec).toNat ≠ 2 ^ 11 - 1 :=
    fun heq => hexponent (BitVec.eq_of_toNat_eq heq)
  omega

theorem isFinite_neg {x : Float} (h : x.isFinite = true) : (-x).isFinite = true :=
  ((within_of_isFinite h).neg.unpack_pack (by decide) (by decide)).isFinite

end Narrative.Decimal
