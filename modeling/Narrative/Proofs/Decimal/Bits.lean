import Mathlib
import Narrative.Decimal.Binary

/-!
# The bits of a float

A float is given by its bits, and computed with in the form that its bits unpack to.  Both say the
same sign, significand and exponent.
-/

namespace Narrative.Decimal

open Float.Model Float.Model.UnpackedFloat

/-! ### Unpacked bits -/

theorem toNat_unpackExponent (b : BitVec 64) :
    (@unpackExponent Format.binary64 b).toNat = b.toNat / 2 ^ 52 % 2 ^ 11 := by
  simp only [unpackExponent, BitVec.extractLsb, BitVec.toNat_cast, BitVec.extractLsb'_toNat,
    Nat.shiftRight_eq_div_pow]

theorem toNat_unpackMantissa (b : BitVec 64) :
    (@unpackMantissa Format.binary64 b).toNat = b.toNat % 2 ^ 52 := by
  simp only [unpackMantissa, BitVec.extractLsb, BitVec.toNat_cast, BitVec.extractLsb'_toNat,
    Nat.shiftRight_zero]

theorem toNat_unpackSign (b : BitVec 64) :
    (@unpackSign Format.binary64 b).toNat = b.toNat / 2 ^ 63 := by
  have hlt : b.toNat < 2 ^ 64 := b.isLt
  simp only [unpackSign, BitVec.extractLsb, BitVec.toNat_cast, BitVec.extractLsb'_toNat,
    Nat.shiftRight_eq_div_pow]
  show b.toNat / 2 ^ 63 % 2 ^ 1 = b.toNat / 2 ^ 63
  omega

theorem toNat_one_append (m : BitVec 52) : (1#1 ++ m).toNat = m.toNat + 2 ^ 52 := by
  rw [BitVec.toNat_append, Nat.or_comm]
  exact Nat.or_two_pow_eq_add_of_lt m.isLt

/-- The sign, significand and exponent of a number that is unpacked. -/
def Binary.ofUnpacked : UnpackedFloat → Binary
  | .infinity s => .infinite (s == .negative)
  | .notANumber => .nan
  | .zero s => .finite (s == .negative) 0 leastExponent
  | .finite s m e _ => .finite (s == .negative) m e

theorem ofBitVec_eq_negative (b : BitVec 64) :
    (Sign.ofBitVec (@unpackSign Format.binary64 b) == .negative) = (b.toNat / 2 ^ 63 == 1) := by
  have hsign := toNat_unpackSign b
  have hlt : b.toNat < 2 ^ 64 := b.isLt
  by_cases hzero : @unpackSign Format.binary64 b = 0#1
  · rw [hzero, BitVec.toNat_zero] at hsign
    rw [Sign.ofBitVec, if_pos hzero, ← hsign]
    rfl
  · have hne : b.toNat / 2 ^ 63 ≠ 0 := fun h =>
      hzero (BitVec.eq_of_toNat_eq (by rw [hsign, h, BitVec.toNat_zero]))
    have hone : b.toNat / 2 ^ 63 = 1 := by omega
    rw [Sign.ofBitVec, if_neg hzero, hone]
    rfl

/-- The bits of a float say what its model says. -/
theorem Binary.ofFloat_eq (x : Float) : Binary.ofFloat x = .ofUnpacked x.toModel.unpack := by
  show (let negative := x.toModel.toBits.toBitVec.toNat / 2 ^ 63 == 1
    let biased : Nat := x.toModel.toBits.toBitVec.toNat / 2 ^ 52 % 2 ^ 11
    let fraction : Nat := x.toModel.toBits.toBitVec.toNat % 2 ^ 52
    if biased = 2047 then if fraction = 0 then .infinite negative else .nan
    else if biased = 0 then .finite negative fraction leastExponent
    else .finite negative (fraction + 2 ^ 52) ((biased : Int) - 1075)) =
      ofUnpacked (UnpackedFloat.unpack Format.binary64 x.toModel.toBits.toBitVec)
  generalize x.toModel.toBits.toBitVec = b
  have hbias : Format.binary64.exponentBias = 1023 := rfl
  have htop : @unpackExponent Format.binary64 b = -1#11 ↔
      (@unpackExponent Format.binary64 b).toNat = 2047 := BitVec.toNat_eq
  have hbottom : @unpackExponent Format.binary64 b = 0#11 ↔
      (@unpackExponent Format.binary64 b).toNat = 0 := BitVec.toNat_eq
  have hfraction : @unpackMantissa Format.binary64 b = 0#52 ↔
      (@unpackMantissa Format.binary64 b).toNat = 0 := BitVec.toNat_eq
  simp only [UnpackedFloat.unpack, htop, hbottom, hfraction, ← toNat_unpackExponent,
    ← toNat_unpackMantissa, ← ofBitVec_eq_negative, hbias]
  split
  · split <;> rfl
  · split
    · split
      · rename_i hzero
        rw [hzero]
        rfl
      · rename_i hexponent _
        rw [hexponent]
        rfl
    · simp only [ofUnpacked, toNat_one_append]
      rfl

/-! ### Packed bits -/

theorem unpackSign_packComponents {s : Sign} {e : BitVec 11} {m : BitVec 52} :
    unpackSign (packComponents Format.binary64 s e m) = s.toBitVec := by
  show (s.toBitVec ++ e ++ m).extractLsb' 63 1 = s.toBitVec
  rw [BitVec.extractLsb'_append_eq_of_le (by decide),
    BitVec.extractLsb'_append_eq_of_le (by decide)]
  exact BitVec.extractLsb'_eq_self

/-- A significand of fifty-three bits is read back with its exponent. -/
theorem unpack_pack_normal {m : Nat} {e : Int} (hm : 0 < m) (hlog : m.log2 = 52)
    (hlow : -1074 ≤ e) (hhigh : e ≤ 971) :
    (Float.Model.pack (.finite .positive m e hm)).unpack = .finite .positive m e hm := by
  show UnpackedFloat.unpack Format.binary64
    (UnpackedFloat.pack Format.binary64 (.finite .positive m e hm)) = _
  have hbias : Format.binary64.exponentBias = 1023 := rfl
  have hbits : Format.binary64.mantissaBits = 53 := rfl
  simp only [UnpackedFloat.pack, hbias, hbits, hlog]
  rw [if_neg (by omega), if_pos trivial]
  generalize hbiased : (e + (1023 : Nat) + (52 : Nat)).toNat = biased
  have hexponent : (BitVec.ofNat 11 biased).toNat = biased := by
    rw [BitVec.toNat_ofNat, Nat.mod_eq_of_lt (by omega)]
  have htop : BitVec.ofNat 11 biased ≠ -1#11 := fun h => by
    have hnat : biased = 2047 := hexponent.symm.trans (BitVec.toNat_eq.1 h)
    omega
  have hbottom : BitVec.ofNat 11 biased ≠ 0#11 := fun h => by
    have hnat : biased = 0 := hexponent.symm.trans (BitVec.toNat_eq.1 h)
    omega
  have hmantissa : (1#1 ++ BitVec.ofNat 52 m).toNat = m := by
    obtain ⟨hle, hlt⟩ := (Nat.log2_eq_iff (Nat.ne_of_gt hm)).1 hlog
    rw [toNat_one_append, BitVec.toNat_ofNat]
    omega
  have hback : (biased : Int) - ((1023 : Nat) + (52 : Nat)) = e := by omega
  simp only [UnpackedFloat.unpack, unpackExponent_packComponents, unpackMantissa_packComponents,
    unpackSign_packComponents, if_neg htop, if_neg hbottom, hexponent, hmantissa, hbias, hback]
  rfl

end Narrative.Decimal
