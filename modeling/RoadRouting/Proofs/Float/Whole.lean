import RoadRouting.Proofs.Float.Quotients

/-!
# Floats as whole numbers

A float is converted to 32 bits without its fraction: what lies below is taken for nothing, what lies
above for the greatest number. So the conversion keeps the order, also after a division by a float that
is neither zero nor infinite (`toUInt32_div_le_div`).
-/

namespace RoadRouting.Binary64
set_option autoImplicit false
open Float.Model (Format UnpackedFloat totalExponent)
open Float.Model.UnpackedFloat

theorem toUInt32_eq (x : Float) :
    x.toUInt32 = UInt32.ofNatClamp (toInt 0 (UInt32.size - 1) x.toModel.unpack).toNat := rfl

theorem toNat_ofNatClamp (n : Nat) : (UInt32.ofNatClamp n).toNat = min (2 ^ 32 - 1) n := by
  have hsize : UInt32.size = 2 ^ 32 := rfl
  unfold UInt32.ofNatClamp
  split
  · rw [UInt32.toNat_ofNatLT]
    omega
  · rw [UInt32.toNat_ofNatLT]
    omega

/-- The whole part of a number of units. -/
theorem roundToInt_eq (s : Sign) (m k : Nat) :
    roundToInt s m (k - 1074) = s.apply ((m * 2 ^ k / 2 ^ 1074 : Nat) : Int) := by
  unfold roundToInt decreaseExponent shiftToExponent
  simp only [ExtendedMantissa.ofMantissaAndAccuracy, shiftRight_eq, Nat.shiftLeft_eq]
  congr 2
  rcases Nat.le_total 1074 k with hk | hk
  · obtain ⟨j, rfl⟩ := Nat.exists_eq_add_of_le hk
    have hj : ((((1074 + j : Nat) : Int) - 1074) - 0).toNat = j := by omega
    have hzero : (0 - ((((1074 + j : Nat) : Int) - 1074) - (j : Nat))).toNat = 0 := by omega
    rw [hj, hzero, Nat.pow_zero, Nat.div_one, Nat.add_comm 1074 j, Nat.pow_add, ← Nat.mul_assoc,
      Nat.mul_div_cancel _ (Nat.two_pow_pos 1074)]
  · obtain ⟨j, hj⟩ := Nat.exists_eq_add_of_le hk
    have hzero : (((k : Int) - 1074) - 0).toNat = 0 := by omega
    have hdrop : (0 - (((k : Int) - 1074) - (0 : Nat))).toNat = j := by omega
    rw [hzero, hdrop, Nat.pow_zero, Nat.mul_one, hj, Nat.pow_add, Nat.mul_comm (2 ^ k),
      Nat.mul_div_mul_right _ _ (Nat.two_pow_pos k)]

/-- A float without a minus sign loses its fraction. -/
theorem IsPositive.toNat_toUInt32 {x : Float} (hx : IsPositive x) :
    x.toUInt32.toNat = min (2 ^ 32 - 1) (units (bits x) / 2 ^ 1074) := by
  have hshow := (shows x).positive hx
  rw [toUInt32_eq, toNat_ofNatClamp]
  generalize bits x = b at hshow
  generalize x.toModel.unpack = u at hshow
  cases hshow with
  | infinity => decide +kernel
  | zero =>
    rw [units_zero, Nat.zero_div]
    rfl
  | @finite m k hm hc hlt =>
    rw [hc.units_eq]
    exact congrArg (fun i : Int => min (2 ^ 32 - 1) i.toNat) (roundToInt_eq .positive m k)

/-- What has a minus sign, or is no number, is taken for nothing. -/
theorem toUInt32_of_not_isPositive {x : Float} (hx : ¬ IsPositive x) : x.toUInt32 = 0 := by
  have hshow := shows x
  unfold IsPositive at hx
  rw [toUInt32_eq]
  generalize bits x = b at hshow hx
  generalize x.toModel.unpack = u at hshow
  cases hshow with
  | notANumber => rfl
  | infinity s =>
    cases s with
    | positive => exact absurd (Nat.zero_add _).le hx
    | negative => rfl
  | zero s => rfl
  | @finite s m k hm hc hlt =>
    cases s with
    | positive => exact absurd ((Nat.zero_add _).trans_le hlt.le) hx
    | negative =>
      have hwhole : toInt 0 (UInt32.size - 1) (.finite .negative m (k - 1074) hm) =
          -((m * 2 ^ k / 2 ^ 1074 : Nat) : Int) := roundToInt_eq .negative m k
      rw [hwhole, Int.toNat_neg_natCast]
      rfl

/-! ## Order -/

/-- Rounding keeps the sign. -/
theorem roundWithAccuracy_cases (f : Format) (s : Sign) (m : Nat) (e : Int) (a : Accuracy) :
    roundWithAccuracy f s m e a = .zero s ∨
      ∃ m' e' hm', roundWithAccuracy f s m e a = .finite s m' e' hm' := by
  unfold roundWithAccuracy
  dsimp only
  exact (Decidable.em _).imp (fun h => dif_pos h) fun h => ⟨_, _, _, dif_neg h⟩

/-- What has a minus sign is packed with one. -/
theorem le_toNat_pack_negative (m : Nat) (e : Int) (a : Accuracy) :
    2 ^ 63 ≤ (UnpackedFloat.pack Format.binary64
      (roundWithAccuracy Format.binary64 .negative m e a)).toNat := by
  have hbit (e : BitVec 11) (m : BitVec 52) :
      2 ^ 63 ≤ (packComponents Format.binary64 .negative e m).toNat := by
    rw [toNat_packComponents]
    exact Nat.le_add_right _ _
  rcases roundWithAccuracy_cases Format.binary64 .negative m e a with h | ⟨m', e', hm', h⟩
  · rw [h]
    exact hbit _ _
  · rw [h]
    unfold UnpackedFloat.pack
    dsimp only
    split_ifs
    · exact hbit _ _
    · exact hbit _ _
    · exact hbit _ _

/-- A float is not below zero. -/
theorem zero_le_iff {x : Float} : 0 ≤ x ↔ x.isNaN = false ∧ 0 ≤ signed (bits x) := by
  have hbits : bits 0 = 0 := by decide +kernel
  have hzero : (0 : Float).isNaN = false := by decide +kernel
  rw [le_iff, hbits, hzero]
  exact and_iff_right rfl

theorem IsPositive.zero_le {x : Float} (hx : IsPositive x) : 0 ≤ x := by
  rw [zero_le_iff, hx.signed_eq]
  exact ⟨hx.isNaN, Int.natCast_nonneg _⟩

/-- A finite float without a minus sign. -/
theorem IsPositive.lt_of_isFinite {x : Float} (hx : IsPositive x) (h : x.isFinite = true) :
    bits x < infinityBits := by
  have hshow := (shows x).positive hx
  have h : x.toModel.unpack.isFinite = true := h
  generalize bits x = b at hshow
  generalize x.toModel.unpack = u at hshow h
  cases hshow with
  | infinity => cases h
  | zero => decide
  | finite hm hc hlt => exact hlt

section Quotient
variable {x y z : Float} (hz : IsPositive z) (hpos : 0 < bits z) (hfinite : bits z < infinityBits)
include hz hpos hfinite

/-- A minus sign stays, and what is no number becomes none. -/
theorem not_isPositive_div (hx : ¬ IsPositive x) : ¬ IsPositive (x / z) := by
  have hshow := shows x
  have hshow' := (shows z).positive hz
  unfold IsPositive at hx ⊢
  rw [bits_div_eq]
  generalize bits x = b at hshow hx
  generalize x.toModel.unpack = u at hshow
  generalize bits z = b' at hshow' hpos hfinite
  generalize z.toModel.unpack = u' at hshow'
  cases hshow' with
  | infinity => exact absurd hfinite (lt_irrefl _)
  | zero => exact absurd hpos (lt_irrefl _)
  | finite hm' hc' hlt' =>
    cases hshow with
    | notANumber => exact Nat.not_le.2 (by decide : infinityBits < infinityBits + 2 ^ 51)
    | infinity s =>
      cases s with
      | positive => exact absurd (Nat.zero_add _).le hx
      | negative => exact Nat.not_le.2 (by decide : infinityBits < 2 ^ 63 + infinityBits)
    | zero s =>
      cases s with
      | positive => exact absurd (Nat.zero_le _) hx
      | negative => exact Nat.not_le.2 (by decide : infinityBits < 2 ^ 63)
    | finite s hm hc hlt =>
      cases s with
      | positive => exact absurd ((Nat.zero_add _).trans_le hlt.le) hx
      | negative =>
        exact Nat.not_le.2 (Nat.lt_of_lt_of_le (by decide) (le_toNat_pack_negative _ _ _))

/-- The whole part of a quotient does not fall when its numerator grows. -/
theorem toUInt32_div_le_div (h : x ≤ y) : (x / z).toUInt32.toNat ≤ (y / z).toUInt32.toNat := by
  by_cases hx : IsPositive x
  · obtain ⟨-, hnumber, hsigned⟩ := le_iff.1 h
    rw [hx.signed_eq] at hsigned
    rcases isPositive_or_minusZero hnumber (by omega) with hy | hy
    · have hbits := hx.bits_div_le_bits_div hy hz hpos hfinite ((hx.le_iff hy).1 h)
      have hquotient := hx.div hz hpos hfinite
      have hquotient' := hy.div hz hpos hfinite
      rw [hquotient.toNat_toUInt32, hquotient'.toNat_toUInt32]
      exact min_le_min_left _ (Nat.div_le_div_right (units_mono hbits hquotient'))
    · have hzero : bits x = 0 := by
        rw [hy, show signed (2 ^ 63) = 0 from rfl] at hsigned
        omega
      have hinfinity : bits x < infinityBits := by
        rw [hzero]
        decide
      rw [(hx.div hz hpos hfinite).toNat_toUInt32, hx.bits_div hz hinfinity hpos hfinite, hzero,
        units_zero, Nat.zero_mul, roundedRatio_zero, units_zero, Nat.zero_div, Nat.min_zero]
      exact Nat.zero_le _
  · rw [toUInt32_of_not_isPositive (not_isPositive_div hz hpos hfinite hx)]
    exact Nat.zero_le _

/-- The quotient of a float that is not negative is not negative, and a number. -/
theorem zero_le_div (hx : 0 ≤ x) : 0 ≤ x / z := by
  obtain ⟨hnumber, hsigned⟩ := zero_le_iff.1 hx
  rcases isPositive_or_minusZero hnumber hsigned with hx | hx
  · exact (hx.div hz hpos hfinite).zero_le
  · have hzero : x.toModel.unpack = .zero .negative := by
      obtain rfl : x = -0.0 := bits_injective (hx.trans (by decide +kernel))
      rfl
    have hshow' := (shows z).positive hz
    have hbits : bits (x / z) = 2 ^ 63 := by
      rw [bits_div_eq, hzero]
      generalize bits z = b' at hshow' hpos hfinite
      generalize z.toModel.unpack = u' at hshow'
      cases hshow' with
      | infinity => exact absurd hfinite (lt_irrefl _)
      | zero => exact absurd hpos (lt_irrefl _)
      | finite hm' hc' hlt' =>
        have hpack : (UnpackedFloat.pack Format.binary64 (.zero .negative)).toNat = 2 ^ 63 := by decide
        exact hpack
    rw [zero_le_iff, hbits]
    refine ⟨?_, by decide⟩
    by_contra h
    have hnone := bits_of_isNaN (Bool.eq_true_of_not_eq_false h)
    rw [hbits] at hnone
    exact absurd hnone (by decide)

end Quotient

end RoadRouting.Binary64
