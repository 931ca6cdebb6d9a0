import Mathlib.Data.Nat.Log
import RoadRouting.Proofs.Float.Ratios
import RoadRouting.Proofs.Float.Sums

/-!
# Quotients of floats

A natural number becomes the float that is nearest to it, and the quotient of two floats without a
minus sign is the float nearest to their ratio (`IsPositive.bits_div`), whether its bits are all there
or not. So it does not fall when the numerator grows, and a share, the quotient of a count by one that
is not less, lies between nothing and one (`share_le_one`).
-/

namespace RoadRouting.Binary64
set_option autoImplicit false
open Float.Model (Format UnpackedFloat totalExponent)
open Float.Model.UnpackedFloat
open Decimal (roundDiv)

/-! ## Natural numbers -/

/-- The units of a natural number. -/
def unitsOf (n : Nat) : Nat := n * 2 ^ 1074

theorem unitsOf_one : unitsOf 1 = units (1023 * 2 ^ 52) := by decide +kernel

theorem rounded_unitsOf_one : rounded (unitsOf 1) = 1023 * 2 ^ 52 := by
  rw [unitsOf_one]
  exact rounded_units (by decide)

theorem rounded_unitsOf_last : rounded (unitsOf (2 ^ 64)) = 1087 * 2 ^ 52 := by
  have hunits : unitsOf (2 ^ 64) = units (1087 * 2 ^ 52) := by decide +kernel
  rw [hunits]
  exact rounded_units (by decide)

/-- A number of at most 64 bits. -/
theorem bits_toFloat_ofUInt64 {n : Nat} (hn : 0 < n) (hlt : n < 2 ^ 64) :
    bits n.toUInt64.toFloat = rounded (unitsOf n) := by
  have hsame : n.toUInt64.toNat = n := by
    rw [Nat.toUInt64_eq, UInt64.toNat_ofNat']
    exact Nat.mod_eq_of_lt hlt
  have hround : UnpackedFloat.ofUInt64 Format.binary64 n.toUInt64 =
      UnpackedFloat.round Format.binary64 .positive n 0 := by
    unfold UnpackedFloat.ofUInt64 UnpackedFloat.ofNat UnpackedFloat.ofInt UnpackedFloat.normalize
    rw [hsame, Int.compare_eq_gt.2 (by omega)]
    rfl
  have hbits : bits n.toUInt64.toFloat = (UnpackedFloat.pack Format.binary64
      (UnpackedFloat.ofUInt64 Format.binary64 n.toUInt64)).toNat := rfl
  rw [hbits, hround]
  exact toNat_pack_round hn 1074

/-- One times a float is that float. -/
theorem bits_mul_one {x : Float} (hx : IsPositive x) (hle : 1023 * 2 ^ 52 ≤ bits x)
    (hlt : bits x < infinityBits) : bits (x * 1.0) = bits x := by
  have hshow := (shows x).positive hx
  have hone : (1.0 : Float).toModel.unpack = .finite .positive (2 ^ 52) (-52) (by decide) := by rfl
  have hmul : bits (x * 1.0) = (UnpackedFloat.pack Format.binary64
      (UnpackedFloat.mul Format.binary64 x.toModel.unpack (1.0 : Float).toModel.unpack)).toNat := rfl
  rw [hmul, hone]
  generalize bits x = b at hshow hle hlt
  generalize x.toModel.unpack = u at hshow
  cases hshow with
  | infinity => exact absurd hlt (lt_irrefl _)
  | zero => exact absurd hle (by decide)
  | @finite m k hm hc hfinite =>
    have hk : 52 ≤ k := by
      have hm := hc.lt
      omega
    have hexponent : (k : Int) - 1074 + -52 = ((k - 52 : Nat) : Int) - 1074 := by omega
    have hunits : m * 2 ^ 52 * 2 ^ (k - 52) = m * 2 ^ k := by
      rw [Nat.mul_assoc, ← Nat.pow_add, Nat.add_sub_cancel' hk]
    have hdrop : k - 52 ≤ excess (m * 2 ^ 52 * 2 ^ (k - 52)) := by
      rw [hunits, hc.excess_eq]
      omega
    have hproduct : UnpackedFloat.mul Format.binary64 (.finite .positive m (k - 1074) hm)
        (.finite .positive (2 ^ 52) (-52) (by decide)) =
        roundWithAccuracy Format.binary64 .positive (m * 2 ^ 52) ((k - 52 : Nat) - 1074) .exact := by
      rw [← hexponent]
      rfl
    rw [hproduct, toNat_pack_roundWithAccuracy (Nat.mul_pos hm (by decide)) hdrop, hunits,
      ← hc.units_eq, rounded_units hfinite.le]

/-- A number of more than 53 bits is converted as a decimal one. -/
theorem ofScientific_zero {n : Nat} (hn : 0 < n) : UnpackedFloat.ofScientific Format.binary64 n 0 =
    roundWithAccuracy Format.binary64 .positive (n * 2 ^ 53) ((1021 : Nat) - 1074) .exact := by
  have hlarge : ¬ (0 : Int) < -(2 ^ Format.binary64.exponentBits + n.log2) := by
    have hbits : Format.binary64.exponentBits = 11 := rfl
    rw [hbits]
    omega
  have hproduct : UnpackedFloat.mul Format.binary64
      (.finite .positive (n <<< 53) (-53) (Nat.shiftLeft_pos_iff.2 hn))
      (.finite .positive (10 ^ 0) 0 (by decide)) =
      roundWithAccuracy Format.binary64 .positive (n <<< 53 * 10 ^ 0) (-53 + 0) .exact := rfl
  unfold UnpackedFloat.ofScientific
  rw [dif_neg hn.ne', if_neg (by decide), if_neg hlarge, if_pos (le_refl _)]
  refine hproduct.trans ?_
  rw [Nat.shiftLeft_eq, Nat.pow_zero, Nat.mul_one]
  rfl

theorem first_power : Float.exactlyRepresentablePowersOfTen[0] = 1.0 := by decide +kernel

theorem mul_two_pow (n : Nat) {i j : Nat} (h : i + j = 1074) : n * 2 ^ i * 2 ^ j = unitsOf n := by
  rw [unitsOf, ← h, Nat.pow_add, Nat.mul_assoc]

theorem unitsOf_mono {n m : Nat} (h : n ≤ m) : unitsOf n ≤ unitsOf m := Nat.mul_le_mul_right _ h

/-- The floats of positive numbers of 64 bits lie between one and two to the 64. -/
theorem rounded_unitsOf_mem {n : Nat} (hn : 0 < n) (hlt : n < 2 ^ 64) :
    1023 * 2 ^ 52 ≤ rounded (unitsOf n) ∧ rounded (unitsOf n) ≤ 1087 * 2 ^ 52 := by
  rw [← rounded_unitsOf_one, ← rounded_unitsOf_last]
  exact ⟨rounded_mono (unitsOf_mono hn), rounded_mono (unitsOf_mono hlt.le)⟩

/-- A number becomes the float that is nearest to it. -/
theorem bits_toFloat {n : Nat} (hn : 0 < n) (hlt : n < 2 ^ 64) :
    bits n.toFloat = rounded (unitsOf n) := by
  have hdef : n.toFloat = Float.ofScientific n false 0 := rfl
  obtain ⟨hlow, hhigh⟩ := rounded_unitsOf_mem hn hlt
  by_cases hsmall : n < 2 ^ 53
  · have hproduct : n.toFloat = n.toUInt64.toFloat * 1.0 := by
      rw [hdef, Float.ofScientific, dif_pos ⟨hsmall, by decide⟩]
      simp only [Bool.false_eq_true, if_false, first_power]
    have hbits := bits_toFloat_ofUInt64 hn hlt
    have hfinite : bits n.toUInt64.toFloat < infinityBits := by
      rw [hbits]
      unfold infinityBits
      omega
    rw [hproduct, bits_mul_one hfinite.le (hlow.trans_eq hbits.symm) hfinite, hbits]
  · have hfits : ¬ (n < 2 ^ 53 ∧ 0 ≤ 22) := fun h => hsmall h.1
    have hround : bits n.toFloat = (UnpackedFloat.pack Format.binary64
        (roundWithAccuracy Format.binary64 .positive (n * 2 ^ 53) ((1021 : Nat) - 1074)
          .exact)).toNat := by
      rw [hdef, Float.ofScientific, dif_neg hfits, ← ofScientific_zero hn]
      rfl
    have hunits : n * 2 ^ 53 * 2 ^ 1021 = unitsOf n := mul_two_pow n rfl
    have hdrop : 1021 ≤ excess (n * 2 ^ 53 * 2 ^ 1021) := by
      have hone : excess (unitsOf 1) = 1022 := by decide +kernel
      have hmono := excess_mono (unitsOf_mono (show 1 ≤ n from hn))
      rw [hunits]
      omega
    rw [hround, toNat_pack_roundWithAccuracy (Nat.mul_pos hn (by decide)) hdrop, hunits]

/-! ## Quotients -/

theorem ofMantissaAndAccuracy_eq (q r d : Nat) :
    ExtendedMantissa.ofMantissaAndAccuracy q (accuracyOfFraction r d) =
      (⟨4 * q + restBits r d, false, false⟩ : ExtendedMantissa) >>> 2 := by
  have hdiv (b : Nat) (hb : b ≤ 3) : (4 * q + b) / 2 ^ 2 = q := by omega
  have hmod (b : Nat) (hb : b ≤ 3) : (4 * q + b) % 2 ^ 2 = b := by omega
  rw [shiftRight_eq, hdiv _ (restBits_le r d), hmod _ (restBits_le r d)]
  unfold accuracyOfFraction restBits
  split_ifs with h0 hlt heq
  · rfl
  · rw [Nat.compare_eq_lt.2 hlt]
    rfl
  · rw [Nat.compare_eq_eq.2 heq]
    rfl
  · rw [Nat.compare_eq_gt.2 (by omega)]
    rfl

theorem shiftRight_add (x : ExtendedMantissa) (i j : Nat) : (x >>> i) >>> j = x >>> (i + j) := by
  induction j with
  | zero => rfl
  | succ j ih =>
    have hstep (y : ExtendedMantissa) (k : Nat) : y >>> (k + 1) = (y >>> k).shiftRightOne := rfl
    rw [hstep, ih, ← Nat.add_assoc, hstep]

/-! ## The exponent of a quotient -/

theorem mul_two_pow_comm (a b : Nat) {i j k l : Nat} (h : i + j = k + l) :
    a * 2 ^ i * (b * 2 ^ j) = a * 2 ^ k * (b * 2 ^ l) := by
  rw [Nat.mul_mul_mul_comm, ← Nat.pow_add, h, Nat.pow_add, Nat.mul_mul_mul_comm]

theorem log2_div_two_pow (n j : Nat) : (n / 2 ^ j).log2 = n.log2 - j := by
  rw [Nat.log2_eq_log_two, Nat.log2_eq_log_two, Nat.log_div_base_pow]

section Exponent
variable {m m' : Nat} (k k' : Nat)

/-- The exponent of a quotient before it is rounded. -/
def quotientExponent (m k m' k' : Nat) : Int :=
  min ((k : Int) - 1074 - (k' - 1074))
    (Format.binary64.targetExponent (totalExponent m (k - 1074) - totalExponent m' (k' - 1074)))

/-- By how many bits the numerator is shifted so that the quotient has that exponent. -/
def quotientShift (m k m' k' : Nat) : Nat :=
  ((k : Int) - 1074 - (k' - 1074) - quotientExponent m k m' k').toNat

/-- It is in units of its exponent that a quotient is rounded, and it has all the bits which that takes. -/
theorem quotientExponent_le (hm : 0 < m) (hlt : m < 2 ^ 53) (hm' : 0 < m') (hlt' : m' < 2 ^ 53) :
    Format.binary64.targetExponent
        (totalExponent (m * 2 ^ quotientShift m k m' k' / m') (quotientExponent m k m' k')) =
      (excess (m * 2 ^ (k + 1074) / (m' * 2 ^ k')) : Int) - 1074 ∧
    quotientExponent m k m' k' ≤ (excess (m * 2 ^ (k + 1074) / (m' * 2 ^ k')) : Int) - 1074 := by
  have hmantissa : Format.binary64.mantissaBits = 53 := by decide
  have hleast : Format.binary64.minExponent = -1074 := by decide
  have hlog := (Nat.log2_lt hm.ne').2 hlt
  have hlog' := (Nat.log2_lt hm'.ne').2 hlt'
  have hexponent : quotientExponent m k m' k' =
      min ((k : Int) - k') (max ((m.log2 : Int) + k - m'.log2 - k' - 53) (-1074)) := by
    unfold quotientExponent Format.targetExponent totalExponent
    rw [hmantissa, hleast]
    omega
  have hshift : (quotientShift m k m' k' : Int) = k - k' - quotientExponent m k m' k' := by
    unfold quotientShift
    omega
  have hpos' : 0 < m' * 2 ^ k' := Nat.mul_pos hm' (Nat.two_pow_pos k')
  unfold Format.targetExponent totalExponent excess
  rw [hmantissa, hleast]
  generalize quotientExponent m k m' k' = t at hexponent hshift
  generalize quotientShift m k m' k' = i at hshift
  rcases Int.lt_or_le (-1074) t with hlarge | hsmall
  · -- all 53 bits are there
    obtain ⟨j, hj⟩ : ∃ j : Nat, t = j - 1074 := ⟨(t + 1074).toNat, by omega⟩
    have hratio : m * 2 ^ (k + 1074) / (m' * 2 ^ k') = m * 2 ^ (i + j) / m' := by
      refine div_eq_of_mul_eq hpos' hm' ?_
      have h := mul_two_pow_comm m m' (show k + 1074 + 0 = i + j + k' by omega)
      rwa [Nat.pow_zero, Nat.mul_one] at h
    have hquotient : m * 2 ^ i / m' = m * 2 ^ (i + j) / m' / 2 ^ j := by
      rw [Nat.pow_add, ← Nat.mul_assoc, Nat.div_div_eq_div_mul,
        Nat.mul_div_mul_right _ _ (Nat.two_pow_pos j)]
    have hfull : 2 ^ 52 ≤ m * 2 ^ i / m' := by
      rw [Nat.le_div_iff_mul_le hm']
      calc 2 ^ 52 * m' ≤ 2 ^ 52 * 2 ^ (m'.log2 + 1) := Nat.mul_le_mul_left _ Nat.lt_log2_self.le
        _ = 2 ^ m.log2 * 2 ^ i := by
          rw [← Nat.pow_add, ← Nat.pow_add]
          congr 1
          omega
        _ ≤ m * 2 ^ i := Nat.mul_le_mul_right _ (Nat.log2_self_le hm.ne')
    have hbits : 52 ≤ (m * 2 ^ i / m').log2 := (Nat.le_log2 (by omega)).2 hfull
    have hdrop := log2_div_two_pow (m * 2 ^ (i + j) / m') j
    rw [← hquotient] at hdrop
    rw [hratio]
    omega
  · -- some of them may be missing, but those that are there are more than are kept
    obtain ⟨j, hj⟩ : ∃ j : Nat, t = -1074 - j := ⟨(-1074 - t).toNat, by omega⟩
    have hratio : m * 2 ^ (k + 1074) / (m' * 2 ^ k') = m * 2 ^ i / m' / 2 ^ j := by
      rw [Nat.div_div_eq_div_mul]
      exact div_eq_of_mul_eq hpos' (Nat.mul_pos hm' (Nat.two_pow_pos j))
        (mul_two_pow_comm m m' (by omega))
    rw [hratio, log2_div_two_pow]
    omega

end Exponent

/-- The quotient of two floats is rounded from the ratio of their units. -/
theorem toNat_pack_div {m m' k k' : Nat} (hm : 0 < m) (hm' : 0 < m') (hlt : m < 2 ^ 53)
    (hlt' : m' < 2 ^ 53) :
    (UnpackedFloat.pack Format.binary64 (UnpackedFloat.div Format.binary64
      (.finite .positive m (k - 1074) hm) (.finite .positive m' (k' - 1074) hm'))).toNat =
      roundedRatio (m * 2 ^ (k + 1074)) (m' * 2 ^ k') := by
  obtain ⟨htarget, hle⟩ := quotientExponent_le k k' hm hlt hm' hlt'
  have hshift : (quotientShift m k m' k' : Int) = k - k' - quotientExponent m k m' k' := by
    have hmin : quotientExponent m k m' k' ≤ (k : Int) - 1074 - (k' - 1074) := min_le_left ..
    unfold quotientShift
    omega
  have hdiv : UnpackedFloat.div Format.binary64 (.finite .positive m (k - 1074) hm)
      (.finite .positive m' (k' - 1074) hm') =
      roundWithAccuracy Format.binary64 .positive (m * 2 ^ quotientShift m k m' k' / m')
        (quotientExponent m k m' k') (accuracyOfFraction (m * 2 ^ quotientShift m k m' k' % m') m') := by
    rw [← Nat.shiftLeft_eq]
    rfl
  rw [hdiv]
  unfold roundedRatio
  generalize hE : excess (m * 2 ^ (k + 1074) / (m' * 2 ^ k')) = E at htarget hle
  generalize quotientExponent m k m' k' = t at htarget hle hshift
  generalize quotientShift m k m' k' = i at htarget hshift
  have hkept : ((⟨4 * (m * 2 ^ i / m') + restBits (m * 2 ^ i % m') m', false, false⟩ :
      ExtendedMantissa) >>> (2 + ((E : Int) - 1074 - t).toNat)).roundedMantissa =
      roundDiv (m * 2 ^ (k + 1074)) (m' * 2 ^ k' * 2 ^ E) := by
    rw [roundedMantissa_shiftRight, nearest_restBits hm', Nat.mul_assoc, ← Nat.pow_add]
    exact roundDiv_congr (Nat.mul_pos hm' (Nat.two_pow_pos _)) (Nat.mul_pos hm' (Nat.two_pow_pos _))
      (mul_two_pow_comm m m' (by omega))
  have hfirst : shiftToTargetExponent Format.binary64 (m * 2 ^ i / m') t
      (accuracyOfFraction (m * 2 ^ i % m') m') =
      ((⟨4 * (m * 2 ^ i / m') + restBits (m * 2 ^ i % m') m', false, false⟩ : ExtendedMantissa) >>>
        (2 + ((E : Int) - 1074 - t).toNat), (E : Int) - 1074) := by
    have hexponent : t + (((E : Int) - 1074 - t).toNat : Int) = E - 1074 := by omega
    unfold shiftToTargetExponent shiftToExponent
    simp only [htarget, ofMantissaAndAccuracy_eq, shiftRight_add, hexponent]
  have hbound := roundDiv_excess_le (m * 2 ^ (k + 1074)) (m' * 2 ^ k')
  have hfull := le_roundDiv_excess (n := m * 2 ^ (k + 1074)) (d := m' * 2 ^ k')
  rw [hE] at hbound hfull
  rw [toNat_pack_kept (hkept.trans_le hbound) (fun h => (hfull h).trans_eq hkept.symm) hfirst, hkept]

theorem bits_div_eq (x y : Float) : bits (x / y) = (UnpackedFloat.pack Format.binary64
    (UnpackedFloat.div Format.binary64 x.toModel.unpack y.toModel.unpack)).toNat := rfl

namespace IsPositive
variable {x y z : Float}

/-- The quotient by a float that is neither zero nor infinite is rounded from the ratio of units. -/
theorem bits_div (hx : IsPositive x) (hy : IsPositive y) (hfinite : bits x < infinityBits)
    (hpos : 0 < bits y) (hfinite' : bits y < infinityBits) :
    bits (x / y) = roundedRatio (units (bits x) * 2 ^ 1074) (units (bits y)) := by
  have hshow := (shows x).positive hx
  have hshow' := (shows y).positive hy
  rw [bits_div_eq]
  generalize bits x = b at hshow hfinite
  generalize x.toModel.unpack = u at hshow
  generalize bits y = b' at hshow' hpos hfinite'
  generalize y.toModel.unpack = u' at hshow'
  cases hshow' with
  | infinity => exact absurd hfinite' (lt_irrefl _)
  | zero => exact absurd hpos (lt_irrefl _)
  | @finite m' k' hm' hc' hlt' =>
    cases hshow with
    | infinity => exact absurd hfinite (lt_irrefl _)
    | zero =>
      rw [units_zero, Nat.zero_mul, roundedRatio_zero]
      rfl
    | @finite m k hm hc hlt =>
      rw [toNat_pack_div hm hm' hc.lt hc'.lt, hc.units_eq, hc'.units_eq, Nat.mul_assoc, ← Nat.pow_add]

/-- Infinity stays what it is. -/
theorem bits_div_infinity (hx : bits x = infinityBits) (hy : IsPositive y) (hpos : 0 < bits y)
    (hfinite : bits y < infinityBits) : bits (x / y) = infinityBits := by
  have hshow := (shows x).positive hx.le
  have hshow' := (shows y).positive hy
  rw [bits_div_eq]
  generalize bits x = b at hshow hx
  generalize x.toModel.unpack = u at hshow
  generalize bits y = b' at hshow' hpos hfinite
  generalize y.toModel.unpack = u' at hshow'
  cases hshow' with
  | infinity => exact absurd hfinite (lt_irrefl _)
  | zero => exact absurd hpos (lt_irrefl _)
  | finite hm' hc' hlt' =>
    cases hshow with
    | infinity => exact ShowsPositive.infinity.toNat_pack
    | zero => cases hx
    | finite hm hc hlt => exact absurd hx hlt.ne

theorem div (hx : IsPositive x) (hy : IsPositive y) (hpos : 0 < bits y)
    (hfinite : bits y < infinityBits) : IsPositive (x / y) := by
  unfold IsPositive
  rcases Nat.lt_or_eq_of_le hx with hlt | heq
  · rw [hx.bits_div hy hlt hpos hfinite]
    exact Nat.min_le_left _ _
  · rw [bits_div_infinity heq hy hpos hfinite]

/-- A quotient does not fall when its numerator grows. -/
theorem bits_div_le_bits_div (hx : IsPositive x) (hy : IsPositive y) (hz : IsPositive z)
    (hpos : 0 < bits z) (hfinite : bits z < infinityBits) (h : bits x ≤ bits y) :
    bits (x / z) ≤ bits (y / z) := by
  rcases Nat.lt_or_eq_of_le hy with hlt | heq
  · rw [hx.bits_div hz (h.trans_lt hlt) hpos hfinite, hy.bits_div hz hlt hpos hfinite]
    exact roundedRatio_mono (Nat.mul_le_mul_right _ (units_mono h hy)) _
  · rw [bits_div_infinity heq hz hpos hfinite]
    exact hx.div hz hpos hfinite

theorem units_pos (hx : IsPositive x) (hpos : 0 < bits x) : 0 < units (bits x) := by
  by_contra h
  have hrounded := rounded_units hx
  rw [Nat.eq_zero_of_not_pos h, ← units_zero, rounded_units (Nat.zero_le _)] at hrounded
  omega

/-- The quotient by a float that is not less is at most one. -/
theorem bits_div_le_one (hx : IsPositive x) (hy : IsPositive y) (hpos : 0 < bits y)
    (hfinite : bits y < infinityBits) (h : bits x ≤ bits y) : bits (x / y) ≤ 1023 * 2 ^ 52 := by
  have hone : roundedRatio (units (bits y) * 2 ^ 1074) (units (bits y)) = 1023 * 2 ^ 52 := by
    have hsame : units (bits y) * 2 ^ 1074 * 1 = unitsOf 1 * units (bits y) := by
      unfold unitsOf
      rw [Nat.one_mul, Nat.mul_one, Nat.mul_comm]
    rw [roundedRatio_congr (hy.units_pos hpos) Nat.one_pos hsame, roundedRatio_one, rounded_unitsOf_one]
  rw [hx.bits_div hy (h.trans_lt hfinite) hpos hfinite, ← hone]
  exact roundedRatio_mono (Nat.mul_le_mul_right _ (units_mono h hy)) _

end IsPositive

/-- A share is not negative and at most one. -/
theorem share_le_one {a b : Nat} (hb : 0 < b) (hab : a ≤ b) (hlt : b < 2 ^ 64) :
    0 ≤ a.toFloat / b.toFloat ∧ a.toFloat / b.toFloat ≤ 1 := by
  have hzero : bits 0 = 0 := by decide +kernel
  have hone : bits 1 = 1023 * 2 ^ 52 := by decide +kernel
  have hzero' : IsPositive 0 := by
    unfold IsPositive
    rw [hzero]
    decide
  have hone' : IsPositive 1 := by
    unfold IsPositive
    rw [hone]
    decide
  have hbits := bits_toFloat hb hlt
  obtain ⟨hlow, hhigh⟩ := rounded_unitsOf_mem hb hlt
  have hle : bits a.toFloat ≤ bits b.toFloat := by
    rcases Nat.eq_zero_or_pos a with rfl | ha
    · exact hzero.le.trans (Nat.zero_le _)
    · rw [bits_toFloat ha (hab.trans_lt hlt), hbits]
      exact rounded_mono (unitsOf_mono hab)
  have hfinite : bits b.toFloat < infinityBits := by
    unfold infinityBits
    omega
  have hpositive : IsPositive b.toFloat := hfinite.le
  have hpositive' : IsPositive a.toFloat := hle.trans hpositive
  have hshare := hpositive'.bits_div_le_one hpositive (by omega) hfinite hle
  have hquotient := hpositive'.div hpositive (by omega) hfinite
  rw [hzero'.le_iff hquotient, hquotient.le_iff hone', hzero, hone]
  exact ⟨Nat.zero_le _, hshare⟩

end RoadRouting.Binary64
