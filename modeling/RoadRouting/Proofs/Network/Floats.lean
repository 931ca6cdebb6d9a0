import RoadRouting.Proofs.Float.Sums
import RoadRouting.Proofs.Network.Costs

/-!
# Floats as costs

The floats obey the laws of costs: sums of weights have no minus sign and are ordered by their bits,
and rounding keeps the order. They are not exact, since a sum of finite floats may be infinite.
-/

namespace RoadRouting.Network
set_option autoImplicit false
open Binary64 (IsPositive bits signed)
open Cost (IsWeight IsSum)

theorem bits_zero : bits Zero.zero = 0 := by decide +kernel

theorem bits_infinite : bits Cost.infinite = Binary64.infinityBits := by decide +kernel

theorem isPositive_zero : IsPositive Zero.zero := by
  unfold IsPositive
  rw [bits_zero]
  exact Nat.zero_le _

theorem isPositive_infinite : IsPositive Cost.infinite := bits_infinite.le

/-- A weight has no minus sign, unless it is a zero. -/
theorem Cost.IsWeight.isPositive_or {w : Float} (hw : IsWeight w) : IsPositive w ∨ bits w = 2 ^ 63 := by
  obtain ⟨hneg, hbound⟩ := hw
  have hnum : w.isNaN = false := by
    rcases hbound with h | rfl
    · exact (Binary64.lt_iff.1 h).1
    · exact isPositive_infinite.isNaN
  refine Binary64.isPositive_or_minusZero hnum ?_
  by_contra h
  have hlt : signed (bits w) < signed (bits Zero.zero) := by
    rw [isPositive_zero.signed_eq, bits_zero]
    omega
  exact hneg (Binary64.lt_iff.2 ⟨hnum, isPositive_zero.isNaN, hlt⟩)

/-- What is not negative is a weight. -/
theorem Cost.isWeight_of_zero_le {w : Float} (h : 0 ≤ w) : IsWeight w := by
  have hbits : bits 0 = 0 := by decide +kernel
  obtain ⟨-, hnumber, hsigned⟩ := Binary64.le_iff.1 h
  rw [hbits] at hsigned
  refine ⟨fun hlt => ?_, ?_⟩
  · have hlt : signed (bits w) < signed (bits Zero.zero) := (Binary64.lt_iff.1 hlt).2.2
    rw [bits_zero] at hlt
    exact absurd hsigned (not_le.2 hlt)
  · rcases Binary64.isPositive_or_minusZero hnumber hsigned with hw | hw
    · rcases Nat.lt_or_eq_of_le hw with hlt | heq
      · exact .inl ((hw.lt_iff isPositive_infinite).2 (hlt.trans_eq bits_infinite.symm))
      · exact .inr (Binary64.bits_injective (heq.trans bits_infinite.symm))
    · left
      rw [Binary64.lt_iff, isPositive_infinite.signed_eq, bits_infinite, hw]
      exact ⟨hnumber, isPositive_infinite.isNaN, by decide⟩

theorem Cost.IsSum.isPositive {a : Float} (ha : IsSum a) : IsPositive a := by
  induction ha with
  | zero => exact isPositive_zero
  | infinite => exact isPositive_infinite
  | add _ hw ih =>
    rcases hw.isPositive_or with hw | hw
    · exact ih.add hw
    · rwa [ih.add_minusZero hw]

theorem toNat_floatKey {x : Float} (hx : x.isNaN = false) :
    (floatKey x).toNat = if bits x < 2 ^ 63 then bits x + 2 ^ 63 else 2 ^ 64 - 1 - bits x := by
  have htop : (0x8000000000000000 : UInt64).toNat = 2 ^ 63 := rfl
  unfold floatKey bits
  simp only [hx, Bool.false_eq_true, if_false, UInt64.lt_iff_toNat_lt, htop]
  split
  · rw [UInt64.toNat_add, htop]
    omega
  · exact UInt64.toNat_not x.toBits

/-- The frontier orders floats as comparison does. -/
theorem floatRank_of_lt {x y : Float} (h : x < y) : floatRank x y = .lt := by
  obtain ⟨hx, hy, hlt⟩ := Binary64.lt_iff.1 h
  have hxb : bits x < 2 ^ 64 := x.toBits.toNat_lt
  have hyb : bits y < 2 ^ 64 := y.toBits.toNat_lt
  have hkey : (floatKey x).toNat < (floatKey y).toNat := by
    rw [toNat_floatKey hx, toNat_floatKey hy]
    unfold signed at hlt
    split_ifs at hlt ⊢ <;> omega
  exact Std.compare_eq_lt.2 (UInt64.lt_iff_toNat_lt.2 hkey)

instance : Std.TransCmp floatRank := inferInstanceAs (Std.TransCmp (compareOn floatKey))

/-- No two floats have the same place in this order. -/
theorem floatKey_injective {x y : Float} (h : floatKey x = floatKey y) : x = y := by
  have hkey : (floatKey x).toNat = (floatKey y).toNat := congrArg UInt64.toNat h
  have hnone {z : Float} (hz : z.isNaN = true) : (floatKey z).toNat = 0 := by
    unfold floatKey
    rw [if_pos hz]
    rfl
  have hsome {z : Float} (hz : z.isNaN = false) : 0 < (floatKey z).toNat := by
    have hbound := Binary64.bits_le_of_number hz
    rw [toNat_floatKey hz]
    unfold Binary64.infinityBits at hbound
    split <;> omega
  cases hx : x.isNaN with
  | true =>
    cases hy : y.isNaN with
    | true => exact Binary64.bits_injective ((Binary64.bits_of_isNaN hx).trans (Binary64.bits_of_isNaN hy).symm)
    | false =>
      have hpos := hsome hy
      rw [← hkey, hnone hx] at hpos
      omega
  | false =>
    cases hy : y.isNaN with
    | true =>
      have hpos := hsome hx
      rw [hkey, hnone hy] at hpos
      omega
    | false =>
      have hxb : bits x < 2 ^ 64 := x.toBits.toNat_lt
      have hyb : bits y < 2 ^ 64 := y.toBits.toNat_lt
      rw [toNat_floatKey hx, toNat_floatKey hy] at hkey
      refine Binary64.bits_injective ?_
      split_ifs at hkey <;> omega

/-- Numbers in this order are in the order of comparison. -/
theorem le_of_floatRank {x y : Float} (hx : x.isNaN = false) (hy : y.isNaN = false)
    (h : (floatRank x y).isLE) : x ≤ y := by
  rcases Binary64.float_le_or_lt hx hy with hle | hlt
  · exact hle
  · have hgt : floatRank x y = .gt := Std.OrientedCmp.gt_of_lt (floatRank_of_lt hlt)
    rw [hgt] at h
    cases h

instance : LawfulCost Float where
  lt_irrefl a h := lt_irrefl _ (Binary64.lt_iff.1 h).2.2
  lt_trans h h' := by
    obtain ⟨ha, -, hab⟩ := Binary64.lt_iff.1 h
    obtain ⟨-, hc, hbc⟩ := Binary64.lt_iff.1 h'
    exact Binary64.lt_iff.2 ⟨ha, hc, lt_trans hab hbc⟩
  trichotomy {a b} ha hb := by
    rw [ha.isPositive.lt_iff hb.isPositive, hb.isPositive.lt_iff ha.isPositive]
    rcases Nat.lt_trichotomy (bits a) (bits b) with h | h | h
    · exact .inl h
    · exact .inr (.inl (Binary64.bits_injective h))
    · exact .inr (.inr h)
  zero_lt_infinite := by decide +kernel
  not_infinite_lt {a} ha h := by
    have hle : bits a ≤ Binary64.infinityBits := ha.isPositive
    have hlt := (isPositive_infinite.lt_iff ha.isPositive).1 h
    rw [bits_infinite] at hlt
    omega
  add_zero {a} ha := by
    have hzero := ha.isPositive.bits_add isPositive_zero
    rw [bits_zero, Binary64.units_zero, Nat.add_zero, Binary64.rounded_units ha.isPositive] at hzero
    exact Binary64.bits_injective hzero
  not_add_lt {a w} ha hw h := by
    rcases hw.isPositive_or with hpos | hminus
    · have hlt := ((ha.isPositive.add hpos).lt_iff ha.isPositive).1 h
      exact absurd (ha.isPositive.le_bits_add hpos) (not_le_of_gt hlt)
    · rw [ha.isPositive.add_minusZero hminus] at h
      exact lt_irrefl _ (Binary64.lt_iff.1 h).2.2
  not_add_lt_add {a b w} ha hb hw hab h := by
    have hle := ((ha.isPositive.lt_iff hb.isPositive).1 hab).le
    rcases hw.isPositive_or with hpos | hminus
    · have hlt := ((hb.isPositive.add hpos).lt_iff (ha.isPositive.add hpos)).1 h
      exact absurd (ha.isPositive.bits_add_le_bits_add hb.isPositive hpos hle) (not_le_of_gt hlt)
    · rw [ha.isPositive.add_minusZero hminus, hb.isPositive.add_minusZero hminus,
        hb.isPositive.lt_iff ha.isPositive] at h
      omega
  rank_trans := inferInstanceAs (Std.TransCmp floatRank)
  rank_of_lt := floatRank_of_lt

end RoadRouting.Network
