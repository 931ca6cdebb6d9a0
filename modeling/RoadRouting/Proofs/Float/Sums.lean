import RoadRouting.Proofs.Float.Bits

/-!
# Sums of floats

The sum of two floats without a minus sign has the bits of the sum of their units, rounded.
-/

namespace RoadRouting.Binary64
set_option autoImplicit false
open Float.Model (Format UnpackedFloat totalExponent)
open Float.Model.UnpackedFloat

/-! ## Dropping bits -/

/-- What is left of a number without its last bits, and what is still known of these: whether they are
at least half of what was next to them, and whether they are neither nothing nor that half. -/
theorem shiftRight_eq (m k : Nat) : (⟨m, false, false⟩ : ExtendedMantissa) >>> k =
    ⟨m / 2 ^ k, decide (2 ^ k ≤ 2 * (m % 2 ^ k)), decide (2 * (m % 2 ^ k) % 2 ^ k ≠ 0)⟩ := by
  induction k with
  | zero =>
    have hzero : (⟨m, false, false⟩ : ExtendedMantissa) >>> 0 = ⟨m, false, false⟩ := rfl
    simp [hzero, Nat.mod_one]
  | succ k ih =>
    have hstep : (⟨m, false, false⟩ : ExtendedMantissa) >>> (k + 1) =
        ((⟨m, false, false⟩ : ExtendedMantissa) >>> k).shiftRightOne := rfl
    have hdiv : m / 2 ^ (k + 1) = m / 2 ^ k / 2 := by
      rw [Nat.pow_succ, Nat.div_div_eq_div_mul]
    have hmod : m % 2 ^ (k + 1) = m % 2 ^ k + 2 ^ k * (m / 2 ^ k % 2) := Nat.mod_pow_succ
    have hdouble : 2 * (m % 2 ^ (k + 1)) % 2 ^ (k + 1) = 2 * (m % 2 ^ k) := by
      rw [hmod, Nat.pow_succ, Nat.mul_comm (2 ^ k) 2, Nat.mul_mod_mul_left, Nat.add_mul_mod_self_left,
        Nat.mod_mod]
    have hlt : m % 2 ^ k < 2 ^ k := Nat.mod_lt _ (Nat.two_pow_pos k)
    rw [hstep, ih, hdiv, hdouble, hmod]
    simp only [ExtendedMantissa.shiftRightOne, ExtendedMantissa.mk.injEq, true_and]
    constructor
    · rcases Nat.mod_two_eq_zero_or_one (m / 2 ^ k) with h | h
      · rw [h, Nat.pow_succ, Nat.mul_zero, Nat.add_zero, decide_eq_false (by omega)]
        rfl
      · rw [h, Nat.pow_succ, Nat.mul_one, decide_eq_true (by omega)]
        rfl
    · rw [← Bool.decide_or, decide_eq_decide]
      by_cases hhalf : 2 ^ k ≤ 2 * (m % 2 ^ k)
      · have hpos := Nat.two_pow_pos k
        exact iff_of_true (.inl hhalf) (by omega)
      · have hsmall : 2 * (m % 2 ^ k) % 2 ^ k = 2 * (m % 2 ^ k) := Nat.mod_eq_of_lt (by omega)
        rw [hsmall]
        exact or_iff_right hhalf

theorem roundedMantissa_shiftRight (m k : Nat) :
    ((⟨m, false, false⟩ : ExtendedMantissa) >>> k).roundedMantissa = nearest m k := by
  have hlt : m % 2 ^ k < 2 ^ k := Nat.mod_lt _ (Nat.two_pow_pos k)
  rw [shiftRight_eq]
  unfold nearest
  by_cases hbelow : 2 * (m % 2 ^ k) < 2 ^ k
  · rw [if_pos hbelow, decide_eq_false (by omega)]
    cases decide (2 * (m % 2 ^ k) % 2 ^ k ≠ 0) <;> rfl
  · rw [if_neg hbelow, decide_eq_true (by omega)]
    by_cases hhalf : 2 * (m % 2 ^ k) = 2 ^ k
    · rw [if_pos hhalf, decide_eq_false (by rw [hhalf, Nat.mod_self]; exact not_not_intro rfl)]
      rfl
    · have hrest : 2 * (m % 2 ^ k) % 2 ^ k = 2 * (m % 2 ^ k) - 2 ^ k := by
        rw [Nat.mod_eq_sub_mod (by omega), Nat.mod_eq_of_lt (by omega)]
      rw [if_neg hhalf, hrest, decide_eq_true (by omega)]
      rfl

/-! ## Rounding -/

/-- The exponent to which a number of units is rounded. -/
theorem targetExponent_eq {m : Nat} (hm : 0 < m) (j : Nat) :
    Format.binary64.targetExponent (totalExponent m (j - 1074)) = (excess (m * 2 ^ j) : Int) - 1074 := by
  have hpos : m * 2 ^ j ≠ 0 := Nat.mul_ne_zero hm.ne' (Nat.two_pow_pos j).ne'
  have hlog : (m * 2 ^ j).log2 = m.log2 + j := by
    rw [Nat.log2_eq_iff hpos, Nat.pow_add, Nat.add_right_comm, Nat.pow_add]
    exact ⟨Nat.mul_le_mul_right _ (Nat.log2_self_le hm.ne'),
      Nat.mul_lt_mul_of_pos_right Nat.lt_log2_self (Nat.two_pow_pos j)⟩
  have hbits : Format.binary64.mantissaBits = 53 := by decide
  have hleast : Format.binary64.minExponent = -1074 := by decide
  unfold Format.targetExponent totalExponent excess
  rw [hlog, hbits, hleast]
  omega

theorem shiftToTargetExponent_eq {m : Nat} (hm : 0 < m) (j : Nat) :
    shiftToTargetExponent Format.binary64 m (j - 1074) .exact =
      ((⟨m, false, false⟩ : ExtendedMantissa) >>> (excess (m * 2 ^ j) - j),
        ((max j (excess (m * 2 ^ j)) : Nat) : Int) - 1074) := by
  have hamount : ((excess (m * 2 ^ j) : Int) - 1074 - (j - 1074)).toNat = excess (m * 2 ^ j) - j := by
    omega
  unfold shiftToTargetExponent shiftToExponent
  simp only [targetExponent_eq hm j, hamount, ExtendedMantissa.ofMantissaAndAccuracy, Prod.mk.injEq,
    true_and]
  omega

/-- A number that has been rounded keeps its form, or has one bit less when it was carried over. -/
theorem shift_canonical {r k : Nat} (hr : 0 < r) (hc : Canonical r k) :
    shiftToTargetExponent Format.binary64 r (k - 1074) .exact = (⟨r, false, false⟩, (k : Int) - 1074) := by
  have hsame : (⟨r, false, false⟩ : ExtendedMantissa) >>> 0 = ⟨r, false, false⟩ := rfl
  rw [shiftToTargetExponent_eq hr, hc.excess_eq, Nat.sub_self, Nat.max_self, hsame]

theorem canonical_carried (k : Nat) : Canonical (2 ^ 52) (k + 1) := ⟨by decide, fun _ => le_refl _⟩

theorem shift_carried (k : Nat) :
    shiftToTargetExponent Format.binary64 (2 ^ 53) (k - 1074) .exact =
      (⟨2 ^ 52, false, false⟩, ((k + 1 : Nat) : Int) - 1074) := by
  have hunits : 2 ^ 53 * 2 ^ k = 2 ^ 52 * 2 ^ (k + 1) := by
    rw [← Nat.pow_add, ← Nat.pow_add]
    congr 1
    omega
  have hhalf : (⟨2 ^ 53, false, false⟩ : ExtendedMantissa) >>> 1 = ⟨2 ^ 52, false, false⟩ := rfl
  rw [shiftToTargetExponent_eq (by decide), hunits, (canonical_carried k).excess_eq,
    Nat.add_sub_cancel_left, Nat.max_eq_right (by omega), hhalf]

/-- What two shifts leave is packed. -/
theorem toNat_pack_shifted {m r k : Nat} {e e' : Int} {a : Accuracy} {x : ExtendedMantissa}
    (hr : 0 < r) (hc : Canonical r k)
    (hfirst : shiftToTargetExponent Format.binary64 m e a = (x, e'))
    (hsecond : shiftToTargetExponent Format.binary64 x.roundedMantissa e' .exact =
      (⟨r, false, false⟩, (k : Int) - 1074)) :
    (UnpackedFloat.pack Format.binary64
      (roundWithAccuracy Format.binary64 .positive m e a)).toNat = min infinityBits (k * 2 ^ 52 + r) := by
  unfold roundWithAccuracy
  rw [hfirst]
  dsimp only
  rw [hsecond]
  dsimp only
  rw [dif_neg hr.ne', toNat_pack_finite .positive hr hc]
  exact Nat.zero_add _

/-- What the first shift keeps is packed, carried over if it has a bit too many. -/
theorem toNat_pack_kept {m k : Nat} {e : Int} {a : Accuracy} {x : ExtendedMantissa}
    (hle : x.roundedMantissa ≤ 2 ^ 53) (hfull : k ≠ 0 → 2 ^ 52 ≤ x.roundedMantissa)
    (hfirst : shiftToTargetExponent Format.binary64 m e a = (x, (k : Int) - 1074)) :
    (UnpackedFloat.pack Format.binary64 (roundWithAccuracy Format.binary64 .positive m e a)).toNat =
      min infinityBits (k * 2 ^ 52 + x.roundedMantissa) := by
  rcases Nat.eq_zero_or_pos x.roundedMantissa with hzero | hpos
  · obtain rfl : k = 0 := by
      by_contra hk
      have h := hfull hk
      omega
    unfold roundWithAccuracy
    rw [hfirst]
    dsimp only
    rw [hzero]
    rfl
  rcases Nat.lt_or_eq_of_le hle with hlt | heq
  · exact toNat_pack_shifted hpos ⟨hlt, hfull⟩ hfirst (shift_canonical hpos ⟨hlt, hfull⟩)
  · have hsum : k * 2 ^ 52 + 2 ^ 53 = (k + 1) * 2 ^ 52 + 2 ^ 52 := by omega
    rw [heq, hsum]
    refine toNat_pack_shifted (by decide) (canonical_carried k) hfirst ?_
    rw [heq]
    exact shift_carried k

/-- A number with bits to drop is rounded as `rounded` does. -/
theorem toNat_pack_roundWithAccuracy {m j : Nat} (hm : 0 < m) (hj : j ≤ excess (m * 2 ^ j)) :
    (UnpackedFloat.pack Format.binary64
      (roundWithAccuracy Format.binary64 .positive m (j - 1074) .exact)).toNat = rounded (m * 2 ^ j) := by
  have hnearest : nearest m (excess (m * 2 ^ j) - j) = nearest (m * 2 ^ j) (excess (m * 2 ^ j)) := by
    have h := nearest_mul m (excess (m * 2 ^ j) - j) j
    rw [Nat.sub_add_cancel hj] at h
    exact h.symm
  have hfirst := shiftToTargetExponent_eq hm j
  have hkept := roundedMantissa_shiftRight m (excess (m * 2 ^ j) - j)
  rw [max_eq_right hj] at hfirst
  rw [hnearest] at hkept
  rw [toNat_pack_kept (hkept.trans_le (nearest_excess_le _))
    (fun h => (le_nearest_excess h).trans_eq hkept.symm) hfirst, hkept, rounded]

/-- A number of units is rounded as `rounded` does, whether it has bits to drop or to spare. -/
theorem toNat_pack_round {m : Nat} (hm : 0 < m) (j : Nat) :
    (UnpackedFloat.pack Format.binary64
      (UnpackedFloat.round Format.binary64 .positive m (j - 1074))).toNat = rounded (m * 2 ^ j) := by
  unfold UnpackedFloat.round decreaseExponent
  simp only [targetExponent_eq hm j]
  rcases Nat.le_total j (excess (m * 2 ^ j)) with hj | hj
  · have hamount : ((j : Int) - 1074 - ((excess (m * 2 ^ j) : Int) - 1074)).toNat = 0 := by omega
    rw [hamount, Nat.shiftLeft_zero, Int.natCast_zero, Int.sub_zero]
    exact toNat_pack_roundWithAccuracy hm hj
  · have hamount : ((j : Int) - 1074 - ((excess (m * 2 ^ j) : Int) - 1074)).toNat =
        j - excess (m * 2 ^ j) := by omega
    have hunits : m * 2 ^ (j - excess (m * 2 ^ j)) * 2 ^ excess (m * 2 ^ j) = m * 2 ^ j := by
      rw [Nat.mul_assoc, ← Nat.pow_add, Nat.sub_add_cancel hj]
    have hexponent : (j : Int) - 1074 - (j - excess (m * 2 ^ j) : Nat) = excess (m * 2 ^ j) - 1074 := by
      omega
    rw [hamount, Nat.shiftLeft_eq, hexponent]
    have h := toNat_pack_roundWithAccuracy (j := excess (m * 2 ^ j))
      (Nat.mul_pos hm (Nat.two_pow_pos (j - excess (m * 2 ^ j)))) (by rw [hunits])
    rwa [hunits] at h

/-! ## Sums -/

/-- A float without a minus sign, as unpacked from its bits. -/
inductive ShowsPositive : Nat → UnpackedFloat → Prop
  | infinity : ShowsPositive infinityBits (.infinity .positive)
  | zero : ShowsPositive 0 (.zero .positive)
  | finite {m k : Nat} (hm : 0 < m) : Canonical m k → k * 2 ^ 52 + m < infinityBits →
      ShowsPositive (k * 2 ^ 52 + m) (.finite .positive m (k - 1074) hm)

theorem Shows.positive {n : Nat} {u : UnpackedFloat} (h : Shows n u) (hn : n ≤ infinityBits) :
    ShowsPositive n u := by
  have hplus (v : Nat) : signBit .positive + v = v := Nat.zero_add v
  have hminus (v : Nat) : ¬ signBit .negative + v ≤ infinityBits := by
    have hbit : signBit .negative = 2 ^ 63 := rfl
    unfold infinityBits
    omega
  cases h with
  | notANumber => exact absurd hn (by decide)
  | infinity s =>
    cases s with
    | negative => exact absurd hn (hminus _)
    | positive =>
      rw [hplus]
      exact .infinity
  | zero s =>
    cases s with
    | negative => exact absurd hn (hminus 0)
    | positive => exact .zero
  | finite s hm hc hlt =>
    cases s with
    | negative => exact absurd hn (hminus _)
    | positive =>
      rw [hplus]
      exact .finite hm hc hlt

theorem ShowsPositive.toNat_pack {n : Nat} {u : UnpackedFloat} (h : ShowsPositive n u) :
    (UnpackedFloat.pack Format.binary64 u).toNat = n := by
  cases h with
  | infinity => decide
  | zero => decide
  | finite hm hc hlt =>
    rw [toNat_pack_finite _ hm hc, Nat.min_eq_right hlt.le]
    exact Nat.zero_add _

theorem units_zero : units 0 = 0 := by decide

/-- Nothing added to infinity matters. -/
theorem rounded_infinity_add (n : Nat) : rounded (units infinityBits + n) = infinityBits := by
  have hle := rounded_mono (Nat.le_add_right (units infinityBits) n)
  rw [rounded_units (le_refl _)] at hle
  exact Nat.le_antisymm (Nat.min_le_left _ _) hle

/-- Two finite floats are added in units of the smaller exponent. -/
theorem add_finite {m m' : Nat} (hm : 0 < m) (hm' : 0 < m') (k k' : Nat) :
    UnpackedFloat.add Format.binary64 (.finite .positive m (k - 1074) hm)
        (.finite .positive m' (k' - 1074) hm') =
      UnpackedFloat.round Format.binary64 .positive (m * 2 ^ (k - min k k') + m' * 2 ^ (k' - min k k'))
        ((min k k' : Nat) - 1074) := by
  have hmin : min ((k : Int) - 1074) (k' - 1074) = (min k k' : Nat) - 1074 := by omega
  have hk : ((k : Int) - 1074 - ((min k k' : Nat) - 1074)).toNat = k - min k k' := by omega
  have hk' : ((k' : Int) - 1074 - ((min k k' : Nat) - 1074)).toNat = k' - min k k' := by omega
  have hpos : 0 < m * 2 ^ (k - min k k') := Nat.mul_pos hm (Nat.two_pow_pos _)
  unfold UnpackedFloat.add decreaseExponent UnpackedFloat.normalize
  simp only [hmin, hk, hk', Nat.shiftLeft_eq, Sign.apply]
  rw [Int.compare_eq_gt.2 (by omega), ← Int.natCast_add, Int.toNat_natCast]

theorem ShowsPositive.le {n : Nat} {u : UnpackedFloat} (h : ShowsPositive n u) : n ≤ infinityBits := by
  cases h with
  | infinity => exact le_refl _
  | zero => exact Nat.zero_le _
  | finite hm hc hlt => exact hlt.le

theorem ShowsPositive.toNat_pack_add {n n' : Nat} {u u' : UnpackedFloat} (h : ShowsPositive n u)
    (h' : ShowsPositive n' u') :
    (UnpackedFloat.pack Format.binary64 (UnpackedFloat.add Format.binary64 u u')).toNat =
      rounded (units n + units n') := by
  have hpack := h.toNat_pack
  have hle := h.le
  cases h with
  | infinity =>
    have hadd : UnpackedFloat.add Format.binary64 (.infinity .positive) u' = .infinity .positive := by
      cases h' <;> rfl
    rw [hadd, hpack, rounded_infinity_add]
  | zero =>
    have hadd : UnpackedFloat.add Format.binary64 (.zero .positive) u' = u' := by
      cases h' <;> rfl
    rw [hadd, h'.toNat_pack, units_zero, Nat.zero_add, rounded_units h'.le]
  | @finite m k hm hc hlt =>
    cases h' with
    | infinity =>
      rw [Nat.add_comm, rounded_infinity_add]
      exact ShowsPositive.infinity.toNat_pack
    | zero =>
      rw [units_zero, Nat.add_zero, rounded_units hle]
      exact hpack
    | @finite m' k' hm' hc' hlt' =>
      have hunits (i j : Nat) (hij : j ≤ i) (r : Nat) : r * 2 ^ (i - j) * 2 ^ j = r * 2 ^ i := by
        rw [Nat.mul_assoc, ← Nat.pow_add, Nat.sub_add_cancel hij]
      have hpos : 0 < m * 2 ^ (k - min k k') + m' * 2 ^ (k' - min k k') :=
        Nat.add_pos_left (Nat.mul_pos hm (Nat.two_pow_pos _)) _
      rw [add_finite, toNat_pack_round hpos, hc.units_eq, hc'.units_eq, Nat.add_mul,
        hunits k _ (Nat.min_le_left k k'), hunits k' _ (Nat.min_le_right k k')]

/-- A float without a minus sign. -/
def IsPositive (x : Float) : Prop := bits x ≤ infinityBits

namespace IsPositive
variable {x y : Float}

theorem isNaN (hx : IsPositive x) : x.isNaN = false := by
  by_contra h
  have hbits := bits_of_isNaN (Bool.eq_true_of_not_eq_false h)
  unfold IsPositive at hx
  omega

theorem signed_eq (hx : IsPositive x) : signed (bits x) = bits x := by
  unfold IsPositive infinityBits at hx
  exact if_pos (by omega)

theorem lt_iff (hx : IsPositive x) (hy : IsPositive y) : x < y ↔ bits x < bits y := by
  rw [Binary64.lt_iff, hx.isNaN, hy.isNaN, hx.signed_eq, hy.signed_eq]
  simp

theorem le_iff (hx : IsPositive x) (hy : IsPositive y) : x ≤ y ↔ bits x ≤ bits y := by
  rw [Binary64.le_iff, hx.isNaN, hy.isNaN, hx.signed_eq, hy.signed_eq]
  simp

/-- The sum of two floats without a minus sign is the rounded sum of their units. -/
theorem bits_add (hx : IsPositive x) (hy : IsPositive y) :
    bits (x + y) = rounded (units (bits x) + units (bits y)) :=
  ((shows x).positive hx).toNat_pack_add ((shows y).positive hy)

theorem add (hx : IsPositive x) (hy : IsPositive y) : IsPositive (x + y) := by
  unfold IsPositive
  rw [hx.bits_add hy]
  exact Nat.min_le_left _ _

theorem le_bits_add (hx : IsPositive x) (hy : IsPositive y) : bits x ≤ bits (x + y) := by
  have h := rounded_mono (Nat.le_add_right (units (bits x)) (units (bits y)))
  rwa [rounded_units hx, ← hx.bits_add hy] at h

theorem bits_add_le_bits_add {z : Float} (hx : IsPositive x) (hy : IsPositive y) (hz : IsPositive z)
    (h : bits x ≤ bits y) : bits (x + z) ≤ bits (y + z) := by
  rw [hx.bits_add hz, hy.bits_add hz]
  exact rounded_mono (Nat.add_le_add_right (units_mono h hy) _)

/-- A minus sign makes no difference to a zero that is added. -/
theorem add_minusZero (hx : IsPositive x) (hy : bits y = 2 ^ 63) : x + y = x := by
  obtain rfl : y = -0.0 := bits_injective (hy.trans (by decide +kernel))
  have hshow := (shows x).positive hx
  have hzero : (-0.0 : Float).toModel.unpack = .zero .negative := by rfl
  have hsum {n : Nat} {u : UnpackedFloat} (h : ShowsPositive n u) :
      UnpackedFloat.add Format.binary64 u (.zero .negative) = u := by
    cases h <;> rfl
  have hadd : bits (x + -0.0) = (UnpackedFloat.pack Format.binary64
      (UnpackedFloat.add Format.binary64 x.toModel.unpack (-0.0 : Float).toModel.unpack)).toNat := rfl
  rw [hzero, hsum hshow, hshow.toNat_pack] at hadd
  exact bits_injective hadd

end IsPositive

/-- A float that is a number and not negative has no minus sign, unless it is a zero. -/
theorem isPositive_or_minusZero {x : Float} (hx : x.isNaN = false) (h : 0 ≤ signed (bits x)) :
    IsPositive x ∨ bits x = 2 ^ 63 := by
  have hshow := shows x
  have hn : x.toModel.unpack.isNaN = false := hx
  unfold IsPositive
  generalize bits x = n at hshow h
  generalize x.toModel.unpack = u at hshow hn
  cases hshow with
  | notANumber => cases hn
  | infinity s =>
    rw [signed_signBit s (le_refl _)] at h
    cases s with
    | positive => exact .inl (by decide)
    | negative => exact absurd h (by decide)
  | zero s =>
    cases s with
    | positive => exact .inl (by decide)
    | negative => exact .inr rfl
  | finite s hm hc hlt =>
    rw [signed_signBit s hlt.le] at h
    cases s with
    | positive =>
      refine .inl ?_
      have hbit : signBit .positive = 0 := rfl
      omega
    | negative =>
      simp only [Sign.apply] at h
      omega

/-- What is above a float without a minus sign has none. -/
theorem IsPositive.of_lt {x y : Float} (hx : IsPositive x) (h : x < y) : IsPositive y := by
  obtain ⟨-, hnum, hlt⟩ := Binary64.lt_iff.1 h
  rw [hx.signed_eq] at hlt
  rcases isPositive_or_minusZero hnum (by omega) with hy | hy
  · exact hy
  · rw [hy, show signed (2 ^ 63) = 0 from rfl] at hlt
    omega

end RoadRouting.Binary64
