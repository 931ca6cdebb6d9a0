import RoadRouting.Proofs.Float.Whole
import RoadRouting.Speed.Profile

/-!
# Speeds are plausible

Whatever text a road has for its class and its limit, and whatever speeds are to replace those of the
table, the speed on it is finite and not below one kilometre per hour (`kmh_isPlausible`). So the time
on a road is a number that is not negative (`zero_le_seconds`).
-/

namespace RoadRouting.Speed
set_option autoImplicit false
open Binary64

theorem table_isPlausible : ∀ e ∈ table, isPlausible e.2 := by decide +kernel

theorem fallback_isPlausible : isPlausible fallback := by decide +kernel

/-- A limit that can be read is plausible. -/
theorem ofLimit?_isPlausible {raw : String} {v : Float} (h : ofLimit? raw = some v) :
    isPlausible v := by
  unfold ofLimit? at h
  obtain ⟨x, -, h⟩ := Option.bind_eq_some_iff.1 h
  dsimp only at h
  split_ifs at h with hplausible
  cases h
  exact hplausible

/-- A usual speed is plausible. -/
theorem ofClass?_isPlausible {className : String} {v : Float} (h : ofClass? className = some v) :
    isPlausible v := by
  obtain ⟨before, after, htable, -⟩ := List.lookup_eq_some_iff.1 h
  exact table_isPlausible (className, v) (by rw [htable]; simp)

namespace Profile
variable (r : Replacements) (className : String) (limit : Option String)

/-- Only plausible speeds replace those of the table. -/
theorem replacement_isPlausible {v : Float}
    (h : (ofReplacements r).replacements[className]? = some v) : isPlausible v := by
  unfold ofReplacements at h
  rw [Std.TreeMap.getElem?_filter, Option.pfilter_eq_some_iff] at h
  exact h.2

/-- The speed on a road is plausible. -/
theorem kmh_isPlausible : isPlausible ((ofReplacements r).kmh className limit) := by
  unfold kmh
  cases hlimit : limit.bind ofLimit? with
  | some v =>
    obtain ⟨raw, -, hraw⟩ := Option.bind_eq_some_iff.1 hlimit
    exact ofLimit?_isPlausible hraw
  | none =>
    dsimp only
    cases hreplaced : (ofReplacements r).replacements[className]? with
    | some v => exact replacement_isPlausible r className hreplaced
    | none =>
      dsimp only
      cases hclass : ofClass? className with
      | some v => exact ofClass?_isPlausible hclass
      | none => exact fallback_isPlausible

end Profile

/-- The greatest finite float. -/
def greatest : Float := Float.ofBits 0x7FEFFFFFFFFFFFFF

theorem bits_greatest : bits greatest = infinityBits - 1 := by decide +kernel

/-- A plausible speed has no minus sign and lies between the slowest and the greatest float. -/
theorem bits_of_isPlausible {kmh : Float} (h : isPlausible kmh) :
    IsPositive kmh ∧ bits slowest ≤ bits kmh ∧ bits kmh < infinityBits := by
  obtain ⟨hfinite, hle⟩ := (Bool.and_eq_true _ _).mp h
  have hslowest : IsPositive slowest := by
    unfold IsPositive
    decide +kernel
  have hle : slowest ≤ kmh := of_decide_eq_true hle
  obtain ⟨-, hnumber, hsigned⟩ := le_iff.1 hle
  have hone : bits slowest = 1023 * 2 ^ 52 := by decide +kernel
  rw [hslowest.signed_eq, hone] at hsigned
  rcases isPositive_or_minusZero hnumber (by omega) with hkmh | hkmh
  · exact ⟨hkmh, (hslowest.le_iff hkmh).1 hle, hkmh.lt_of_isFinite hfinite⟩
  · rw [hkmh, show signed (2 ^ 63) = 0 from rfl] at hsigned
    omega

theorem bits_kmhPerMetreSecond :
    IsPositive 3.6 ∧ 0 < bits 3.6 ∧ bits 3.6 < infinityBits := by
  unfold IsPositive
  decide +kernel

/-- A plausible speed in metres per second is neither zero nor infinite. -/
theorem metresPerSecond_bits {kmh : Float} (h : isPlausible kmh) :
    IsPositive (kmh / 3.6) ∧ 0 < bits (kmh / 3.6) ∧ bits (kmh / 3.6) < infinityBits := by
  obtain ⟨hkmh, hslow, hfast⟩ := bits_of_isPlausible h
  obtain ⟨hunit, hpos, hfinite⟩ := bits_kmhPerMetreSecond
  have hslowest : IsPositive slowest := hslow.trans hfast.le
  have hgreatest : IsPositive greatest := bits_greatest.trans_le (Nat.sub_le _ _)
  refine ⟨hkmh.div hunit hpos hfinite, ?_, ?_⟩
  · calc 0 < bits (slowest / 3.6) := by decide +kernel
      _ ≤ bits (kmh / 3.6) := hslowest.bits_div_le_bits_div hkmh hunit hpos hfinite hslow
  · calc bits (kmh / 3.6)
        ≤ bits (greatest / 3.6) := by
          refine hkmh.bits_div_le_bits_div hgreatest hunit hpos hfinite ?_
          rw [bits_greatest]
          exact Nat.le_sub_one_of_lt hfast
      _ < infinityBits := by decide +kernel

/-- The time on a road whose length is not negative is a number that is not negative. -/
theorem Profile.zero_le_seconds (r : Replacements) {metres : Float} (h : 0 ≤ metres)
    (className : String) (limit : Option String) :
    0 ≤ (Profile.ofReplacements r).seconds metres className limit := by
  obtain ⟨hpositive, hpos, hfinite⟩ := metresPerSecond_bits (kmh_isPlausible r className limit)
  exact zero_le_div hpositive hpos hfinite h

end RoadRouting.Speed
