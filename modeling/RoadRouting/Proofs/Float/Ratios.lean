import RoadRouting.Proofs.Float.Rounding

/-!
# Ratios rounded to 53 bits

`roundedRatio` gives the bits of the float nearest to a ratio of numbers of units. It depends on the
ratio alone, keeps the order of numerators, and is found from the whole part of a quotient with two
more bits that tell what is left (`nearest_restBits`).
-/

namespace RoadRouting.Binary64
set_option autoImplicit false
open Decimal (roundDiv)

variable {n m d : Nat}

/-- What is left of a division as two bits: nothing, less than half, half, or more than half. -/
def restBits (r d : Nat) : Nat :=
  if r = 0 then 0 else if 2 * r < d then 1 else if 2 * r = d then 2 else 3

theorem restBits_le (r d : Nat) : restBits r d ≤ 3 := by
  unfold restBits
  split_ifs <;> omega

/-- The two bits tell on which side of a half a rest is. -/
theorem restBits_half {r : Nat} (hr : r < d) (u p : Nat) :
    (2 * (restBits r d + 4 * u) < 4 * p ↔ 2 * (r + d * u) < d * p) ∧
      (4 * p < 2 * (restBits r d + 4 * u) ↔ d * p < 2 * (r + d * u)) := by
  have hdouble : d * (2 * u) = 2 * (d * u) := Nat.mul_left_comm d 2 u
  have hsides : 2 * u + 2 ≤ p ∨ p = 2 * u + 1 ∨ p = 2 * u ∨ p + 1 ≤ 2 * u := by omega
  unfold restBits
  rcases hsides with hp | rfl | rfl | hp
  · have hbound := Nat.mul_le_mul_left d hp
    rw [Nat.mul_add, hdouble] at hbound
    split_ifs <;> omega
  · have hodd : d * (2 * u + 1) = 2 * (d * u) + d := by rw [Nat.mul_add, hdouble, Nat.mul_one]
    rw [hodd]
    split_ifs <;> omega
  · rw [hdouble]
    split_ifs <;> omega
  · have hbound := Nat.mul_le_mul_left d hp
    rw [Nat.mul_add, hdouble, Nat.mul_one] at hbound
    split_ifs <;> omega

/-- A quotient that is followed by these bits is rounded as the ratio is. -/
theorem nearest_restBits (hd : 0 < d) (a s : Nat) :
    nearest (4 * (a / d) + restBits (a % d) d) (2 + s) = roundDiv a (d * 2 ^ s) := by
  have hrest := restBits_le (a % d) d
  have hpow : 2 ^ (2 + s) = 4 * 2 ^ s := Nat.pow_add 2 2 s
  have hkept : (4 * (a / d) + restBits (a % d) d) / 4 = a / d := by omega
  have hlast : (4 * (a / d) + restBits (a % d) d) % 4 = restBits (a % d) d := by omega
  have hdiv : (4 * (a / d) + restBits (a % d) d) / (4 * 2 ^ s) = a / d / 2 ^ s := by
    rw [← Nat.div_div_eq_div_mul, hkept]
  have hmod : (4 * (a / d) + restBits (a % d) d) % (4 * 2 ^ s) =
      restBits (a % d) d + 4 * (a / d % 2 ^ s) := by
    rw [Nat.mod_mul, hkept, hlast]
  have hdiv' : a / (d * 2 ^ s) = a / d / 2 ^ s := (Nat.div_div_eq_div_mul a d (2 ^ s)).symm
  have hmod' : a % (d * 2 ^ s) = a % d + d * (a / d % 2 ^ s) := Nat.mod_mul
  obtain ⟨hbelow, habove⟩ := restBits_half (Nat.mod_lt a hd) (a / d % 2 ^ s) (2 ^ s)
  unfold nearest roundDiv
  simp only [hpow, hdiv, hmod, hdiv', hmod', hbelow]
  split_ifs <;> omega

/-! ## Ratios as floats -/

/-- The bits of the float nearest to a ratio of numbers of units. -/
def roundedRatio (n d : Nat) : Nat :=
  min infinityBits (excess (n / d) * 2 ^ 52 + roundDiv n (d * 2 ^ excess (n / d)))

theorem roundedRatio_one (n : Nat) : roundedRatio n 1 = rounded n := by
  unfold roundedRatio rounded
  rw [Nat.div_one, Nat.one_mul, nearest_eq_roundDiv]

theorem roundedRatio_zero (d : Nat) : roundedRatio 0 d = 0 := by
  simp [roundedRatio, roundDiv, excess]

theorem div_eq_of_mul_eq {n' d' : Nat} (hd : 0 < d) (hd' : 0 < d') (h : n * d' = n' * d) :
    n / d = n' / d' := by
  rw [← Nat.mul_div_mul_right n d hd', ← Nat.mul_div_mul_right n' d' hd, h, Nat.mul_comm d d']

theorem roundedRatio_congr {n' d' : Nat} (hd : 0 < d) (hd' : 0 < d') (h : n * d' = n' * d) :
    roundedRatio n d = roundedRatio n' d' := by
  have hpow := Nat.two_pow_pos (excess (n' / d'))
  unfold roundedRatio
  rw [div_eq_of_mul_eq hd hd' h, roundDiv_congr (Nat.mul_pos hd hpow) (Nat.mul_pos hd' hpow)]
  rw [← Nat.mul_assoc, h, Nat.mul_assoc]

/-- What is kept of a ratio has at most 53 bits, up to one more unit. -/
theorem roundDiv_excess_le (n d : Nat) : roundDiv n (d * 2 ^ excess (n / d)) ≤ 2 ^ 53 := by
  have hdiv : n / (d * 2 ^ excess (n / d)) < 2 ^ 53 := by
    rw [← Nat.div_div_eq_div_mul]
    exact (Nat.div_lt_iff_lt_mul (Nat.two_pow_pos _)).2 (lt_two_pow_excess (n / d))
  exact le_trans (roundDiv_le n _) hdiv

/-- What is kept of a ratio has 53 bits unless only a fraction is dropped. -/
theorem le_roundDiv_excess (h : excess (n / d) ≠ 0) : 2 ^ 52 ≤ roundDiv n (d * 2 ^ excess (n / d)) := by
  have hdiv : 2 ^ 52 ≤ n / (d * 2 ^ excess (n / d)) := by
    rw [← Nat.div_div_eq_div_mul]
    exact (Nat.le_div_iff_mul_le (Nat.two_pow_pos _)).2 (two_pow_excess_le h)
  exact le_trans hdiv (div_le_roundDiv n _)

theorem roundedRatio_mono (h : n ≤ m) (d : Nat) : roundedRatio n d ≤ roundedRatio m d := by
  have hmono := excess_mono (Nat.div_le_div_right (c := d) h)
  unfold roundedRatio
  refine min_le_min_left _ ?_
  rcases Nat.lt_or_eq_of_le hmono with hlt | heq
  · -- a ratio that drops more bits has its leading bit above the carry of the other
    have hn := roundDiv_excess_le n d
    have hm := le_roundDiv_excess (n := m) (d := d) (by omega)
    omega
  · rw [heq]
    exact Nat.add_le_add_left (roundDiv_mono h _) _

end RoadRouting.Binary64
