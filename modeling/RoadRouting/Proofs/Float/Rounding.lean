import Mathlib.Algebra.Group.Int.Defs
import Mathlib.Algebra.Group.Nat.Defs
import Mathlib.Order.MinMax
import Mathlib.Order.Nat
import Mathlib.Tactic.SplitIfs
import RoadRouting.Decimal.Binary

/-!
# Rounding to 53 bits

A float that is not negative is a number of units, the least positive float, and its bits are in the
order of these numbers (`units`). `rounded` gives the bits of the float nearest to any number of units.
It keeps the order, and leaves alone what needs no rounding.
-/

namespace RoadRouting.Binary64
set_option autoImplicit false
open Decimal (roundDiv)

/-- The bits of infinity. -/
def infinityBits : Nat := 2047 * 2 ^ 52

/-- The quotient by a power of two, rounded to the nearest number, and from the middle to an even one. -/
def nearest (n k : Nat) : Nat :=
  if 2 * (n % 2 ^ k) < 2 ^ k then n / 2 ^ k
  else if 2 * (n % 2 ^ k) = 2 ^ k then n / 2 ^ k + n / 2 ^ k % 2
  else n / 2 ^ k + 1

/-- How many bits a number has beyond 53. -/
def excess (n : Nat) : Nat := n.log2 - 52

/-- The bits of the float nearest to a number of units. -/
def rounded (n : Nat) : Nat := min infinityBits (excess n * 2 ^ 52 + nearest n (excess n))

/-- The number of units of a float with the given bits. -/
def units (b : Nat) : Nat :=
  if b < 2 ^ 52 then b else (2 ^ 52 + b % 2 ^ 52) * 2 ^ (b / 2 ^ 52 - 1)

variable {n m k d : Nat}

/-! ## Ratios to the nearest number -/

theorem div_le_roundDiv (n d : Nat) : n / d ≤ roundDiv n d := by
  unfold roundDiv
  simp only
  split_ifs <;> omega

theorem roundDiv_le (n d : Nat) : roundDiv n d ≤ n / d + 1 := by
  unfold roundDiv
  simp only
  split_ifs <;> omega

/-- Rounding to a multiple of one unit keeps the order. -/
theorem roundDiv_mono (h : n ≤ m) (d : Nat) : roundDiv n d ≤ roundDiv m d := by
  rcases Nat.lt_or_ge (n / d) (m / d) with hlt | hge
  · calc roundDiv n d ≤ n / d + 1 := roundDiv_le n d
      _ ≤ m / d := hlt
      _ ≤ roundDiv m d := div_le_roundDiv m d
  · have heq : n / d = m / d := Nat.le_antisymm (Nat.div_le_div_right h) hge
    have hmod : n % d ≤ m % d := by
      have hn := Nat.div_add_mod n d
      have hm := Nat.div_add_mod m d
      rw [heq] at hn
      omega
    unfold roundDiv
    simp only [heq]
    split_ifs <;> omega

/-- A common factor does not matter. -/
theorem roundDiv_mul (n d : Nat) {c : Nat} (hc : 0 < c) : roundDiv (n * c) (d * c) = roundDiv n d := by
  have hlt (a b : Nat) : 2 * (a * c) < b * c ↔ 2 * a < b := by
    rw [← Nat.mul_assoc, Nat.mul_lt_mul_right hc]
  have hgt (a b : Nat) : b * c < 2 * (a * c) ↔ b < 2 * a := by
    rw [← Nat.mul_assoc, Nat.mul_lt_mul_right hc]
  unfold roundDiv
  simp only [Nat.mul_div_mul_right _ _ hc, Nat.mul_mod_mul_right, hlt, hgt]

/-- Only the ratio matters. -/
theorem roundDiv_congr {n' d' : Nat} (hd : 0 < d) (hd' : 0 < d') (h : n * d' = n' * d) :
    roundDiv n d = roundDiv n' d' := by
  rw [← roundDiv_mul n d hd', ← roundDiv_mul n' d' hd, h, Nat.mul_comm d d']

/-! ## Dropping bits -/

/-- A number of units is rounded as its ratio to a power of two. -/
theorem nearest_eq_roundDiv (n k : Nat) : nearest n k = roundDiv n (2 ^ k) := by
  unfold nearest roundDiv
  simp only
  split_ifs <;> omega

theorem div_le_nearest (n k : Nat) : n / 2 ^ k ≤ nearest n k := by
  rw [nearest_eq_roundDiv]
  exact div_le_roundDiv n _

theorem nearest_le (n k : Nat) : nearest n k ≤ n / 2 ^ k + 1 := by
  rw [nearest_eq_roundDiv]
  exact roundDiv_le n _

/-- Rounding to a multiple of one power of two keeps the order. -/
theorem nearest_mono (h : n ≤ m) (k : Nat) : nearest n k ≤ nearest m k := by
  rw [nearest_eq_roundDiv, nearest_eq_roundDiv]
  exact roundDiv_mono h _

theorem nearest_zero (n : Nat) : nearest n 0 = n := by
  simp [nearest, Nat.mod_one]

/-- A common power of two does not matter. -/
theorem nearest_mul (n k j : Nat) : nearest (n * 2 ^ j) (k + j) = nearest n k := by
  rw [nearest_eq_roundDiv, nearest_eq_roundDiv, Nat.pow_add]
  exact roundDiv_mul n (2 ^ k) (Nat.two_pow_pos j)

theorem nearest_of_exact (n k : Nat) : nearest (n * 2 ^ k) k = n := by
  have h := nearest_mul n 0 k
  rwa [Nat.zero_add, nearest_zero] at h

/-! ## How many bits are kept -/

theorem lt_two_pow_excess (n : Nat) : n < 2 ^ 53 * 2 ^ excess n := by
  rw [← Nat.pow_add]
  exact lt_of_lt_of_le Nat.lt_log2_self (Nat.pow_le_pow_right (by decide) (by unfold excess; omega))

theorem two_pow_excess_le (h : excess n ≠ 0) : 2 ^ 52 * 2 ^ excess n ≤ n := by
  have hn : n ≠ 0 := by
    rintro rfl
    simp [excess] at h
  have hlog : 52 + excess n = n.log2 := by
    unfold excess at h ⊢
    omega
  rw [← Nat.pow_add, hlog]
  exact Nat.log2_self_le hn

theorem excess_mono (h : n ≤ m) : excess n ≤ excess m := by
  unfold excess
  rcases Nat.eq_zero_or_pos n with rfl | hn
  · simp
  · have hlog : n.log2 ≤ m.log2 :=
      (Nat.le_log2 (by omega)).2 (le_trans (Nat.log2_self_le hn.ne') h)
    omega

/-- What is kept has at most 53 bits, up to one more unit. -/
theorem nearest_excess_le (n : Nat) : nearest n (excess n) ≤ 2 ^ 53 := by
  have hdiv : n / 2 ^ excess n < 2 ^ 53 :=
    (Nat.div_lt_iff_lt_mul (Nat.two_pow_pos _)).2 (lt_two_pow_excess n)
  have hle := nearest_le n (excess n)
  omega

/-- What is kept has 53 bits unless nothing is dropped. -/
theorem le_nearest_excess (h : excess n ≠ 0) : 2 ^ 52 ≤ nearest n (excess n) := by
  have hdiv : 2 ^ 52 ≤ n / 2 ^ excess n :=
    (Nat.le_div_iff_mul_le (Nat.two_pow_pos _)).2 (two_pow_excess_le h)
  exact le_trans hdiv (div_le_nearest n (excess n))

/-- Rounding keeps the order. -/
theorem rounded_mono (h : n ≤ m) : rounded n ≤ rounded m := by
  unfold rounded
  refine min_le_min_left _ ?_
  rcases Nat.lt_or_ge (excess n) (excess m) with hlt | hge
  · -- a number that drops more bits has its leading bit above the carry of the other
    have hn := nearest_excess_le n
    have hm := le_nearest_excess (n := m) (by omega)
    omega
  · have heq : excess n = excess m := Nat.le_antisymm (excess_mono h) hge
    rw [heq]
    exact Nat.add_le_add_left (nearest_mono h _) _

/-! ## Numbers that need no rounding -/

/-- A number of at most 53 bits, times a power of two; it has all 53 bits if the power is not one. -/
structure Canonical (m k : Nat) : Prop where
  lt : m < 2 ^ 53
  le : k ≠ 0 → 2 ^ 52 ≤ m

theorem Canonical.units_eq (h : Canonical m k) : units (k * 2 ^ 52 + m) = m * 2 ^ k := by
  obtain ⟨hlt, hle⟩ := h
  unfold units
  by_cases hm : m < 2 ^ 52
  · obtain rfl : k = 0 := by
      by_contra hk
      exact absurd (hle hk) (by omega)
    rw [Nat.zero_mul, Nat.zero_add, if_pos hm, Nat.pow_zero, Nat.mul_one]
  · have hdiv : (k * 2 ^ 52 + m) / 2 ^ 52 = k + 1 := by omega
    have hmod : (k * 2 ^ 52 + m) % 2 ^ 52 = m - 2 ^ 52 := by omega
    have hsum : 2 ^ 52 + (m - 2 ^ 52) = m := by omega
    rw [if_neg (by omega), hdiv, hmod, hsum, Nat.add_sub_cancel]

theorem Canonical.excess_eq (h : Canonical m k) : excess (m * 2 ^ k) = k := by
  obtain ⟨hlt, hle⟩ := h
  unfold excess
  by_cases hk : k = 0
  · subst hk
    rw [Nat.pow_zero, Nat.mul_one]
    by_cases hm : m = 0
    · simp [hm]
    · have hlog := (Nat.log2_lt hm).2 hlt
      omega
  · have hle := hle hk
    have hpos : m * 2 ^ k ≠ 0 := Nat.mul_ne_zero (by omega) (Nat.two_pow_pos k).ne'
    have hlog : (m * 2 ^ k).log2 = 52 + k := by
      rw [Nat.log2_eq_iff hpos, Nat.pow_add, Nat.add_right_comm, Nat.pow_add]
      exact ⟨Nat.mul_le_mul_right _ hle, Nat.mul_lt_mul_of_pos_right hlt (Nat.two_pow_pos k)⟩
    omega

theorem exists_canonical (b : Nat) : ∃ m k, Canonical m k ∧ b = k * 2 ^ 52 + m := by
  by_cases hb : b < 2 ^ 52
  · exact ⟨b, 0, ⟨by omega, fun h => absurd rfl h⟩, by omega⟩
  · refine ⟨2 ^ 52 + b % 2 ^ 52, b / 2 ^ 52 - 1, ⟨?_, ?_⟩, ?_⟩
    · omega
    · intro _
      omega
    · omega

/-- The bits of a float are those of its number of units. -/
theorem rounded_units {b : Nat} (h : b ≤ infinityBits) : rounded (units b) = b := by
  obtain ⟨m, k, hc, rfl⟩ := exists_canonical b
  rw [hc.units_eq, rounded, hc.excess_eq, nearest_of_exact]
  exact Nat.min_eq_right h

theorem units_mono {a b : Nat} (h : a ≤ b) (hb : b ≤ infinityBits) : units a ≤ units b := by
  by_contra hlt
  have hle := rounded_mono (le_of_not_ge hlt)
  rw [rounded_units hb, rounded_units (le_trans h hb)] at hle
  obtain rfl : a = b := Nat.le_antisymm h hle
  exact hlt (le_refl _)

end RoadRouting.Binary64
