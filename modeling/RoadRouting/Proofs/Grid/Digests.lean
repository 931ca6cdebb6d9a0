import RoadRouting.Grid.CellSet
import RoadRouting.Proofs.Lists

/-!
# Digests of cells

Folding a cell into a digest loses nothing of either (`mix_left_inj`, `mix_right_inj`): the exclusive or can be
undone, and so can the multiplication, since the factor has an inverse among the 64-bit numbers. So of two sets
that list the same cells but for one, in the same place, the digests differ (`fingerprint_ne`), however many cells
are folded in afterwards.
-/

namespace RoadRouting
set_option autoImplicit false

/-- Two lists of the same length differ in exactly one place. -/
structure DifferInOne {β : Type} (xs ys : List β) : Prop where
  length : xs.length = ys.length
  place : ∃ i : Nat, ∀ j : Nat, xs[j]? = ys[j]? ↔ j ≠ i

/-- In one place they have different items, before and after it the same ones. -/
theorem DifferInOne.exists_split {β : Type} {xs ys : List β} (h : DifferInOne xs ys) :
    ∃ before x y after, x ≠ y ∧ xs = before ++ x :: after ∧ ys = before ++ y :: after := by
  obtain ⟨hlength, i, hplace⟩ := h
  have hdiffer : xs[i]? ≠ ys[i]? := fun heq => (hplace i).1 heq rfl
  have hi : i < xs.length := by
    by_contra hnot
    have hnot' : ys.length ≤ i := by omega
    rw [List.getElem?_eq_none (Nat.le_of_not_lt hnot), List.getElem?_eq_none hnot'] at hdiffer
    exact hdiffer rfl
  have hi' : i < ys.length := hlength ▸ hi
  have hbefore : xs.take i = ys.take i := by
    refine List.ext_getElem? fun j => ?_
    rw [List.getElem?_take, List.getElem?_take]
    split
    · rename_i hj
      exact (hplace j).2 (Nat.ne_of_lt hj)
    · rfl
  have hafter : xs.drop (i + 1) = ys.drop (i + 1) := by
    refine List.ext_getElem? fun j => ?_
    rw [List.getElem?_drop, List.getElem?_drop]
    exact (hplace _).2 (by omega)
  refine ⟨xs.take i, xs[i], ys[i], xs.drop (i + 1), ?_, ?_, ?_⟩
  · rwa [List.getElem?_eq_getElem hi, List.getElem?_eq_getElem hi', ne_eq, Option.some.injEq] at hdiffer
  · rw [← List.drop_eq_getElem_cons hi, List.take_append_drop]
  · rw [hbefore, hafter, ← List.drop_eq_getElem_cons hi', List.take_append_drop]

namespace Grid.CellSet
variable {a b : UInt64} {c d : Cell} {cells : List Cell} {s t : CellSet}

/-- The factor of a digest is odd, so it can be cancelled. -/
theorem mul_factor_inj : a * 0x100000001b3 = b * 0x100000001b3 ↔ a = b := by
  have hinverse : (0x100000001b3 : UInt64) * 0xce965057aff6957b = 1 := by decide
  constructor
  · intro h
    calc a = a * 0x100000001b3 * 0xce965057aff6957b := by
          rw [UInt64.mul_assoc, hinverse, UInt64.mul_one]
      _ = b * 0x100000001b3 * 0xce965057aff6957b := by rw [h]
      _ = b := by rw [UInt64.mul_assoc, hinverse, UInt64.mul_one]
  · exact congrArg (· * 0x100000001b3)

theorem mix_left_inj : mix a c = mix b c ↔ a = b := by
  rw [mix, mix, mul_factor_inj, UInt64.xor_left_inj]

theorem mix_right_inj : mix a c = mix a d ↔ c = d := by
  rw [mix, mix, mul_factor_inj, UInt64.xor_right_inj]
  exact ⟨Cell.raw_inj, congrArg Cell.raw⟩

/-- Cells that are folded in keep digests apart. -/
theorem foldl_mix_inj : cells.foldl mix a = cells.foldl mix b ↔ a = b := by
  induction cells generalizing a b with
  | nil => rfl
  | cons c rest ih => rw [List.foldl_cons, List.foldl_cons, ih, mix_left_inj]

/-- Sets with the same cells have the same digest. -/
theorem fingerprint_congr (h : s.toList = t.toList) : s.fingerprint = t.fingerprint := by
  rw [fingerprint, fingerprint, h]

/-- An exchange of one cell for another, at the same place in the order, shows in the digest. -/
theorem fingerprint_ne (h : DifferInOne s.toList t.toList) : s.fingerprint ≠ t.fingerprint := by
  obtain ⟨before, x, y, after, hne, hs, ht⟩ := h.exists_split
  rw [fingerprint, fingerprint, hs, ht, List.foldl_append, List.foldl_append, List.foldl_cons,
    List.foldl_cons, ne_eq, foldl_mix_inj, mix_right_inj]
  exact hne

end Grid.CellSet
end RoadRouting
