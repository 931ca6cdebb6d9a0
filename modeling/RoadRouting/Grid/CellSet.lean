import RoadRouting.Grid.Cell
import Std.Data.TreeSet

/-!
# Sets of cells

Sets that list their cells in ascending order, and their digest.
-/

namespace RoadRouting.Grid
set_option autoImplicit false

instance : Std.TransOrd Cell :=
  inferInstanceAs (Std.TransCmp (compareLex (compareOn Cell.trail) (compareOn Cell.raw)))

instance : Std.LawfulEqOrd Cell where
  eq_of_compare {a b} h := by
    have h : compareLex (compareOn Cell.trail) (compareOn Cell.raw) a b = .eq := h
    rw [compareLex_eq_eq] at h
    exact Cell.raw_inj (Std.LawfulEqOrd.eq_of_compare h.2)

/-- A set of cells in ascending order. -/
abbrev CellSet := Std.TreeSet Cell compare

namespace CellSet

/-- Folds one more cell into a digest. -/
def mix (digest : UInt64) (c : Cell) : UInt64 := (digest ^^^ c.raw) * 0x100000001b3

/-- A digest of the cells in ascending order. -/
def fingerprint (s : CellSet) : UInt64 := s.toList.foldl mix 0xcbf29ce484222325

/-- The cells that lie in both sets. -/
def restrict (s within : CellSet) : CellSet := s.filter fun c => within.contains c

end CellSet
end RoadRouting.Grid
