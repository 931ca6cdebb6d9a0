import Mathlib.Data.ENNReal.Inv
import Mathlib.Data.EReal.Inv
import RoadRouting.Proofs.Network.Costs
import RoadRouting.Proofs.Network.Growth

/-!
# Exact costs

Non-negative real numbers with infinity are quantities without rounding: each of them is a weight, the
laws of costs hold for them, and no sum of finite ones is infinite. So are the real numbers of any sign
with both infinities, where those that are not negative are the weights.
-/

namespace RoadRouting.Network
set_option autoImplicit false
open scoped ENNReal
open Cost (IsWeight IsSum)

noncomputable instance : Quantity ℝ≥0∞ where
  decLt := inferInstance
  infinite := ⊤
  rank := compare
  one := 1
  kmhPerMetreSecond := 3.6
  larger := max

namespace Exact

theorem isWeight (w : ℝ≥0∞) : IsWeight w := ⟨not_lt_zero, lt_or_eq_of_le le_top⟩

instance : ExactCost ℝ≥0∞ where
  lt_irrefl := lt_irrefl
  lt_trans := lt_trans
  trichotomy _ _ := lt_trichotomy _ _
  zero_lt_infinite := ENNReal.zero_lt_top
  not_infinite_lt _ := not_top_lt
  add_zero _ := add_zero _
  not_add_lt _ _ := not_lt_of_ge le_self_add
  not_add_lt_add _ _ _ h := not_lt_of_ge (add_le_add_left h.le _)
  rank_trans := inferInstanceAs (Std.TransCmp (compare : ℝ≥0∞ → ℝ≥0∞ → Ordering))
  rank_of_lt h := compare_lt_iff_lt.2 h
  add_lt_infinite _ _ ha hw := ENNReal.add_lt_top.2 ⟨ha, hw⟩

end Exact

/-! ## Costs of any sign -/

noncomputable instance : Quantity EReal where
  decLt := inferInstance
  infinite := ⊤
  rank := compare
  one := 1
  kmhPerMetreSecond := ((3.6 : ℝ) : EReal)
  larger := max

namespace Exact

theorem nonneg_of_isWeight {w : EReal} (hw : IsWeight w) : 0 ≤ w := not_lt.1 hw.1

theorem isWeight_of_nonneg {w : EReal} (hw : 0 ≤ w) : IsWeight w :=
  ⟨not_lt.2 hw, lt_or_eq_of_le le_top⟩

instance : ExactCost EReal where
  lt_irrefl := lt_irrefl
  lt_trans := lt_trans
  trichotomy _ _ := lt_trichotomy _ _
  zero_lt_infinite := EReal.zero_lt_top
  not_infinite_lt _ := not_top_lt
  add_zero _ := add_zero _
  not_add_lt _ hw := not_lt_of_ge (le_add_of_nonneg_right (nonneg_of_isWeight hw))
  not_add_lt_add _ _ _ h := not_lt_of_ge (add_le_add_left h.le _)
  rank_trans := inferInstanceAs (Std.TransCmp (compare : EReal → EReal → Ordering))
  rank_of_lt h := compare_lt_iff_lt.2 h
  add_lt_infinite _ _ ha hw := EReal.add_lt_top ha.ne hw.ne

end Exact
end RoadRouting.Network
