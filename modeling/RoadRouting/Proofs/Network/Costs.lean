import Mathlib.Order.Basic
import RoadRouting.Network.Quantity

/-!
# The arithmetic of costs

A search compares costs and adds edges to them, and no more is asked of the arithmetic than
`LawfulCost` says: the sums of non-negative numbers are totally ordered, adding one to a sum never
lowers it and keeps the order of two sums, and the frontier agrees with that order. Numbers that are
no sums may compare as they like, so a type of costs may hold values that are no numbers.
`ExactCost` adds that no sum of finite costs overflows.
-/

namespace RoadRouting.Network
set_option autoImplicit false

namespace Cost
variable {α : Type} [Cost α]

/-- What an edge may cost: a number that is not negative. -/
def IsWeight (w : α) : Prop := ¬ w < 0 ∧ (w < infinite ∨ w = infinite)

/-- What weights add up to from zero, and the cost of what has not been reached. -/
inductive IsSum : α → Prop
  | zero : IsSum 0
  | infinite : IsSum infinite
  | add {a w : α} : IsSum a → IsWeight w → IsSum (a + w)

end Cost

open Cost (IsWeight IsSum)

/-- The laws of costs. -/
class LawfulCost (α : Type) [Cost α] : Prop where
  lt_irrefl (a : α) : ¬ a < a
  lt_trans {a b c : α} : a < b → b < c → a < c
  trichotomy {a b : α} : IsSum a → IsSum b → a < b ∨ a = b ∨ b < a
  zero_lt_infinite : (0 : α) < Cost.infinite
  not_infinite_lt {a : α} : IsSum a → ¬ Cost.infinite < a
  add_zero {a : α} : IsSum a → a + 0 = a
  not_add_lt {a w : α} : IsSum a → IsWeight w → ¬ a + w < a
  not_add_lt_add {a b w : α} : IsSum a → IsSum b → IsWeight w → a < b → ¬ b + w < a + w
  rank_trans : Std.TransCmp (Cost.rank : α → α → Ordering)
  rank_of_lt {a b : α} : a < b → Cost.rank a b = .lt

/-- Costs of which finitely many finite ones never add up to an infinite one. -/
class ExactCost (α : Type) [Cost α] : Prop extends LawfulCost α where
  add_lt_infinite {a w : α} : IsSum a → IsWeight w → a < Cost.infinite → w < Cost.infinite →
    a + w < Cost.infinite

namespace LawfulCost
variable {α : Type} [Cost α] [LawfulCost α]

/-- The order of costs, with equality for what is not less. -/
abbrev order : PartialOrder α where
  le a b := a < b ∨ a = b
  lt a b := a < b
  le_refl _ := .inr rfl
  le_trans a b c hab hbc := by
    rcases hab with hab | rfl
    · rcases hbc with hbc | rfl
      · exact .inl (lt_trans hab hbc)
      · exact .inl hab
    · exact hbc
  lt_iff_le_not_ge a b := by
    constructor
    · intro h
      refine ⟨.inl h, ?_⟩
      rintro (h' | rfl)
      · exact lt_irrefl a (lt_trans h h')
      · exact lt_irrefl _ h
    · rintro ⟨h | rfl, h'⟩
      · exact h
      · exact absurd (.inr rfl) h'
  le_antisymm a b hab hba := by
    rcases hab with hab | hab
    · rcases hba with hba | hba
      · exact absurd (lt_trans hab hba) (lt_irrefl a)
      · exact hba.symm
    · exact hab

end LawfulCost

section Order
variable {α : Type} [Cost α] [LawfulCost α] {a b w : α}

attribute [local instance] LawfulCost.order

theorem Cost.IsSum.le_of_not_lt (ha : IsSum a) (hb : IsSum b) (h : ¬ b < a) : a ≤ b := by
  rcases LawfulCost.trichotomy ha hb with h' | h' | h'
  · exact le_of_lt h'
  · exact le_of_eq h'
  · exact absurd h' h

theorem Cost.IsSum.le_infinite (ha : IsSum a) : a ≤ Cost.infinite :=
  ha.le_of_not_lt .infinite (LawfulCost.not_infinite_lt ha)

theorem Cost.IsSum.le_add (ha : IsSum a) (hw : IsWeight w) : a ≤ a + w :=
  ha.le_of_not_lt (ha.add hw) (LawfulCost.not_add_lt ha hw)

theorem Cost.IsSum.add_le_add (ha : IsSum a) (hb : IsSum b) (hw : IsWeight w) (h : a ≤ b) :
    a + w ≤ b + w := by
  rcases h with h | rfl
  · exact (ha.add hw).le_of_not_lt (hb.add hw) (LawfulCost.not_add_lt_add ha hb hw h)
  · exact le_refl _

theorem Cost.isWeight_zero : IsWeight (0 : α) :=
  ⟨LawfulCost.lt_irrefl 0, .inl LawfulCost.zero_lt_infinite⟩

end Order

end RoadRouting.Network
