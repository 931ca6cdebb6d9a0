import Mathlib.Algebra.Group.Nat.Defs
import Mathlib.Data.List.Nodup
import Mathlib.Data.List.Perm.Subperm
import Mathlib.Order.MinMax
import RoadRouting.Sampling.Choose

/-!
# Distinct indices

Each method picks indices below the length, as many as it is asked for, and none twice (`Draft.Distinct`),
whatever words the generator gives. Picking from a growing range takes the new index when the drawn one
is there already; exchanging keeps a permutation of the range; drawing again, until an unseen index comes,
ends with one as long as some index is unseen. So `choose` gives indices in ascending order, as many as
there are or are wanted (`choose_picks`).
-/

namespace RoadRouting.Sampling
set_option autoImplicit false

/-- Indices below a length in ascending order, a number of them or all there are. -/
structure Picks (len amount : Nat) (is : List Nat) : Prop where
  ascending : is.Pairwise (· < ·)
  below : ∀ i ∈ is, i < len
  length : is.length = min len amount

/-- So many distinct numbers below a bound. -/
structure Distinct (bound count : Nat) (picked : List Nat) : Prop where
  nodup : picked.Nodup
  below : ∀ i ∈ picked, i < bound
  length : picked.length = count

variable {len amount bound count : Nat} {picked : List Nat}

theorem distinct_nil (bound : Nat) : Distinct bound 0 [] := ⟨.nil, nofun, rfl⟩

/-- One more number. -/
theorem Distinct.cons (h : Distinct bound count picked) {t : Nat} (ht : t ∉ picked) (hlt : t < bound) :
    Distinct bound (count + 1) (t :: picked) where
  nodup := List.nodup_cons.2 ⟨ht, h.nodup⟩
  below := List.forall_mem_cons.2 ⟨hlt, h.below⟩
  length := by rw [List.length_cons, h.length]

theorem Distinct.mono (h : Distinct bound count picked) {bound' : Nat} (hle : bound ≤ bound') :
    Distinct bound' count picked :=
  ⟨h.nodup, fun i hi => (h.below i hi).trans_le hle, h.length⟩

/-- While fewer numbers were picked than there are, some number has not been. -/
theorem Distinct.exists_not_mem (h : Distinct bound count picked) (hlt : count < bound) :
    ∃ i < bound, i ∉ picked := by
  by_contra hall
  have hsubset : List.range bound ⊆ picked := fun i hi => by
    by_contra hnot
    exact hall ⟨i, List.mem_range.1 hi, hnot⟩
  have hle := (List.subperm_of_subset List.nodup_range hsubset).length_le
  rw [List.length_range, h.length] at hle
  omega

/-- Sorted, distinct numbers ascend. -/
theorem Distinct.picks (h : Distinct len amount picked) (hle : amount ≤ len) :
    Picks len amount (picked.mergeSort (· ≤ ·)) := by
  have hperm := List.mergeSort_perm picked (fun i j : Nat => decide (i ≤ j))
  have hordered : (picked.mergeSort (· ≤ ·)).Pairwise fun i j : Nat => decide (i ≤ j) = true := by
    apply List.pairwise_mergeSort
    · intro a b c hab hbc
      exact decide_eq_true (Nat.le_trans (of_decide_eq_true hab) (of_decide_eq_true hbc))
    · intro a b
      simpa using Nat.le_total a b
  refine ⟨?_, fun i hi => h.below i (hperm.mem_iff.1 hi), ?_⟩
  · have hdistinct : (picked.mergeSort (· ≤ ·)).Pairwise (· ≠ ·) := hperm.nodup_iff.2 h.nodup
    exact hordered.imp₂ (fun i j hij hne => Nat.lt_of_le_of_ne (of_decide_eq_true hij) hne) hdistinct
  · rw [hperm.length_eq, h.length, Nat.min_eq_right hle]

/-! ## Draws -/

section Draws
variable {size : Nat}

/-- What is scaled from words of so many bits is below the size. -/
theorem scaled_lt {bits : Nat} {word : Generator → Nat × Generator} (hword : ∀ g, (word g).1 < 2 ^ bits)
    (hsize : 0 < size) (zone tries : Nat) (g : Generator) : (scaled bits word size zone tries g).1 < size := by
  induction tries generalizing g with
  | zero => exact hsize
  | succ tries ih =>
    unfold scaled
    dsimp only
    split
    · rw [Nat.shiftRight_eq_div_pow, Nat.div_lt_iff_lt_mul (Nat.two_pow_pos bits), Nat.mul_comm size]
      exact Nat.mul_lt_mul_of_pos_right (hword g) hsize
    · exact ih _

theorem word32_lt (g : Generator) : (word32 g).1 < 2 ^ 32 := UInt32.toNat_lt _

theorem word64_lt (g : Generator) : (word64 g).1 < 2 ^ 64 := UInt64.toNat_lt _

theorem below_lt (hsize : 0 < size) (g : Generator) : (below size g).1 < size :=
  scaled_lt word32_lt hsize _ _ g

theorem belowExactly_lt {bits : Nat} {word : Generator → Nat × Generator}
    (hword : ∀ g, (word g).1 < 2 ^ bits) (hsize : 0 < size) (g : Generator) :
    (belowExactly bits word size g).1 < size :=
  scaled_lt hword hsize _ _ g

end Draws

/-! ## From a growing range -/

/-- The index that the range has grown by was not picked before. -/
theorem Draft.widen_distinct {d : Draft} {k : Nat} (h : Distinct k count d.picked) :
    Distinct (k + 1) (count + 1) (d.widen k).picked := by
  have hdrawn := below_lt (Nat.succ_pos k) d.source
  unfold widen
  dsimp only
  split
  · exact (h.mono (Nat.le_succ k)).cons (fun hk => Nat.lt_irrefl k (h.below k hk)) (Nat.lt_succ_self k)
  · rename_i hnew
    exact (h.mono (Nat.le_succ k)).cons (fun ht => hnew (List.contains_iff_mem.2 ht)) hdrawn

theorem foldl_widen_distinct {d : Draft} {start : Nat} (h : Distinct start count d.picked)
    (amount : Nat) : Distinct (start + amount) (count + amount)
      ((List.range' start amount).foldl Draft.widen d).picked := by
  induction amount generalizing d start count with
  | zero => exact h
  | succ amount ih =>
    have hrest := ih (Draft.widen_distinct h)
    rw [List.range'_succ, List.foldl_cons, ← Nat.add_assoc, Nat.add_right_comm start,
      ← Nat.add_assoc, Nat.add_right_comm count]
    exact hrest

theorem picked_foldl_spend (is : List Nat) (d : Draft) : (is.foldl Draft.spend d).picked = d.picked := by
  induction is generalizing d with
  | nil => rfl
  | cons i rest ih => exact ih (d.spend i)

theorem byWidening_distinct (hle : amount ≤ len) (g : Generator) :
    Distinct len amount (byWidening len amount g).picked := by
  have h := foldl_widen_distinct (d := ⟨[], g⟩) (distinct_nil (len - amount)) amount
  rw [Nat.sub_add_cancel hle, Nat.zero_add] at h
  unfold byWidening
  dsimp only
  split
  · exact h
  · rwa [picked_foldl_spend]

/-! ## By exchange -/

theorem Deck.exchange_perm (len : Nat) (d : Deck) (i : Nat) :
    (d.exchange len i).cards.toList.Perm d.cards.toList := by
  unfold exchange
  dsimp only
  rw [Array.swapIfInBounds_def]
  split
  · split
    · exact Array.perm_iff_toList_perm.1 (Array.swap_perm _ _)
    · exact .refl _
  · exact .refl _

theorem foldl_exchange_perm (len : Nat) (is : List Nat) (d : Deck) :
    (is.foldl (Deck.exchange len) d).cards.toList.Perm d.cards.toList := by
  induction is generalizing d with
  | nil => exact .refl _
  | cons i rest ih => exact (ih _).trans (d.exchange_perm len i)

theorem byExchange_distinct (hle : amount ≤ len) (g : Generator) :
    Distinct len amount (byExchange len amount g).picked := by
  have hperm := foldl_exchange_perm len (List.range amount) ⟨Array.range len, g⟩
  rw [Array.toList_range] at hperm
  refine ⟨?_, fun i hi => ?_, ?_⟩
  · exact (hperm.nodup_iff.2 List.nodup_range).sublist (List.take_sublist _ _)
  · exact List.mem_range.1 (hperm.mem_iff.1 (List.mem_of_mem_take hi))
  · unfold byExchange
    rw [List.length_take, hperm.length_eq, List.length_range, Nat.min_eq_left hle]

/-! ## By drawing again -/

/-- The set knows what was picked. -/
structure Hand.Holds (len count : Nat) (h : Hand) : Prop where
  distinct : Distinct len count h.picked
  seen : ∀ i, h.seen.contains i ↔ i ∈ h.picked

theorem firstUnseen_spec {seen : Std.HashSet Nat} (h : ∃ i < len, ¬ seen.contains i) :
    firstUnseen len seen < len ∧ ¬ seen.contains (firstUnseen len seen) := by
  unfold firstUnseen
  cases hfind : (List.range len).find? fun i => !seen.contains i with
  | none =>
    obtain ⟨i, hlt, hnew⟩ := h
    exact absurd (List.find?_eq_none.1 hfind i (List.mem_range.2 hlt)) (by simpa using hnew)
  | some i =>
    exact ⟨List.mem_range.1 (List.mem_of_find?_eq_some hfind), by simpa using List.find?_some hfind⟩

/-- A draw ends with an unseen index, as long as there is one. -/
theorem drawUnseen_spec {draw : Generator → Nat × Generator} (hdraw : ∀ g, (draw g).1 < len)
    {seen : Std.HashSet Nat} (h : ∃ i < len, ¬ seen.contains i) (tries : Nat) (g : Generator) :
    (drawUnseen len draw seen tries g).1 < len ∧
      ¬ seen.contains (drawUnseen len draw seen tries g).1 := by
  induction tries generalizing g with
  | zero => exact firstUnseen_spec h
  | succ tries ih =>
    unfold drawUnseen
    dsimp only
    split
    · exact ih _
    · rename_i hnew
      exact ⟨hdraw g, hnew⟩

theorem Hand.deal_holds {draw : Generator → Nat × Generator} (hdraw : ∀ g, (draw g).1 < len)
    {h : Hand} (hh : h.Holds len count) (hlt : count < len) (i : Nat) :
    (h.deal len draw i).Holds len (count + 1) := by
  obtain ⟨j, hj, hnew⟩ := hh.distinct.exists_not_mem hlt
  obtain ⟨hbelow, hunseen⟩ := drawUnseen_spec hdraw ⟨j, hj, mt (hh.seen j).1 hnew⟩ patience h.source
  refine ⟨hh.distinct.cons (mt (hh.seen _).2 hunseen) hbelow, fun k => ?_⟩
  unfold deal
  dsimp only
  rw [Std.HashSet.contains_insert, Bool.or_eq_true, hh.seen, beq_iff_eq, List.mem_cons, eq_comm]

theorem byRejection_distinct {draw : Generator → Nat × Generator} (hdraw : 0 < len → ∀ g, (draw g).1 < len)
    (hle : amount ≤ len) (g : Generator) : Distinct len amount (byRejection len amount draw g).picked := by
  suffices h : ((List.range amount).foldl (Hand.deal len draw) ⟨[], ∅, g⟩).Holds len amount from h.distinct
  induction amount with
  | zero => exact ⟨distinct_nil len, fun i => by simp⟩
  | succ amount ih =>
    rw [List.range_succ, List.foldl_append]
    exact Hand.deal_holds (hdraw (by omega)) (ih (by omega)) (by omega) amount

/-! ## All methods -/

/-- Every method picks distinct indices. -/
theorem Method.run_distinct (m : Method) (hle : amount ≤ len) (g : Generator) :
    Distinct len amount (m.run len amount g).picked := by
  cases m with
  | widening => exact byWidening_distinct hle g
  | exchange => exact byExchange_distinct hle g
  | rejection => exact byRejection_distinct (fun hlen => belowExactly_lt word32_lt hlen) hle g
  | wideRejection => exact byRejection_distinct (fun hlen => belowExactly_lt word64_lt hlen) hle g

/-- What is chosen ascends below the length, and is as much as is wanted or there is. -/
theorem picks_choose (len amount : Nat) (g : Generator) : Picks len amount (choose len amount g).1 := by
  unfold choose
  split
  · rename_i hle
    exact ⟨List.pairwise_lt_range, fun i hi => List.mem_range.1 hi, by
      rw [List.length_range, Nat.min_eq_left hle]⟩
  · rename_i hlt
    exact ((Method.of len amount).run_distinct (by omega) g).picks (by omega)

end RoadRouting.Sampling
