import Mathlib.Logic.Equiv.Basic
import RoadRouting.Proofs.Network.Costs
import RoadRouting.Network.Frontier

/-!
# The frontier gives out what comes first

A frontier keeps its entries (`push_perm`, `pop?_perm`), stays a heap (`Ordered.push`,
`Ordered.pop?`), and gives out an entry that no other one comes before (`Ordered.not_before_top`).
Both moves through the heap carry a hole: `RiseOrder` and `SinkOrder` say which entries are in order
while the entry at the hole is not yet.
-/

namespace RoadRouting.Network
set_option autoImplicit false

variable {α : Type} [Cost α]

namespace Entry

/-- The order in which entries come out. -/
def order (a b : Entry α) : Ordering :=
  (Cost.rank a.score b.score).then (compare a.node.index b.node.index)

theorem before_iff {a b : Entry α} : a.before b = true ↔ a.order b = .lt := by
  unfold before order
  cases Cost.rank a.score b.score <;> simp [Nat.compare_eq_lt]

theorem before_of_rank {a b : Entry α} (h : Cost.rank a.score b.score = .lt) : a.before b = true := by
  simp [before, h]

variable [LawfulCost α]

instance : Std.TransCmp (order : Entry α → Entry α → Ordering) := by
  have htrans : Std.TransCmp (Cost.rank : α → α → Ordering) := LawfulCost.rank_trans
  have : Std.TransCmp fun a b : Entry α => Cost.rank a.score b.score :=
    { eq_swap := htrans.eq_swap
      isLE_trans := htrans.isLE_trans }
  exact inferInstanceAs (Std.TransCmp
    (compareLex (fun a b : Entry α => Cost.rank a.score b.score) (compareOn (·.node.index))))

theorem before_asymm {a b : Entry α} (h : a.before b = true) : b.before a = false := by
  rw [before_iff] at h
  rw [← Bool.not_eq_true, before_iff]
  intro h'
  rw [Std.OrientedCmp.gt_of_lt h] at h'
  cases h'

theorem before_eq_false_iff {a b : Entry α} : a.before b = false ↔ (b.order a).isLE := by
  rw [← Bool.not_eq_true, before_iff, ← Std.OrientedCmp.isGE_iff_isLE]
  cases a.order b <;> simp

theorem not_before_trans {a b c : Entry α} (h : a.before b = false) (h' : b.before c = false) :
    a.before c = false := by
  rw [before_eq_false_iff] at *
  exact Std.TransCmp.isLE_trans h' h

end Entry

namespace Frontier

/-- No entry comes before the one above it. -/
def IsHeap (h : Array (Entry α)) : Prop := ∀ i, 0 < i → before h i ((i - 1) / 2) = false

/-- All are in order but the entry at the hole with the one above it; those below the hole are in
order with that one. -/
structure RiseOrder (h : Array (Entry α)) (hole : Nat) : Prop where
  except : ∀ i, 0 < i → i ≠ hole → before h i ((i - 1) / 2) = false
  grand : 0 < hole → ∀ i, 0 < i → (i - 1) / 2 = hole → before h i ((hole - 1) / 2) = false

/-- All are in order but the entry at the hole; those below the hole are in order with the one above
it. -/
structure SinkOrder (h : Array (Entry α)) (hole : Nat) : Prop where
  except : ∀ i, 0 < i → i ≠ hole → (i - 1) / 2 ≠ hole → before h i ((i - 1) / 2) = false
  grand : 0 < hole → ∀ i, 0 < i → (i - 1) / 2 = hole → before h i ((hole - 1) / 2) = false

theorem before_of_le_left {h : Array (Entry α)} {i j : Nat} (hi : h.size ≤ i) :
    before h i j = false := by
  simp [before, Array.getElem?_eq_none hi]

theorem lt_of_before {h : Array (Entry α)} {i j : Nat} (hb : before h i j = true) :
    i < h.size ∧ j < h.size := by
  unfold before at hb
  split at hb
  · rename_i a b ha hb'
    exact ⟨(Array.getElem?_eq_some_iff.1 ha).1, (Array.getElem?_eq_some_iff.1 hb').1⟩
  · cases hb

theorem before_eq {h : Array (Entry α)} {i j : Nat} (hi : i < h.size) (hj : j < h.size) :
    before h i j = h[i].before h[j] := by
  simp [before, Array.getElem?_eq_getElem hi, Array.getElem?_eq_getElem hj]

theorem getElem?_swapIfInBounds {β : Type} {h : Array β} {i j : Nat} (hi : i < h.size) (hj : j < h.size)
    (k : Nat) : (h.swapIfInBounds i j)[k]? = h[Equiv.swap i j k]? := by
  by_cases hk : k < h.size
  · have hs : Equiv.swap i j k < h.size := by
      rw [Equiv.swap_apply_def]; split
      · exact hj
      · split
        · exact hi
        · exact hk
    rw [Array.getElem?_eq_getElem (by simpa using hk), Array.getElem?_eq_getElem hs,
      Array.getElem_swapIfInBounds]
    congr 1
    simp only [hi, hj, and_true, Equiv.swap_apply_def]
    split
    · rfl
    · split <;> rfl
  · have hk' : h.size ≤ k := Nat.le_of_not_lt hk
    rw [Equiv.swap_apply_of_ne_of_ne (by omega) (by omega), Array.getElem?_eq_none hk',
      Array.getElem?_eq_none (by simpa using hk')]

theorem before_swap {h : Array (Entry α)} {i j : Nat} (hi : i < h.size) (hj : j < h.size) (a b : Nat) :
    before (h.swapIfInBounds i j) a b = before h (Equiv.swap i j a) (Equiv.swap i j b) := by
  simp only [before, getElem?_swapIfInBounds hi hj]

theorem preferredChild_cases (h : Array (Entry α)) (i : Nat) :
    preferredChild h i = 2 * i + 1 ∨ preferredChild h i = 2 * i + 2 := by
  unfold preferredChild
  simp only
  split
  · split
    · exact .inl rfl
    · exact .inr rfl
  · exact .inl rfl

theorem le_of_size_le_preferredChild {h : Array (Entry α)} {i : Nat}
    (hc : h.size ≤ preferredChild h i) : h.size ≤ 2 * i + 1 := by
  unfold preferredChild at hc
  simp only at hc
  split at hc
  · split at hc <;> omega
  · exact hc

section Order
variable [LawfulCost α]

theorem not_before_trans {h : Array (Entry α)} {i j k : Nat} (hj : j < h.size)
    (hij : before h i j = false) (hjk : before h j k = false) : before h i k = false := by
  by_cases hi : i < h.size
  · by_cases hk : k < h.size
    · rw [before_eq hi hk]
      rw [before_eq hi hj] at hij
      rw [before_eq hj hk] at hjk
      exact Entry.not_before_trans hij hjk
    · simp [before, Array.getElem?_eq_none (Nat.le_of_not_lt hk)]
  · exact before_of_le_left (by omega)

theorem before_asymm {h : Array (Entry α)} {i j : Nat} (hij : before h i j = true) :
    before h j i = false := by
  obtain ⟨hi, hj⟩ := lt_of_before hij
  rw [before_eq hi hj] at hij
  rw [before_eq hj hi]
  exact Entry.before_asymm hij

theorem RiseOrder.step {h : Array (Entry α)} {hole : Nat} (o : RiseOrder h hole) (hpos : hole ≠ 0)
    (hb : before h hole ((hole - 1) / 2) = true) :
    RiseOrder (h.swapIfInBounds hole ((hole - 1) / 2)) ((hole - 1) / 2) := by
  obtain ⟨hh, hp⟩ := lt_of_before hb
  have hlt : (hole - 1) / 2 < hole := by omega
  constructor
  · intro i hi hne
    rw [before_swap hh hp]
    by_cases hih : i = hole
    · subst hih
      rw [Equiv.swap_apply_left, Equiv.swap_apply_right]
      exact before_asymm hb
    · rw [Equiv.swap_apply_of_ne_of_ne hih hne]
      by_cases hpi : (i - 1) / 2 = hole
      · rw [hpi, Equiv.swap_apply_left]
        exact o.grand (by omega) i hi hpi
      · have hio := o.except i hi hih
        by_cases hpp : (i - 1) / 2 = (hole - 1) / 2
        · rw [hpp, Equiv.swap_apply_right]
          rw [hpp] at hio
          exact not_before_trans hp hio (before_asymm hb)
        · rw [Equiv.swap_apply_of_ne_of_ne hpi hpp]
          exact hio
  · intro hpos' i hi hpi
    have habove := o.except ((hole - 1) / 2) hpos' (by omega)
    rw [before_swap hh hp, Equiv.swap_apply_of_ne_of_ne (x := ((hole - 1) / 2 - 1) / 2) (by omega) (by omega)]
    by_cases hih : i = hole
    · subst hih
      rw [Equiv.swap_apply_left]
      exact habove
    · rw [Equiv.swap_apply_of_ne_of_ne hih (by omega)]
      have hio := o.except i hi hih
      rw [hpi] at hio
      exact not_before_trans hp hio habove

/-- Rising makes a heap. -/
theorem RiseOrder.isHeap {h : Array (Entry α)} {hole : Nat} (o : RiseOrder h hole) :
    IsHeap (rise h hole) := by
  induction h, hole using rise.induct with
  | case1 h =>
    rw [rise]
    exact fun i hi => o.except i hi (by omega)
  | case2 h hole hpos above hb ih =>
    rw [rise, if_neg hpos, if_pos hb]
    exact ih (o.step hpos hb)
  | case3 h hole hpos above hb =>
    rw [rise, if_neg hpos, if_neg hb]
    intro i hi
    by_cases hih : i = hole
    · subst hih; simpa using hb
    · exact o.except i hi hih

/-- The preferred child does not come after the other one. -/
theorem not_before_preferredChild {h : Array (Entry α)} {i j : Nat} (hj : 0 < j) (hp : (j - 1) / 2 = i) :
    before h j (preferredChild h i) = false := by
  by_cases hjs : j < h.size
  · have hj' : j = 2 * i + 1 ∨ j = 2 * i + 2 := by omega
    unfold preferredChild
    simp only
    split
    · rename_i hr
      split
      · rename_i hb
        rcases hj' with rfl | rfl
        · rw [before_eq hjs hjs, Entry.before_eq_false_iff]
          exact Std.ReflCmp.isLE_rfl
        · exact before_asymm hb
      · rename_i hb
        rcases hj' with rfl | rfl
        · simpa using hb
        · rw [before_eq hjs hjs, Entry.before_eq_false_iff]
          exact Std.ReflCmp.isLE_rfl
    · rename_i hr
      obtain rfl : j = 2 * i + 1 := by omega
      rw [before_eq hjs hjs, Entry.before_eq_false_iff]
      exact Std.ReflCmp.isLE_rfl
  · exact before_of_le_left (by omega)

theorem SinkOrder.step {h : Array (Entry α)} {hole : Nat} (o : SinkOrder h hole)
    (hc : preferredChild h hole < h.size) :
    SinkOrder (h.swapIfInBounds hole (preferredChild h hole)) (preferredChild h hole) := by
  have hcc := preferredChild_cases h hole
  have hmin : ∀ j, 0 < j → (j - 1) / 2 = hole → before h j (preferredChild h hole) = false :=
    fun j hj hp => not_before_preferredChild hj hp
  generalize preferredChild h hole = c at hc hcc hmin ⊢
  have hh : hole < h.size := by omega
  have hpc : (c - 1) / 2 = hole := by omega
  constructor
  · intro i hi hne hpi
    rw [before_swap hh hc]
    by_cases hih : i = hole
    · subst hih
      rw [Equiv.swap_apply_left, Equiv.swap_apply_of_ne_of_ne (x := (i - 1) / 2) (by omega) hpi]
      exact o.grand hi c (by omega) hpc
    · rw [Equiv.swap_apply_of_ne_of_ne hih hne]
      by_cases hph : (i - 1) / 2 = hole
      · rw [hph, Equiv.swap_apply_left]
        exact hmin i hi hph
      · rw [Equiv.swap_apply_of_ne_of_ne hph hpi]
        exact o.except i hi hih hph
  · intro _ i hi hpi
    rw [before_swap hh hc, Equiv.swap_apply_of_ne_of_ne (x := i) (by omega) (by omega), hpc,
      Equiv.swap_apply_left]
    have hio := o.except i hi (by omega) (by omega)
    rwa [hpi] at hio

/-- Sinking makes a heap. -/
theorem SinkOrder.isHeap {h : Array (Entry α)} {hole : Nat} (o : SinkOrder h hole) :
    IsHeap (sink h hole) := by
  induction h, hole using sink.induct with
  | case1 h hole child hc ih =>
    rw [sink, if_pos hc]
    exact ih (o.step hc)
  | case2 h hole child hc =>
    rw [sink, if_neg hc]
    have hleaf := le_of_size_le_preferredChild (Nat.le_of_not_lt hc)
    refine RiseOrder.isHeap ⟨?_, o.grand⟩
    intro i hi hne
    by_cases hp : (i - 1) / 2 = hole
    · exact before_of_le_left (by omega)
    · exact o.except i hi hne hp

/-- No entry of a heap comes before the one at the root. -/
theorem IsHeap.not_before_root {h : Array (Entry α)} (o : IsHeap h) (i : Nat) (hi : i < h.size) :
    before h i 0 = false := by
  induction i using Nat.strongRecOn with
  | ind i ih =>
    by_cases h0 : i = 0
    · subst h0
      rw [before_eq hi hi, Entry.before_eq_false_iff]
      exact Std.ReflCmp.isLE_rfl
    · have hp : (i - 1) / 2 < h.size := by omega
      exact not_before_trans hp (o i (by omega)) (ih ((i - 1) / 2) (by omega) hp)

end Order

theorem swapIfInBounds_perm {β : Type} (h : Array β) (i j : Nat) : (h.swapIfInBounds i j).Perm h := by
  rw [Array.swapIfInBounds_def]
  split
  · split
    · exact Array.swap_perm _ _
    · exact .rfl
  · exact .rfl

theorem rise_perm (h : Array (Entry α)) (i : Nat) : (rise h i).Perm h := by
  induction h, i using rise.induct with
  | case1 h => rw [rise]; exact .rfl
  | case2 h i hpos above hb ih =>
    rw [rise, if_neg hpos, if_pos hb]
    exact ih.trans (swapIfInBounds_perm ..)
  | case3 h i hpos above hb =>
    rw [rise, if_neg hpos, if_neg hb]

theorem sink_perm (h : Array (Entry α)) (i : Nat) : (sink h i).Perm h := by
  induction h, i using sink.induct with
  | case1 h i child hc ih =>
    rw [sink, if_pos hc]
    exact ih.trans (swapIfInBounds_perm ..)
  | case2 h i child hc =>
    rw [sink, if_neg hc]
    exact rise_perm h i

/-- The entries that wait. -/
def entries (q : Frontier α) : List (Entry α) := q.heap.toList

/-- The entries form a heap. -/
def Ordered (q : Frontier α) : Prop := IsHeap q.heap

theorem ordered_empty : (empty : Frontier α).Ordered := fun _ _ => before_of_le_left (Nat.zero_le _)

theorem push_perm (q : Frontier α) (e : Entry α) : (q.push e).entries.Perm (e :: q.entries) := by
  have hp := (rise_perm (q.heap.push e) q.heap.size).toList
  rw [Array.toList_push] at hp
  exact hp.trans (List.perm_append_singleton e q.entries)

theorem pop?_eq_none {q : Frontier α} (h : q.pop? = none) : q.entries = [] := by
  unfold pop? at h
  split at h
  · rename_i h0
    have : q.heap.size = 0 := by simpa using h0
    simpa [entries] using this
  · cases h

/-- The heap without its root, whose place the last entry takes. -/
theorem pop?_eq_some {q q' : Frontier α} {e : Entry α} (h : q.pop? = some (e, q')) :
    q.heap[0]? = some e ∧ q'.heap = sink (q.heap.swapIfInBounds 0 (q.heap.size - 1)).pop 0 := by
  unfold pop? at h
  split at h
  · cases h
  · rename_i top h0
    obtain ⟨rfl, rfl⟩ : top = e ∧ _ = q' := by simpa using h
    exact ⟨h0, rfl⟩

theorem pop?_perm {q q' : Frontier α} {e : Entry α} (h : q.pop? = some (e, q')) :
    q.entries.Perm (e :: q'.entries) := by
  obtain ⟨h0, hq'⟩ := pop?_eq_some h
  obtain ⟨hlt, rfl⟩ := Array.getElem?_eq_some_iff.1 h0
  have hswap := (swapIfInBounds_perm q.heap 0 (q.heap.size - 1)).toList
  have hlast : (q.heap.swapIfInBounds 0 (q.heap.size - 1)).toList =
      (q.heap.swapIfInBounds 0 (q.heap.size - 1)).pop.toList ++ [q.heap[0]] := by
    rw [← Array.toList_push]
    congr 1
    apply Array.ext
    · simp; omega
    · intro i hi hi'
      simp only [Array.getElem_push, Array.size_pop, Array.size_swapIfInBounds, Array.getElem_pop]
      split
      · rfl
      · obtain rfl : i = q.heap.size - 1 := by simp at hi; omega
        exact Array.getElem_swapIfInBounds_right hlt _
  have hsink := (sink_perm (q.heap.swapIfInBounds 0 (q.heap.size - 1)).pop 0).toList
  rw [← hq'] at hsink
  rw [hlast] at hswap
  exact hswap.symm.trans ((List.perm_append_singleton _ _).trans (hsink.symm.cons _))

theorem mem_pop? {q q' : Frontier α} {e x : Entry α} (h : q.pop? = some (e, q')) :
    x ∈ q.entries ↔ x = e ∨ x ∈ q'.entries := by
  rw [(pop?_perm h).mem_iff, List.mem_cons]

section Order
variable [LawfulCost α] {q q' : Frontier α} {e : Entry α}

theorem Ordered.push (o : q.Ordered) (e : Entry α) : (q.push e).Ordered := by
  -- The new entry is a leaf; all others are where they were.
  refine RiseOrder.isHeap ⟨?_, ?_⟩
  · intro i hi hne
    by_cases hlt : i < q.heap.size
    · have := o i hi
      rw [before_eq hlt (by omega)] at this
      rw [before_eq (by simp; omega) (by simp; omega), Array.getElem_push_lt hlt,
        Array.getElem_push_lt (by omega : (i - 1) / 2 < q.heap.size)]
      exact this
    · exact before_of_le_left (by simp; omega)
  · intro _ i hi hp
    exact before_of_le_left (by simp; omega)

theorem Ordered.pop? (o : q.Ordered) (h : q.pop? = some (e, q')) : q'.Ordered := by
  obtain ⟨h0, hq'⟩ := pop?_eq_some h
  obtain ⟨hlt, -⟩ := Array.getElem?_eq_some_iff.1 h0
  rw [Ordered, hq']
  refine SinkOrder.isHeap ⟨?_, fun h => absurd h (Nat.lt_irrefl 0)⟩
  intro i hi hne hp
  by_cases hi' : i < q.heap.size - 1
  · have hold := o i hi
    rw [before_eq (by omega) (by omega)] at hold
    rw [before_eq (by simp; omega) (by simp; omega)]
    simp only [Array.getElem_pop]
    rw [Array.getElem_swapIfInBounds_of_ne_of_ne hne (by omega),
      Array.getElem_swapIfInBounds_of_ne_of_ne hp (by omega)]
    exact hold
  · exact before_of_le_left (by simp; omega)

/-- What comes out of an ordered frontier has nothing before it. -/
theorem Ordered.not_before (o : q.Ordered) (h : q.pop? = some (e, q')) {x : Entry α}
    (hx : x ∈ q.entries) : x.before e = false := by
  obtain ⟨h0, -⟩ := pop?_eq_some h
  obtain ⟨hlt, rfl⟩ := Array.getElem?_eq_some_iff.1 h0
  obtain ⟨i, hi, rfl⟩ := List.mem_iff_getElem.1 hx
  have hroot := o.not_before_root i (by simpa [entries] using hi)
  rwa [before_eq (by simpa [entries] using hi) hlt] at hroot

end Order

end Frontier
end RoadRouting.Network
