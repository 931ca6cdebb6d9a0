import Mathlib.Data.List.Flatten
import Mathlib.Data.List.Perm.Basic
import RoadRouting.Snap.Packing

/-!
# Packing loses nothing

Bringing items into an order by pivots rearranges them (`select_perm`), and cutting them into slabs and
clusters puts each into one. So each entry is visited exactly once, whatever the coordinates are
(`visitOrder_perm`). What keeps entries from being packed is only that there are many of them and some
coordinate is no number (`isPackable_iff`).
-/

namespace RoadRouting.Snap
set_option autoImplicit false

variable {α : Type}

theorem rotateLeft_perm (v : List α) : v.rotateLeft.Perm v := by
  unfold List.rotateLeft
  simp only
  split
  · exact .refl v
  · exact List.perm_append_comm.trans (.of_eq (List.take_append_drop _ v))

theorem rotateRight_perm (v : List α) : v.rotateRight.Perm v := by
  unfold List.rotateRight
  simp only
  split
  · exact .refl v
  · exact List.perm_append_comm.trans (.of_eq (List.take_append_drop _ v))

theorem sift_perm (below : α → Bool) (sides : List α × List α) (x : α) :
    ((sift below sides x).1 ++ (sift below sides x).2).Perm (x :: (sides.1 ++ sides.2)) := by
  unfold sift
  split
  · have hmove : (sides.1 ++ [x] ++ sides.2.rotateLeft).Perm (sides.1 ++ x :: sides.2) := by
      rw [List.append_assoc]
      exact ((rotateLeft_perm _).cons x).append_left _
    exact hmove.trans List.perm_middle
  · exact List.perm_middle.trans (((rotateLeft_perm _).append_left _).cons x)

theorem foldl_sift_perm (below : α → Bool) (v : List α) (sides : List α × List α) :
    ((v.foldl (sift below) sides).1 ++ (v.foldl (sift below) sides).2).Perm
      (sides.1 ++ sides.2 ++ v) := by
  induction v generalizing sides with
  | nil => simp
  | cons x rest ih =>
    rw [List.foldl_cons]
    exact (ih _).trans (((sift_perm below sides x).append_right rest).trans List.perm_middle.symm)

/-- An item that takes the place of another one brings that one to the front. -/
theorem cons_set_perm {v : List α} {n : Nat} {y : α} (h : v[n]? = some y) (x : α) :
    (y :: v.set n x).Perm (x :: v) := by
  obtain ⟨hn, rfl⟩ := List.getElem?_eq_some_iff.1 h
  have hset := (List.set_perm_cons_eraseIdx hn x).cons v[n]
  exact hset.trans ((List.Perm.swap _ _ _).trans ((List.getElem_cons_eraseIdx_perm hn).cons x))

theorem splitAround_perm {less : α → α → Bool} {v low high : List α} {position : Nat} {pivot : α}
    (h : splitAround less v position = some (low, pivot, high)) :
    (low ++ pivot :: high).Perm v := by
  unfold splitAround at h
  cases v with
  | nil => simp at h
  | cons first rest =>
    cases hp : (first :: rest)[position]? with
    | none => simp [hp] at h
    | some p =>
      simp only [List.head?_cons, hp, bind, Option.bind, pure, Option.some.injEq, Prod.mk.injEq] at h
      obtain ⟨rfl, rfl, rfl⟩ := h
      have hothers : (p :: ((first :: rest).set position first).tail).Perm (first :: rest) := by
        cases position with
        | zero =>
          cases hp
          exact .refl _
        | succ n => exact cons_set_perm (v := rest) hp first
      have hsides := foldl_sift_perm (less · p)
        ((first :: rest).set position first).tail.rotateLeft ([], [])
      exact ((rotateRight_perm _).append_right _).trans (List.perm_middle.trans
        (((hsides.trans (rotateLeft_perm _)).cons p).trans hothers))

theorem sorted_perm (less : α → α → Bool) (v : List α) : (sorted less v).Perm v :=
  List.mergeSort_perm v _

theorem selectWithin_perm (less : α → α → Bool) (rounds : Nat) (floor : Option α) (v : List α)
    (k : Nat) : (selectWithin less rounds floor v k).Perm v := by
  induction rounds generalizing floor v k with
  | zero => exact sorted_perm less v
  | succ rounds ih =>
    unfold selectWithin
    split
    · exact sorted_perm less v
    · simp only
      split
      · exact .refl v
      · rename_i low pivot high hsplit
        have hperm := splitAround_perm hsplit
        by_cases hlow : low.length < k
        · rw [if_pos hlow]
          exact (((ih _ high _).cons pivot).append_left low).trans hperm
        · rw [if_neg hlow]
          split_ifs
          · exact ((ih _ low _).append_right _).trans hperm
          · exact hperm

/-- Two items that change places. -/
theorem exchange_perm {v : List α} {i k : Nat} {x y : α} (hx : v[i]? = some x) (hy : v[k]? = some y) :
    ((v.set i y).set k x).Perm v := by
  obtain ⟨hi, rfl⟩ := List.getElem?_eq_some_iff.1 hx
  obtain ⟨hk, rfl⟩ := List.getElem?_eq_some_iff.1 hy
  exact List.set_set_perm hi hk

theorem select_perm (less : α → α → Bool) (v : List α) (k : Nat) : (select less v k).Perm v := by
  unfold select
  split
  · simp only
    split
    · rename_i x y hx hy
      exact exchange_perm hx hy
    · exact .refl v
  · exact selectWithin_perm less 16 none v k

theorem flatten_slabs_perm (less : α → α → Bool) (size count : Nat) (v : List α) :
    (slabs less size count v).flatten.Perm v := by
  induction count generalizing v with
  | zero => simp [slabs]
  | succ count ih =>
    unfold slabs
    split
    · simp
    · have hrest := (ih ((select less v size).drop size)).append_left ((select less v size).take size)
      rw [List.take_append_drop] at hrest
      exact hrest.trans (select_perm less v size)

theorem visitWithin_perm (depth : Nat) (entries : List Entry) :
    (visitWithin depth entries).Perm entries := by
  have hcut (axis : Point → Float) (parts : Nat) (es : List Entry) {visit : List Entry → List Entry}
      (hvisit : ∀ slab, (visit slab).Perm slab) :
      ((cutAlong axis parts es).flatMap visit).Perm es := by
    refine (List.Perm.flatMap_left _ fun slab _ => hvisit slab).trans ?_
    rw [List.flatMap_id']
    exact flatten_slabs_perm _ _ _ es
  induction depth generalizing entries with
  | zero => exact List.reverse_perm entries
  | succ depth ih =>
    unfold visitWithin
    split
    · exact List.reverse_perm entries
    · exact hcut _ _ _ fun slab => hcut _ _ slab ih

/-- Each entry is visited exactly once. -/
theorem visitOrder_perm (entries : List Entry) : (visitOrder entries).Perm entries :=
  visitWithin_perm _ entries

theorem isPackable_iff {entries : List Entry} : isPackable entries = true ↔
    entries.length ≤ maxChildren ∨ ∀ e ∈ entries, e.position.isNumeric = true := by
  unfold isPackable
  rw [Bool.or_eq_true, decide_eq_true_iff, List.all_eq_true]

theorem isPackable_of_numeric {entries : List Entry} (h : ∀ e ∈ entries, e.position.isNumeric = true) :
    isPackable entries = true :=
  isPackable_iff.2 (.inr h)

end RoadRouting.Snap
