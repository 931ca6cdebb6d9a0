import Mathlib.Data.List.Forall2
import Mathlib.Data.List.Perm.Basic
import Std.Data.TreeSet

/-!
# Lists

What holds of lists whatever is listed: results item by item, the items of sets, and lists that are
taken apart by keys.
-/

namespace RoadRouting
set_option autoImplicit false

variable {ε β γ : Type}

/-! ## Results item by item -/

theorem bind_eq_ok {x : Except ε β} {f : β → Except ε γ} {y : γ} :
    (x >>= f) = .ok y ↔ ∃ a, x = .ok a ∧ f a = .ok y := by
  cases x with
  | error e => simp [bind, Except.bind]
  | ok a => simp [bind, Except.bind]

theorem mapM_eq_ok {f : β → Except ε γ} {xs : List β} {ys : List γ}
    (h : xs.mapM f = .ok ys) : List.Forall₂ (fun x y => f x = .ok y) xs ys := by
  induction xs generalizing ys with
  | nil =>
    rw [List.mapM_nil] at h
    cases h
    exact .nil
  | cons x rest ih =>
    rw [List.mapM_cons] at h
    cases hx : f x with
    | error e => simp [hx, bind, Except.bind] at h
    | ok y =>
      cases hr : rest.mapM f with
      | error e => simp [hx, hr, bind, Except.bind] at h
      | ok zs =>
        simp only [hx, hr, bind, Except.bind, pure, Except.pure, Except.ok.injEq] at h
        rw [← h]
        exact .cons hx (ih hr)

/-- When each item has a result, these are the results of all. -/
theorem mapM_map_ok {f : β → Except ε γ} {g : β → γ} {xs : List β} (h : ∀ x ∈ xs, f x = .ok (g x)) :
    xs.mapM f = .ok (xs.map g) := by
  induction xs with
  | nil => rfl
  | cons x rest ih =>
    rw [List.mapM_cons, h x List.mem_cons_self, ih fun y hy => h y (List.mem_cons_of_mem _ hy)]
    rfl

theorem exists_of_mapM_error {f : β → Except ε γ} {xs : List β} {e : ε}
    (h : xs.mapM f = .error e) : ∃ x ∈ xs, f x = .error e := by
  induction xs with
  | nil =>
    rw [List.mapM_nil] at h
    cases h
  | cons x rest ih =>
    rw [List.mapM_cons] at h
    cases hx : f x with
    | error e' =>
      simp only [hx, bind, Except.bind, Except.error.injEq] at h
      exact ⟨x, List.mem_cons_self, h ▸ hx⟩
    | ok y =>
      cases hr : rest.mapM f with
      | error e' =>
        simp only [hx, hr, bind, Except.bind, Except.error.injEq] at h
        obtain ⟨x', hx', he⟩ := ih (h ▸ hr)
        exact ⟨x', List.mem_cons_of_mem _ hx', he⟩
      | ok zs => simp [hx, hr, bind, Except.bind, pure, Except.pure] at h

theorem exists_of_mem_left {R : β → γ → Prop} {xs : List β} {ys : List γ}
    (h : List.Forall₂ R xs ys) {x : β} (hx : x ∈ xs) : ∃ y ∈ ys, R x y := by
  induction h with
  | nil => cases hx
  | cons hr _ ih =>
    rcases List.mem_cons.1 hx with rfl | hx
    · exact ⟨_, List.mem_cons_self, hr⟩
    · obtain ⟨y, hy, hxy⟩ := ih hx
      exact ⟨y, List.mem_cons_of_mem _ hy, hxy⟩

/-- An item without a result leaves the list without one. -/
theorem exists_mapM_error {f : β → Except ε γ} {xs : List β} {x : β} {e : ε} (hx : x ∈ xs)
    (he : f x = .error e) : ∃ y ∈ xs, ∃ e', f y = .error e' ∧ xs.mapM f = .error e' := by
  cases hm : xs.mapM f with
  | error e' =>
    obtain ⟨y, hy, hye⟩ := exists_of_mapM_error hm
    exact ⟨y, hy, e', hye, rfl⟩
  | ok ys =>
    obtain ⟨z, -, hz⟩ := exists_of_mem_left (mapM_eq_ok hm) hx
    rw [he] at hz
    cases hz

/-- All have results when each of them has one. -/
theorem exists_mapM_iff {f : β → Except ε γ} {xs : List β} :
    (∃ ys, xs.mapM f = .ok ys) ↔ ∀ x ∈ xs, ∃ y, f x = .ok y := by
  constructor
  · rintro ⟨ys, h⟩ x hx
    obtain ⟨y, -, hy⟩ := exists_of_mem_left (mapM_eq_ok h) hx
    exact ⟨y, hy⟩
  · intro h
    cases hm : xs.mapM f with
    | ok ys => exact ⟨ys, rfl⟩
    | error e =>
      obtain ⟨x, hx, he⟩ := exists_of_mapM_error hm
      obtain ⟨y, hy⟩ := h x hx
      rw [hy] at he
      cases he

/-- A list of one item at most. -/
theorem eq_nil_or_singleton {xs : List β} {x : β} (hnodup : xs.Nodup) (h : ∀ y ∈ xs, y = x) :
    xs = [] ∨ xs = [x] := by
  have hsame := List.eq_replicate_of_mem h
  rw [hsame, List.nodup_replicate] at hnodup
  rcases Nat.le_one_iff_eq_zero_or_eq_one.1 hnodup with hnone | hone
  · exact .inl (List.length_eq_zero_iff.1 hnone)
  · rw [hone] at hsame
    exact .inr hsame

/-! ## Items at places -/

/-- The items at ascending places come in the order of the list, each once. -/
theorem filterMap_getElem?_sublist {xs : List β} {places : List Nat} (hascending : places.Pairwise (· < ·))
    (hbelow : ∀ i ∈ places, i < xs.length) :
    (places.filterMap (xs[·]?)).Sublist xs ∧ (places.filterMap (xs[·]?)).length = places.length := by
  obtain ⟨fins, rfl, hfins⟩ : ∃ fins : List (Fin xs.length), fins.map (·.val) = places ∧
      fins.Pairwise (· < ·) :=
    ⟨places.pmap Fin.mk hbelow, by simp [List.map_pmap],
      List.Pairwise.pmap hascending hbelow fun _ _ _ _ h => h⟩
  have hitems : (fins.map (·.val)).filterMap (xs[·]?) = fins.map fun i => xs[i] := by
    rw [List.filterMap_map, ← List.filterMap_eq_map]
    congr 1
    funext i
    exact List.getElem?_eq_getElem i.isLt
  rw [hitems, List.length_map, List.length_map]
  exact ⟨List.map_getElem_sublist hfins, rfl⟩

/-! ## What comes first -/

/-- In an ordered list the items of a set come first if the set has all that comes before them. -/
theorem filter_eq_take {r : β → β → Prop} {xs : List β} (hordered : xs.Pairwise r) {P : β → Bool}
    (hP : ∀ x y, r x y → P y → P x) : xs.filter P = xs.take (xs.countP P) := by
  induction xs with
  | nil => rfl
  | cons x rest ih =>
    obtain ⟨hx, hrest⟩ := List.pairwise_cons.1 hordered
    by_cases hin : P x
    · rw [List.filter_cons_of_pos hin, List.countP_cons_of_pos hin, List.take_succ_cons, ih hrest]
    · have hnone : ∀ y ∈ rest, ¬ P y := fun y hy hPy => hin (hP x y (hx y hy) hPy)
      have hcount : rest.countP P = 0 := List.countP_eq_zero.2 hnone
      rw [List.filter_cons_of_neg hin, List.countP_cons_of_neg hin, hcount, List.take_zero,
        List.filter_eq_nil_iff.2 hnone]

/-! ## Texts in order -/

/-- In ascending order it does not matter how texts were listed. -/
theorem sort_eq_of_perm {xs ys : List String} (h : xs.Perm ys) :
    xs.mergeSort (· ≤ ·) = ys.mergeSort (· ≤ ·) := by
  have hordered (zs : List String) : (zs.mergeSort (· ≤ ·)).Pairwise fun a b => decide (a ≤ b) = true := by
    apply List.pairwise_mergeSort
    · intro a b c hab hbc
      exact decide_eq_true (String.le_trans (of_decide_eq_true hab) (of_decide_eq_true hbc))
    · intro a b
      simpa using String.le_total a b
  refine List.Perm.eq_of_pairwise ?_ (hordered xs) (hordered ys)
    ((List.mergeSort_perm xs _).trans (h.trans (List.mergeSort_perm ys _).symm))
  intro a b _ _ hab hba
  exact String.le_antisymm (of_decide_eq_true hab) (of_decide_eq_true hba)

/-! ## Items of sets -/

section Sets
variable {cmp : β → β → Ordering} [Std.TransCmp cmp] [Std.LawfulEqCmp cmp]

theorem nodup_toList (s : Std.TreeSet β cmp) : s.toList.Nodup := by
  refine s.distinct_toList.imp ?_
  intro a b hab heq
  exact hab (Std.LawfulEqCmp.compare_eq_iff_eq.2 heq)

/-- Sets list the same items when they have the same. -/
theorem toList_eq_iff {s t : Std.TreeSet β cmp} :
    s.toList = t.toList ↔ ∀ x, s.contains x = t.contains x := by
  rw [← Std.TreeSet.equiv_iff_toList_eq]
  exact ⟨fun h x => h.contains_eq, .of_forall_contains_eq⟩

theorem contains_foldl_insert {xs : List β} {s : Std.TreeSet β cmp} {x : β} :
    (xs.foldl (fun s y => s.insert y) s).contains x ↔ s.contains x ∨ x ∈ xs := by
  induction xs generalizing s with
  | nil => simp
  | cons y rest ih =>
    rw [List.foldl_cons, ih, Std.TreeSet.contains_insert, Bool.or_eq_true, beq_iff_eq,
      Std.LawfulEqCmp.compare_eq_iff_eq, List.mem_cons, or_comm (a := y = x), or_assoc, eq_comm (a := y)]

end Sets

/-! ## Taking apart by keys -/

section Keys
variable {κ : Type} [DecidableEq κ] {key : β → Option κ}

/-- Items that each have one of some keys come back when they are collected key by key. -/
theorem flatMap_filter_perm {keys : List κ} (hkeys : keys.Nodup) {xs : List β}
    (h : ∀ x ∈ xs, ∃ k ∈ keys, key x = some k) :
    (keys.flatMap fun k => xs.filter fun x => key x = some k).Perm xs := by
  induction keys generalizing xs with
  | nil =>
    cases xs with
    | nil => exact .nil
    | cons x rest =>
      obtain ⟨k, hk, -⟩ := h x List.mem_cons_self
      cases hk
  | cons k rest ih =>
    obtain ⟨hk, hrest⟩ := List.nodup_cons.1 hkeys
    -- The other keys find their items among those that do not have the first one.
    have hothers : (rest.flatMap fun k' => xs.filter fun x => key x = some k') =
        rest.flatMap fun k' => (xs.filter fun x => ¬ key x = some k).filter fun x => key x = some k' := by
      refine List.flatMap_congr fun k' hk' => ?_
      rw [List.filter_filter]
      refine List.filter_congr fun x _ => ?_
      have hne : k' ≠ k := by
        rintro rfl
        exact hk hk'
      by_cases hx : key x = some k'
      · simp [hx, hne]
      · simp [hx]
    rw [List.flatMap_cons, hothers]
    have hleft : ∀ x ∈ xs.filter (fun x => ¬ key x = some k), ∃ k' ∈ rest, key x = some k' := by
      intro x hx
      obtain ⟨hmem, hnot⟩ := List.mem_filter.1 hx
      obtain ⟨k', hk', hkey⟩ := h x hmem
      rcases List.mem_cons.1 hk' with rfl | hk'
      · exact absurd hkey (of_decide_eq_true hnot)
      · exact ⟨k', hk', hkey⟩
    exact ((ih hrest hleft).append_left _).trans (by simpa using List.filter_append_perm _ xs)

omit [DecidableEq κ] in
/-- What is listed key by key, each item under its own key, is found again under it. -/
theorem filter_flatMap_eq {keys : List κ} (hkeys : keys.Nodup) {f : κ → List β} {P : κ → β → Bool}
    (h : ∀ k k', ∀ x ∈ f k', P k x = true ↔ k' = k) {k : κ} (hk : k ∈ keys) :
    (keys.flatMap f).filter (P k) = f k := by
  have hown : (f k).filter (P k) = f k := List.filter_eq_self.2 fun x hx => (h k k x hx).2 rfl
  have hothers {ks : List κ} (hks : k ∉ ks) : (ks.flatMap f).filter (P k) = [] := by
    rw [List.filter_eq_nil_iff]
    intro x hx hP
    obtain ⟨k', hk', hx⟩ := List.mem_flatMap.1 hx
    exact hks ((h k k' x hx).1 hP ▸ hk')
  induction keys with
  | nil => cases hk
  | cons k' rest ih =>
    obtain ⟨hk', hrest⟩ := List.nodup_cons.1 hkeys
    rw [List.flatMap_cons, List.filter_append]
    rcases List.mem_cons.1 hk with rfl | hk
    · rw [hown, hothers hk', List.append_nil]
    · have hne : k ∉ [k'] := by
        rintro hmem
        exact hk' (List.mem_singleton.1 hmem ▸ hk)
      have hnone := hothers hne
      rw [List.flatMap_singleton] at hnone
      rw [hnone, ih hrest hk, List.nil_append]

end Keys
/-! ## Parts between two ends -/

/-- A part with none of the items of the front lies behind it. -/
theorem exists_behind {front rest left part right : List β} (h : front ++ rest = left ++ part ++ right)
    (hne : part ≠ []) (hfront : ∀ x ∈ part, x ∉ front) :
    ∃ l, left = front ++ l ∧ rest = l ++ part ++ right := by
  rw [List.append_assoc, List.append_eq_append_iff] at h
  rcases h with ⟨l, hleft, hrest⟩ | ⟨overlap, hoverlap, hpart⟩
  · exact ⟨l, hleft, by rw [hrest, List.append_assoc]⟩
  · cases overlap with
    | nil => exact ⟨[], by rw [hoverlap, List.append_nil, List.append_nil], by simpa using hpart.symm⟩
    | cons x overlap =>
      cases part with
      | nil => exact absurd rfl hne
      | cons y part =>
        obtain ⟨rfl, -⟩ := List.cons_eq_cons.1 hpart
        exact absurd (by rw [hoverlap]; simp) (hfront y List.mem_cons_self)

/-- A part with none of the items of both ends lies between them. -/
theorem exists_between {front inner back left part right : List β}
    (h : front ++ inner ++ back = left ++ part ++ right) (hne : part ≠ [])
    (hfront : ∀ x ∈ part, x ∉ front) (hback : ∀ x ∈ part, x ∉ back) :
    ∃ l r, left = front ++ l ∧ right = r ++ back ∧ inner = l ++ part ++ r := by
  rw [List.append_assoc] at h
  obtain ⟨l, hleft, hrest⟩ := exists_behind h hne hfront
  have hreverse : back.reverse ++ inner.reverse = right.reverse ++ part.reverse ++ l.reverse := by
    rw [← List.reverse_append, hrest]
    simp
  obtain ⟨r, hright, hinner⟩ := exists_behind hreverse (fun heq => hne (List.reverse_eq_nil_iff.1 heq))
    fun x hx hmem => hback x (List.mem_reverse.1 hx) (List.mem_reverse.1 hmem)
  refine ⟨l, r.reverse, hleft, ?_, ?_⟩
  · rw [← List.reverse_inj, hright, List.reverse_append, List.reverse_reverse]
  · rw [← List.reverse_inj, hinner]
    simp

end RoadRouting
