import RoadRouting.Proofs.Float.Bits
import RoadRouting.Snap.Index

/-!
# The memory of a snap index

A remembered answer is the one that looking through the entries would give (`Index.Remembers`), since a
question has the bits of its radius in it. So `Index.nearest` answers what `Index.snap` does without a
memory, and each answer is an entry of the index.
-/

namespace RoadRouting.Snap
set_option autoImplicit false

theorem better_eq_or (a b : Float × Entry) : better a b = a ∨ better a b = b := by
  unfold better
  split
  · exact .inr rfl
  · exact .inl rfl

theorem foldl_better_mem (first : Float × Entry) (rest : List (Float × Entry)) :
    rest.foldl better first ∈ first :: rest := by
  induction rest generalizing first with
  | nil => exact List.mem_singleton_self _
  | cons x rest ih =>
    rcases List.mem_cons.1 (ih (better first x)) with h | h
    · rcases better_eq_or first x with hb | hb
      · rw [List.foldl_cons, h, hb]
        exact List.mem_cons_self
      · rw [List.foldl_cons, h, hb]
        exact List.mem_cons_of_mem _ List.mem_cons_self
    · exact List.mem_cons_of_mem _ (List.mem_cons_of_mem _ h)

theorem mem_of_bestOf? {entries : List Entry} {p : Point} {d : Float} {e : Entry}
    (h : bestOf? entries p = some (d, e)) : e ∈ entries := by
  unfold bestOf? at h
  split at h
  · cases h
  · rename_i first rest hm
    have hmem := foldl_better_mem first rest
    rw [Option.some.inj h, ← hm] at hmem
    obtain ⟨x, hx, hxe⟩ := List.mem_map.1 hmem
    cases hxe
    exact hx

theorem mem_of_mem_firstByDegrees {entries : List Entry} {count : Nat} {p : Point} {e : Entry}
    (h : e ∈ firstByDegrees entries count p) : e ∈ entries := by
  obtain ⟨x, hx, rfl⟩ := List.mem_map.1 h
  obtain ⟨y, hy, rfl⟩ := List.mem_map.1 (List.mem_mergeSort.1 (List.mem_of_mem_take hx))
  exact hy

/-- The hit stands for the entry. -/
structure Hit.Of (hit : Hit) (e : Entry) : Prop where
  id : hit.id = e.id
  position : hit.position = e.position
  cell : hit.cell.raw = e.partition

theorem Entry.hit?_of {e : Entry} {d : Float} {hit : Hit} (h : e.hit? d = some hit) : hit.Of e := by
  unfold Entry.hit? Grid.Cell.ofRaw at h
  split at h
  · rename_i cell hc
    split at hc
    · cases hc
      cases h
      exact ⟨rfl, rfl, rfl⟩
    · cases hc
  · cases h

/-- Looking through entries gives an answer just when they can be put in order. -/
theorem scan_eq (entries : List Entry) (options : Options) (p : Point) (radius : Float) :
    scan entries options p radius =
      if isSearchable entries p then
        .ok (answerOf (firstByDegrees entries options.candidates p) p radius)
      else .error .incomparable := by
  unfold scan candidatesFor
  split <;> rfl

theorem scan_eq_ok_iff {entries : List Entry} {options : Options} {p : Point} {radius : Float}
    {answer : Option Hit} : scan entries options p radius = .ok answer ↔ isSearchable entries p ∧
      answerOf (firstByDegrees entries options.candidates p) p radius = answer := by
  rw [scan_eq]
  split
  · rename_i hs
    rw [Except.ok.injEq, and_iff_right hs]
  · rename_i hs
    exact ⟨nofun, fun h => absurd h.1 hs⟩

/-- What is answered is one of the candidates. -/
theorem answerOf_of {candidates : List Entry} {p : Point} {radius : Float} {hit : Hit}
    (h : answerOf candidates p radius = some hit) : ∃ e ∈ candidates, hit.Of e := by
  unfold answerOf at h
  split at h
  · rename_i d e hb
    split at h
    · exact ⟨e, mem_of_bestOf? hb, Entry.hit?_of h⟩
    · cases h
  · cases h

namespace Index
variable {ix : Index} {p : Point} {radius : Float}

/-- The sampled node nearest to a point within a radius, without a look at the memory. -/
def snap (ix : Index) (p : Point) (radius : Float) : Except Breakdown (Option Hit) :=
  if isQuery p radius then
    scan ix.entries ix.options ((Question.of ix.options p radius).point ix.options) radius
  else .ok none

/-- The ways in which a call ends: it is none that can be answered, its answer is remembered, the
entries are looked through, or that breaks down. -/
inductive Called (ix : Index) (p : Point) (radius : Float) : Except Breakdown (Option Hit) × Index → Prop
  | refused : isQuery p radius = false → Called ix p radius (.ok none, ix)
  | known {answer : Option Hit} : isQuery p radius = true →
      ix.memo[Question.of ix.options p radius]? = some answer →
      Called ix p radius (.ok answer, { ix with hits := ix.hits + 1 })
  | found {answer : Option Hit} : isQuery p radius = true →
      ix.memo[Question.of ix.options p radius]? = none → ix.snap p radius = .ok answer →
      Called ix p radius (.ok answer,
        { ix with misses := ix.misses + 1 }.remember (Question.of ix.options p radius) answer)
  | broken {b : Breakdown} : isQuery p radius = true →
      ix.memo[Question.of ix.options p radius]? = none → ix.snap p radius = .error b →
      Called ix p radius (.error b, { ix with misses := ix.misses + 1 })

theorem nearest_called (ix : Index) (p : Point) (radius : Float) :
    Called ix p radius (ix.nearest p radius) := by
  unfold nearest
  cases hquery : isQuery p radius with
  | false => exact .refused hquery
  | true =>
    have hsnap : ix.snap p radius =
        scan ix.entries ix.options ((Question.of ix.options p radius).point ix.options) radius := by
      unfold snap
      rw [if_pos hquery]
    simp only [if_true]
    cases hm : ix.memo[Question.of ix.options p radius]? with
    | some answer => exact .known hquery hm
    | none =>
      simp only [← hsnap]
      cases hs : ix.snap p radius with
      | ok answer => exact .found hquery hm hs
      | error b => exact .broken hquery hm hs

/-- All that is remembered is right. -/
def Remembers (ix : Index) : Prop :=
  ∀ (q : Question) (answer : Option Hit), ix.memo[q]? = some answer → ∀ radius : Float,
    radius.toBits = q.radius → scan ix.entries ix.options (q.point ix.options) radius = .ok answer

theorem Remembers.of_memo_empty (h : ix.memo = ∅) : ix.Remembers := by
  intro q answer hq
  simp [h] at hq

/-- The same index, but for its memory. -/
structure Agrees (ix ix' : Index) : Prop where
  entries : ix'.entries = ix.entries
  options : ix'.options = ix.options

theorem nearest_agrees (ix : Index) (p : Point) (radius : Float) :
    ix.Agrees (ix.nearest p radius).2 := by
  have h := ix.nearest_called p radius
  generalize ix.nearest p radius = reply at h ⊢
  cases h with
  | refused _ | known _ _ | broken _ _ _ => exact ⟨rfl, rfl⟩
  | found _ _ _ =>
    unfold remember
    split <;> exact ⟨rfl, rfl⟩

theorem Agrees.snap {ix' : Index} (h : ix.Agrees ix') : ix'.snap p radius = ix.snap p radius := by
  unfold Index.snap
  rw [h.entries, h.options]

theorem Agrees.trans {ix' ix'' : Index} (h : ix.Agrees ix') (h' : ix'.Agrees ix'') :
    ix.Agrees ix'' :=
  ⟨h'.entries.trans h.entries, h'.options.trans h.options⟩

/-- What is answered is one of the candidates. -/
theorem candidate_of_snap {hit : Hit} (h : ix.snap p radius = .ok (some hit)) :
    ∃ e ∈ firstByDegrees ix.entries ix.options.candidates
      ((Question.of ix.options p radius).point ix.options), hit.Of e := by
  unfold snap at h
  split at h
  · exact answerOf_of (scan_eq_ok_iff.1 h).2
  · cases h

/-- So it is an entry. -/
theorem snap_of {hit : Hit} (h : ix.snap p radius = .ok (some hit)) : ∃ e ∈ ix.entries, hit.Of e := by
  obtain ⟨e, he, hof⟩ := candidate_of_snap h
  exact ⟨e, mem_of_mem_firstByDegrees he, hof⟩

/-- An index answers as it would without a memory. -/
theorem Remembers.nearest_eq (hr : ix.Remembers) (p : Point) (radius : Float) :
    (ix.nearest p radius).1 = ix.snap p radius := by
  have h := ix.nearest_called p radius
  generalize ix.nearest p radius = reply at h ⊢
  cases h with
  | refused hquery =>
    unfold snap
    rw [hquery]
    rfl
  | known hquery hm =>
    unfold snap
    rw [if_pos hquery]
    exact (hr _ _ hm radius rfl).symm
  | found _ _ hs => exact hs.symm
  | broken _ _ hs => exact hs.symm

/-- What is remembered stays right. -/
theorem Remembers.nearest (hr : ix.Remembers) (p : Point) (radius : Float) :
    (ix.nearest p radius).2.Remembers := by
  have h := ix.nearest_called p radius
  generalize ix.nearest p radius = reply at h ⊢
  cases h with
  | refused _ | known _ _ | broken _ _ _ => exact hr
  | found hquery _ hs =>
    unfold remember
    split
    · intro q answer' hq r hqr
      simp only [Std.HashMap.getElem?_insert] at hq
      split at hq
      · rename_i hk
        cases hq
        obtain rfl : Question.of ix.options p radius = q := eq_of_beq hk
        obtain rfl : r = radius := Binary64.toBits_injective hqr
        unfold snap at hs
        rwa [if_pos hquery] at hs
      · exact hr q answer' hq r hqr
    · exact hr

end Index
end RoadRouting.Snap
