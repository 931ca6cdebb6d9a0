import RoadRouting.Proofs.Float.Numbers
import RoadRouting.Proofs.Snap.Agreement
import RoadRouting.Proofs.Snap.Lossless

/-!
# Queries one after the other

Nobody can tell from its answers what an index was asked before (`Made.transparent`): each answer is
that of an index of the same entries that was never asked anything, so it depends on the rounded query
and its radius alone. What the index remembers only grows, up to its capacity, and what it counts are
the queries. None of them breaks down when the entries have finite coordinates (`exists_snap`).
-/

namespace RoadRouting.Snap
set_option autoImplicit false
open Store (Disk Path)

/-- What an index is asked: from where, and how far away an answer may be. -/
structure Call where
  point : Point
  radius : Float

namespace Index
variable {ix : Index}

/-- The index after some calls. -/
def after (ix : Index) (calls : List Call) : Index :=
  calls.foldl (fun i c => (i.nearest c.point c.radius).2) ix

/-- An index as it is made: of entries, or of what was archived. -/
inductive Made : Index → Prop
  | ofEntries {entries : List Entry} {header : Header} {options : Options} {ix : Index} :
      ofEntries entries header options = .ok ix → Made ix
  | load {disk : Disk} {dir : Path} {expected : Header} {options : Options} {ix : Index} :
      load disk dir expected options = .ok (some ix) → Made ix

/-- An index that was not asked yet. -/
structure Unasked (ix : Index) : Prop where
  memo : ix.memo = ∅
  hits : ix.hits = 0
  misses : ix.misses = 0

theorem Made.unasked (h : ix.Made) : ix.Unasked := by
  cases h with
  | ofEntries h =>
    obtain ⟨-, rfl⟩ := ofEntries_eq_ok_iff.1 h
    exact ⟨rfl, rfl, rfl⟩
  | load h =>
    obtain ⟨_, _, _, _, hix⟩ := load_eq_some_iff.1 h
    rw [hix]
    exact ⟨rfl, rfl, rfl⟩

/-- The entries of an index can be packed again. -/
theorem Made.isPackable (h : ix.Made) : isPackable ix.entries := by
  cases h with
  | ofEntries h =>
    obtain ⟨hpackable, rfl⟩ := ofEntries_eq_ok_iff.1 h
    exact hpackable
  | load h =>
    obtain ⟨_, -, -, haccepted, -⟩ := load_eq_some_iff.1 h
    exact haccepted.isPackable

/-! ## Breakdowns -/

theorem isSearchable_iff {entries : List Entry} {p : Point} : isSearchable entries p = true ↔
    entries.length ≤ 1 ∨ ∀ e ∈ entries, (sqDegrees e.position p).isNaN = false := by
  unfold isSearchable
  simp

/-- The squared distance in degrees between a finite point and any other is a number. -/
theorem isNaN_sqDegrees {a b : Point} (hlat : a.lat.isFinite = true) (hlon : a.lon.isFinite = true)
    (hb : b.isNumeric = true) : (sqDegrees a b).isNaN = false := by
  obtain ⟨hblat, hblon⟩ := Point.isNumeric_iff.1 hb
  have hdlat := Binary64.isPositive_mul_self (Binary64.isNaN_sub hlat hblat)
  have hdlon := Binary64.isPositive_mul_self (Binary64.isNaN_sub hlon hblon)
  exact (hdlon.add hdlat).isNaN

/-- Up to nine decimals, a rounded query stands for a point whose coordinates are numbers. -/
theorem isNumeric_point {options : Options} (h : options.decimals ≤ 9) (q : Question) :
    (q.point options).isNumeric = true := by
  have hscale : ∀ d < 10, 0 < Binary64.bits (scaleOf d) ∧
      Binary64.bits (scaleOf d) < Binary64.infinityBits := by decide +kernel
  obtain ⟨hpos, hfinite⟩ := hscale options.decimals (by omega)
  exact Point.isNumeric_iff.2
    ⟨Binary64.isNaN_div (Binary64.isNaN_ofInt q.lat) hfinite.le hpos hfinite,
      Binary64.isNaN_div (Binary64.isNaN_ofInt q.lon) hfinite.le hpos hfinite⟩

/-- So finite entries can be put in order as seen from that point. -/
theorem isSearchable_point {entries : List Entry} {options : Options} (hdecimals : options.decimals ≤ 9)
    (hfinite : ∀ e ∈ entries, e.position.lat.isFinite = true ∧ e.position.lon.isFinite = true)
    (q : Question) : isSearchable entries (q.point options) = true :=
  isSearchable_iff.2 (.inr fun e he =>
    isNaN_sqDegrees (hfinite e he).1 (hfinite e he).2 (isNumeric_point hdecimals q))

/-- No query that is rounded to up to nine decimals breaks down among finite entries. -/
theorem exists_snap (p : Point) (radius : Float) (hdecimals : ix.options.decimals ≤ 9)
    (hfinite : ∀ e ∈ ix.entries, e.position.lat.isFinite = true ∧ e.position.lon.isFinite = true) :
    ∃ answer, ix.snap p radius = .ok answer := by
  unfold snap
  split
  · exact ⟨_, scan_eq_ok_iff.2 ⟨isSearchable_point hdecimals hfinite _, rfl⟩⟩
  · exact ⟨none, rfl⟩

/-! ## One call -/

/-- What is remembered is answered from memory. -/
theorem nearest_of_memo {p : Point} {radius : Float} {answer : Option Hit} (hquery : isQuery p radius = true)
    (hm : ix.memo[Question.of ix.options p radius]? = some answer) :
    ix.nearest p radius = (.ok answer, { ix with hits := ix.hits + 1 }) := by
  unfold nearest
  rw [if_pos hquery]
  dsimp only
  rw [hm]

/-- What is not remembered is looked for. -/
theorem nearest_of_new {p : Point} {radius : Float} {answer : Option Hit} (hquery : isQuery p radius = true)
    (hm : ix.memo[Question.of ix.options p radius]? = none) (hs : ix.snap p radius = .ok answer) :
    ix.nearest p radius = (.ok answer,
      { ix with misses := ix.misses + 1 }.remember (Question.of ix.options p radius) answer) := by
  unfold snap at hs
  rw [if_pos hquery] at hs
  unfold nearest
  rw [if_pos hquery]
  dsimp only
  rw [hm, hs]

/-- A query that was answered while there was room is answered from memory when it comes again. -/
theorem nearest_again {p : Point} {radius : Float} {answer : Option Hit} (hquery : isQuery p radius = true)
    (hroom : ix.memo.size < ix.options.memoCapacity) (h : (ix.nearest p radius).1 = .ok answer) :
    (ix.nearest p radius).2.nearest p radius =
      (.ok answer, { (ix.nearest p radius).2 with hits := (ix.nearest p radius).2.hits + 1 }) := by
  apply nearest_of_memo hquery
  have hcalled := ix.nearest_called p radius
  generalize ix.nearest p radius = reply at h hcalled ⊢
  cases hcalled with
  | refused hno => exact absurd hquery (hno ▸ Bool.false_ne_true)
  | known _ hm =>
    cases h
    exact hm
  | found _ _ _ =>
    cases h
    unfold remember
    rw [if_pos hroom]
    exact Std.HashMap.getElem?_insert_self
  | broken _ _ _ => cases h

theorem size_remember (ix : Index) {q : Question} (hq : ix.memo[q]? = none) (answer : Option Hit) :
    (ix.remember q answer).memo.size =
      if ix.memo.size < ix.options.memoCapacity then ix.memo.size + 1 else ix.memo.size := by
  have hnew : q ∉ ix.memo := by
    rw [Std.HashMap.mem_iff_isSome_getElem?, hq]
    exact Bool.false_ne_true
  unfold remember
  split
  · rw [Std.HashMap.size_insert, if_neg hnew]
  · rfl

theorem counts_remember (ix : Index) (q : Question) (answer : Option Hit) :
    (ix.remember q answer).hits = ix.hits ∧ (ix.remember q answer).misses = ix.misses := by
  unfold remember
  split <;> exact ⟨rfl, rfl⟩

/-- What is remembered is not forgotten, and does not exceed the capacity if it did not. -/
theorem size_nearest (ix : Index) (p : Point) (radius : Float) :
    ix.memo.size ≤ (ix.nearest p radius).2.memo.size ∧ (ix.memo.size ≤ ix.options.memoCapacity →
      (ix.nearest p radius).2.memo.size ≤ ix.options.memoCapacity) := by
  have h := ix.nearest_called p radius
  generalize ix.nearest p radius = reply at h ⊢
  cases h with
  | refused _ | known _ _ | broken _ _ _ => exact ⟨le_refl _, id⟩
  | found _ hm _ =>
    rw [size_remember { ix with misses := ix.misses + 1 } hm]
    dsimp only
    split <;> omega

theorem counts_nearest (ix : Index) (p : Point) (radius : Float) :
    (ix.nearest p radius).2.hits + (ix.nearest p radius).2.misses =
      ix.hits + ix.misses + if isQuery p radius then 1 else 0 := by
  have h := ix.nearest_called p radius
  generalize ix.nearest p radius = reply at h ⊢
  cases h with
  | refused hquery =>
    rw [hquery]
    rfl
  | known hquery _ | broken hquery _ _ =>
    rw [hquery, if_pos rfl]
    dsimp only
    omega
  | @found answer hquery _ _ =>
    obtain ⟨hhits, hmisses⟩ := counts_remember { ix with misses := ix.misses + 1 }
      (Question.of ix.options p radius) answer
    rw [hquery, hhits, hmisses, if_pos rfl]
    dsimp only
    omega

/-! ## Any number of calls -/

theorem after_append (ix : Index) (calls more : List Call) :
    ix.after (calls ++ more) = (ix.after calls).after more := List.foldl_append

theorem after_snoc (ix : Index) (calls : List Call) (c : Call) :
    ix.after (calls ++ [c]) = ((ix.after calls).nearest c.point c.radius).2 := by
  rw [after_append]
  rfl

theorem asked_after (ix : Index) (calls : List Call) : ix.Asked (ix.after calls) := by
  induction calls using List.reverseRecOn with
  | nil => exact .start
  | append_singleton calls c ih =>
    rw [after_snoc]
    exact .nearest c.point c.radius ih

theorem size_le_after (ix : Index) (calls : List Call) :
    ix.memo.size ≤ (ix.after calls).memo.size := by
  induction calls using List.reverseRecOn with
  | nil => exact le_refl _
  | append_singleton calls c ih =>
    rw [after_snoc]
    exact ih.trans (size_nearest _ _ _).1

theorem Unasked.size_after_le (h : ix.Unasked) (calls : List Call) :
    (ix.after calls).memo.size ≤ ix.options.memoCapacity := by
  induction calls using List.reverseRecOn with
  | nil =>
    have hsize : (ix.after []).memo.size = 0 := by
      show ix.memo.size = 0
      rw [h.memo, Std.HashMap.size_empty]
    omega
  | append_singleton calls c ih =>
    rw [after_snoc]
    rw [← (ix.asked_after calls).agrees.options] at ih ⊢
    exact (size_nearest _ _ _).2 ih

theorem Unasked.counts_after (h : ix.Unasked) (calls : List Call) :
    (ix.after calls).hits + (ix.after calls).misses =
      calls.countP fun c => isQuery c.point c.radius := by
  induction calls using List.reverseRecOn with
  | nil =>
    show ix.hits + ix.misses = 0
    rw [h.hits, h.misses]
  | append_singleton calls c ih =>
    rw [after_snoc, counts_nearest, ih, List.countP_append, List.countP_singleton]

/-- A share of nothing is nothing, and any other share of counts of 64 bits lies between nothing and
one. -/
theorem hitRate_mem (h : ix.hits + ix.misses < 2 ^ 64) : 0 ≤ ix.hitRate ∧ ix.hitRate ≤ 1 := by
  unfold hitRate
  by_cases hzero : ix.hits + ix.misses = 0
  · simp only [if_pos hzero]
    exact ⟨by decide +kernel, by decide +kernel⟩
  · simp only [if_neg hzero]
    exact Binary64.share_le_one (by omega) (by omega) h

/-- A question of a point on the globe has the same answer as any that is rounded to the same. -/
theorem snap_congr {p p' : Point} {radius radius' : Float} (hp : p.isValid) (hp' : p'.isValid)
    (hsame : Question.of ix.options p radius = Question.of ix.options p' radius') :
    ix.snap p radius = ix.snap p' radius' := by
  have hradius : radius = radius' := Binary64.toBits_injective (congrArg Question.radius hsame)
  subst hradius
  unfold snap isQuery
  rw [hp, hp', hsame]

/-- What an index was asked before cannot be told from what it answers, and it keeps count. -/
structure Transparent (ix : Index) : Prop where
  /-- The same entries make an index that was not asked before, and every call is answered as by it. -/
  answer : ∀ header : Header, ∃ fresh, ofEntries ix.entries header ix.options = .ok fresh ∧
    ∀ (calls : List Call) (p : Point) (radius : Float),
      ((ix.after calls).nearest p radius).1 = (fresh.nearest p radius).1
  /-- Points on the globe that are rounded to the same are answered the same, whenever asked. -/
  rounded : ∀ (calls calls' : List Call) (p p' : Point) (radius radius' : Float), p.isValid →
    p'.isValid → Question.of ix.options p radius = Question.of ix.options p' radius' →
    ((ix.after calls).nearest p radius).1 = ((ix.after calls').nearest p' radius').1
  bounded : ∀ calls : List Call, (ix.after calls).memo.size ≤ ix.options.memoCapacity
  growing : ∀ calls more : List Call,
    (ix.after calls).memo.size ≤ (ix.after (calls ++ more)).memo.size
  counted : ∀ calls : List Call, (ix.after calls).hits + (ix.after calls).misses =
    calls.countP fun c => isQuery c.point c.radius
  /-- The counts are taken to be of 64 bits. -/
  rate : ∀ calls : List Call, (ix.after calls).hits + (ix.after calls).misses < 2 ^ 64 →
    0 ≤ (ix.after calls).hitRate ∧ (ix.after calls).hitRate ≤ 1

theorem Made.transparent (h : ix.Made) : ix.Transparent := by
  have hu := h.unasked
  have hsnap (calls : List Call) (p : Point) (radius : Float) :
      ((ix.after calls).nearest p radius).1 = ix.snap p radius := by
    have hasked := ix.asked_after calls
    rw [(hasked.remembers (.of_memo_empty hu.memo)).nearest_eq, hasked.agrees.snap]
  refine ⟨?_, ?_, hu.size_after_le, ?_, hu.counts_after, fun _ => hitRate_mem⟩
  · intro header
    have hfresh : (ofPacked ix.entries header ix.options).Remembers := .of_memo_empty rfl
    refine ⟨_, ofEntries_of_isPackable h.isPackable, fun calls p radius => ?_⟩
    rw [hsnap, hfresh.nearest_eq]
    rfl
  · intro calls calls' p p' radius radius' hp hp' hsame
    rw [hsnap, hsnap, snap_congr hp hp' hsame]
  · intro calls more
    rw [after_append]
    exact size_le_after _ more

/-- An index of one node with room for one answer: what is asked again is answered from memory, and what
lies beyond the pole is not counted. -/
theorem transparent_repeated :
    let calls : List Call := [⟨⟨0.5, 0.5⟩, 10.0⟩, ⟨⟨0.5, 0.5⟩, 10.0⟩, ⟨⟨91.0, 0.0⟩, 10.0⟩]
    ∃ ix : Index, ofEntries [⟨1, ⟨0.5, 0.5⟩, 0x8001fffffffffff⟩] ⟨1, 4, 10, 0, 1, 0⟩ ⟨1, 1, 6⟩ = .ok ix ∧
      ix.Made ∧ ix.Transparent ∧ (ix.after calls).hits = 1 ∧ (ix.after calls).misses = 1 ∧
      (ix.after calls).memo.size = 1 ∧ 0 ≤ (ix.after calls).hitRate ∧ (ix.after calls).hitRate ≤ 1 := by
  intro calls
  have hpackable : isPackable [⟨1, ⟨0.5, 0.5⟩, 0x8001fffffffffff⟩] = true := by decide +kernel
  let ix := ofPacked [⟨1, ⟨0.5, 0.5⟩, 0x8001fffffffffff⟩] ⟨1, 4, 10, 0, 1, 0⟩ ⟨1, 1, 6⟩
  have hix : ofEntries [⟨1, ⟨0.5, 0.5⟩, 0x8001fffffffffff⟩] ⟨1, 4, 10, 0, 1, 0⟩ ⟨1, 1, 6⟩ = .ok ix :=
    ofEntries_of_isPackable hpackable
  have hmade : ix.Made := .ofEntries hix
  have ht : ix.Transparent := hmade.transparent
  have hquery : isQuery ⟨0.5, 0.5⟩ 10.0 = true := by decide +kernel
  have hoff : isQuery ⟨91.0, 0.0⟩ 10.0 = false := by decide +kernel
  have hsize : ix.memo.size = 0 := Std.HashMap.size_empty
  have hnew : ix.memo[Question.of ix.options ⟨0.5, 0.5⟩ 10.0]? = none := Std.HashMap.getElem?_empty
  obtain ⟨answer, hsnap⟩ := ix.exists_snap ⟨0.5, 0.5⟩ 10.0 (by decide) (by decide +kernel)
  have hfirst := nearest_of_new hquery hnew hsnap
  have hafter : ix.after calls = { (ix.nearest ⟨0.5, 0.5⟩ 10.0).2 with
      hits := (ix.nearest ⟨0.5, 0.5⟩ 10.0).2.hits + 1 } := by
    show (((ix.nearest ⟨0.5, 0.5⟩ 10.0).2.nearest ⟨0.5, 0.5⟩ 10.0).2.nearest ⟨91.0, 0.0⟩ 10.0).2 = _
    rw [nearest_again hquery (by rw [hsize]; decide) (congrArg Prod.fst hfirst)]
    unfold nearest
    rw [hoff]
    rfl
  obtain ⟨hhits, hmisses⟩ := counts_remember { ix with misses := ix.misses + 1 }
    (Question.of ix.options ⟨0.5, 0.5⟩ 10.0) answer
  have hroom := size_remember { ix with misses := ix.misses + 1 } hnew answer
  rw [hfirst] at hafter
  obtain ⟨hpos, hle⟩ := ht.rate calls (by rw [ht.counted]; decide +kernel)
  refine ⟨ix, hix, hmade, ht, ?_, ?_, ?_, hpos, hle⟩
  · rw [hafter, hhits]
    rfl
  · rw [hafter]
    exact hmisses
  · rw [hafter]
    exact hroom.trans (if_pos (by rw [hsize]; decide))

end Index
end RoadRouting.Snap
