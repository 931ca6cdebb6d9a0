import RoadRouting.Proofs.Lists
import RoadRouting.Proofs.Network.Floats
import RoadRouting.Proofs.Snap.Queries

/-!
# What an index answers

A query goes through two orders: the entries that are nearest in degrees are the candidates, and of these
the one that is nearest by distance is the answer, if it is within the radius. The answer is the true
optimum of its candidates, whatever was asked before (`Index.Made.optimal`). So an index that compares
all of its entries answers the nearest one, more candidates never make an answer worse, and a larger
radius never changes one. A query breaks down only when some distance in degrees is no number.
-/

namespace RoadRouting.Snap
set_option autoImplicit false
open Network (floatKey floatRank)

/-- The order of entries by their distance from a point, and by their identifiers if they are as near. -/
def byDistance (q : Point) : Entry → Entry → Ordering :=
  compareLex (fun a b => floatRank (q.distance a.position) (q.distance b.position)) (compareOn Entry.id)

instance (q : Point) : Std.TransCmp (byDistance q) :=
  inferInstanceAs (Std.TransCmp
    (compareLex (compareOn fun e : Entry => floatKey (q.distance e.position)) (compareOn Entry.id)))

/-- Whether an entry is as near in degrees as another one, or nearer. -/
def notFurther (q : Point) (a b : Entry) : Bool :=
  (floatRank (sqDegrees a.position q) (sqDegrees b.position q)).isLE

/-- An entry comes first of some. -/
structure Foremost (q : Point) (es : List Entry) (e : Entry) : Prop where
  mem : e ∈ es
  least : ∀ e' ∈ es, (byDistance q e e').isLE

/-- The entries, whose distances in degrees are numbers unless there is only one entry, are divided into
the nearest ones, as many as may be compared, and the others, which are further away. -/
structure IsCut (entries : List Entry) (count : Nat) (q : Point) (near far : List Entry) : Prop where
  searchable : isSearchable entries q = true
  perm : (near ++ far).Perm entries
  length : near.length = min count entries.length
  nearer : ∀ a ∈ near, ∀ b ∈ far, floatRank (sqDegrees a.position q) (sqDegrees b.position q) = .lt

/-- The answer is the first one of some entries, with its distance, if this is within the radius; there
is none if it is not, or if there are no entries. -/
structure Optimum (q : Point) (radius : Float) (es : List Entry) (answer : Option Hit) : Prop where
  hit : ∀ hit, answer = some hit → ∃ e, Foremost q es e ∧ hit.Of e ∧
    hit.distance = q.distance e.position ∧ hit.distance ≤ radius
  miss : answer = none → ∀ e, Foremost q es e → ¬ q.distance e.position ≤ radius

variable {q : Point} {es : List Entry} {e : Entry} {radius : Float}

/-! ## The best of some entries -/

theorem isBetter_iff {a b : Entry} :
    isBetter (q.distance a.position, a) (q.distance b.position, b) ↔ byDistance q a b = .lt := by
  have hids : compareOn Entry.id a b = .lt ↔ a.id < b.id := Std.compare_eq_lt
  simp only [isBetter, byDistance, compareLex]
  cases floatRank (q.distance a.position) (q.distance b.position) with
  | lt => simp
  | gt => simp
  | eq => simp [hids]

/-- Whichever of two entries is kept, it does not come after the other. -/
theorem better_cases (a b : Entry) : ∃ e, (e = a ∨ e = b) ∧
    better (q.distance a.position, a) (q.distance b.position, b) = (q.distance e.position, e) ∧
    (byDistance q e a).isLE ∧ (byDistance q e b).isLE := by
  unfold better
  split
  · rename_i hb
    have hlt := isBetter_iff.1 hb
    exact ⟨b, .inr rfl, rfl, by rw [hlt]; rfl, Std.ReflCmp.isLE_rfl⟩
  · rename_i hb
    have hswap : byDistance q a b = (byDistance q b a).swap := Std.OrientedCmp.eq_swap
    refine ⟨a, .inl rfl, rfl, Std.ReflCmp.isLE_rfl, ?_⟩
    rw [isBetter_iff] at hb
    rw [hswap]
    cases hba : byDistance q b a with
    | lt => exact absurd hba hb
    | eq => rfl
    | gt => rfl

/-- What is kept of some entries comes first. -/
theorem foldl_better_foremost (first : Entry) (rest : List Entry) : ∃ e,
    (rest.map fun e => (q.distance e.position, e)).foldl better (q.distance first.position, first) =
      (q.distance e.position, e) ∧ Foremost q (first :: rest) e := by
  induction rest generalizing first with
  | nil =>
    refine ⟨first, rfl, List.mem_singleton_self _, fun e' he' => ?_⟩
    rw [List.mem_singleton.1 he']
    exact Std.ReflCmp.isLE_rfl
  | cons x rest ih =>
    obtain ⟨kept, hkept, hbetter, hfirst, hx⟩ := better_cases (q := q) first x
    obtain ⟨e, he, hmem, hleast⟩ := ih kept
    have hle := hleast kept List.mem_cons_self
    refine ⟨e, by rw [List.map_cons, List.foldl_cons, hbetter, he], ?_, ?_⟩
    · rcases List.mem_cons.1 hmem with rfl | hmem
      · rcases hkept with rfl | rfl <;> simp
      · exact List.mem_cons_of_mem _ (List.mem_cons_of_mem _ hmem)
    · intro e' he'
      rcases List.mem_cons.1 he' with rfl | he'
      · exact Std.TransCmp.isLE_trans hle hfirst
      · rcases List.mem_cons.1 he' with rfl | he'
        · exact Std.TransCmp.isLE_trans hle hx
        · exact hleast e' (List.mem_cons_of_mem _ he')

theorem bestOf?_foremost {distance : Float} (h : bestOf? es q = some (distance, e)) :
    Foremost q es e ∧ distance = q.distance e.position := by
  cases es with
  | nil => cases h
  | cons first rest =>
    obtain ⟨e', he', hfirst⟩ := foldl_better_foremost (q := q) first rest
    have h : some _ = some (distance, e) := h
    rw [he'] at h
    cases h
    exact ⟨hfirst, rfl⟩

theorem bestOf?_eq_none (h : bestOf? es q = none) : es = [] := by
  cases es with
  | nil => rfl
  | cons first rest => cases h

/-- What does not come after is not further away. -/
theorem floatRank_of_byDistance {e' : Entry} (h : (byDistance q e e').isLE) :
    (floatRank (q.distance e.position) (q.distance e'.position)).isLE := by
  simp only [byDistance, compareLex] at h
  cases hr : floatRank (q.distance e.position) (q.distance e'.position) with
  | lt => rfl
  | eq => rfl
  | gt => simp [hr] at h

/-- Entries that come first are as near as each other. -/
theorem Foremost.distance_eq {e' : Entry} (h : Foremost q es e) (h' : Foremost q es e') :
    q.distance e.position = q.distance e'.position := by
  have hle := floatRank_of_byDistance (h.least e' h'.mem)
  have hge := floatRank_of_byDistance (h'.least e h.mem)
  have heq : compare (floatKey (q.distance e.position)) (floatKey (q.distance e'.position)) = .eq :=
    Std.OrientedCmp.isLE_antisymm hle hge
  exact Network.floatKey_injective (Std.LawfulEqCmp.compare_eq_iff_eq.1 heq)

theorem Foremost.distance_le (h : Foremost q es e)
    (hnumbers : ∀ e ∈ es, (q.distance e.position).isNaN = false) {e' : Entry} (he' : e' ∈ es) :
    q.distance e.position ≤ q.distance e'.position :=
  Network.le_of_floatRank (hnumbers e h.mem) (hnumbers e' he') (floatRank_of_byDistance (h.least e' he'))

theorem Optimum.perm {es' : List Entry} {answer : Option Hit} (h : Optimum q radius es answer)
    (hp : es.Perm es') : Optimum q radius es' answer := by
  have hforemost (e : Entry) : Foremost q es' e ↔ Foremost q es e :=
    ⟨fun f => ⟨hp.mem_iff.2 f.mem, fun e' he' => f.least e' (hp.mem_iff.1 he')⟩,
      fun f => ⟨hp.mem_iff.1 f.mem, fun e' he' => f.least e' (hp.mem_iff.2 he')⟩⟩
  exact ⟨fun hit hhit => by simpa only [hforemost] using h.hit hit hhit,
    fun hnone e he => h.miss hnone e ((hforemost e).1 he)⟩

theorem Entry.hit?_distance {distance : Float} {hit : Hit} (h : e.hit? distance = some hit) :
    hit.distance = distance := by
  unfold Entry.hit? at h
  split at h
  · cases h
    rfl
  · cases h

/-- Of entries of which each lies in a cell, the answer is the optimum of the candidates. -/
theorem answerOf_optimum (options : Options)
    (hcells : ∀ e ∈ es, ∃ cell, Grid.Cell.ofRaw e.partition = .ok cell) (q : Point) (radius : Float) :
    Optimum q radius (firstByDegrees es options.candidates q)
      (answerOf (firstByDegrees es options.candidates q) q radius) := by
  unfold answerOf
  cases hb : bestOf? (firstByDegrees es options.candidates q) q with
  | none =>
    have hempty := bestOf?_eq_none hb
    refine ⟨nofun, fun _ e he => ?_⟩
    have hmem := he.mem
    rw [hempty] at hmem
    cases hmem
  | some best =>
    obtain ⟨distance, e⟩ := best
    obtain ⟨hfirst, rfl⟩ := bestOf?_foremost hb
    obtain ⟨cell, hcell⟩ := hcells e (mem_of_mem_firstByDegrees hfirst.mem)
    simp only
    split
    · rename_i hle
      constructor
      · intro hit hhit
        have hdistance := Entry.hit?_distance hhit
        exact ⟨e, hfirst, Entry.hit?_of hhit, hdistance, hdistance ▸ hle⟩
      · intro hnone
        simp [Entry.hit?, hcell] at hnone
    · rename_i hfar
      refine ⟨nofun, fun _ e' he' => ?_⟩
      rwa [he'.distance_eq hfirst]

/-! ## The candidates -/

/-- The candidates are the first ones of the entries in the order of degrees. -/
theorem firstByDegrees_eq (es : List Entry) (count : Nat) (q : Point) :
    firstByDegrees es count q = (es.mergeSort (notFurther q)).take count := by
  have hsorted : (es.mergeSort (notFurther q)).map (fun e => (sqDegrees e.position q, e)) =
      (es.map fun e => (sqDegrees e.position q, e)).mergeSort fun a b => (floatRank a.1 b.1).isLE :=
    List.map_mergeSort fun _ _ _ _ => rfl
  simp only [firstByDegrees, ← hsorted, ← List.map_take, List.map_map]
  exact List.map_id _

theorem notFurther_trans {a b c : Entry} (hab : notFurther q a b) (hbc : notFurther q b c) :
    notFurther q a c :=
  (Std.TransCmp.isLE_trans hab hbc : (floatRank _ _).isLE)

theorem pairwise_notFurther (es : List Entry) (q : Point) :
    (es.mergeSort (notFurther q)).Pairwise fun a b => notFurther q a b := by
  apply List.pairwise_mergeSort
  · intro a b c hab hbc
    exact notFurther_trans hab hbc
  · intro a b
    have hswap : floatRank (sqDegrees b.position q) (sqDegrees a.position q) =
        (floatRank (sqDegrees a.position q) (sqDegrees b.position q)).swap := Std.OrientedCmp.eq_swap
    unfold notFurther
    rw [hswap]
    cases floatRank (sqDegrees a.position q) (sqDegrees b.position q) <;> rfl

/-- When the entries are cut in two, the candidates are the near ones. -/
theorem IsCut.perm_firstByDegrees {count : Nat} {near far : List Entry} (h : IsCut es count q near far) :
    (firstByDegrees es count q).Perm near := by
  let isNear (e : Entry) : Bool := near.any (notFurther q e)
  have hnear : ∀ e ∈ near, isNear e := by
    intro e he
    exact List.any_eq_true.2 ⟨e, he, Std.ReflCmp.isLE_rfl⟩
  have hfar : ∀ e ∈ far, ¬ isNear e := by
    intro e he hin
    obtain ⟨a, ha, hle⟩ := List.any_eq_true.1 hin
    have hgt : floatRank (sqDegrees e.position q) (sqDegrees a.position q) = .gt :=
      Std.OrientedCmp.gt_of_lt (h.nearer a ha e he)
    simp [notFurther, hgt] at hle
  have hclosed : ∀ a b, notFurther q a b → isNear b → isNear a := by
    intro a b hab hb
    obtain ⟨e, he, hbe⟩ := List.any_eq_true.1 hb
    exact List.any_eq_true.2 ⟨e, he, notFurther_trans hab hbe⟩
  have hsorted : (es.mergeSort (notFurther q)).Perm (near ++ far) :=
    (List.mergeSort_perm es _).trans h.perm.symm
  have hfilter : (near ++ far).filter isNear = near := by
    rw [List.filter_append, List.filter_eq_self.2 hnear, List.filter_eq_nil_iff.2 hfar, List.append_nil]
  have hcount : (es.mergeSort (notFurther q)).countP isNear = near.length := by
    rw [hsorted.countP_eq, List.countP_eq_length_filter, hfilter]
  have htake : (es.mergeSort (notFurther q)).take count =
      (es.mergeSort (notFurther q)).filter isNear := by
    rw [filter_eq_take (pairwise_notFurther es q) hclosed, hcount, h.length, List.take_eq_take_iff,
      List.length_mergeSort]
    omega
  rw [firstByDegrees_eq, htake]
  exact (hsorted.filter isNear).trans (by rw [hfilter])

theorem exists_foremost (q : Point) (hne : es ≠ []) : ∃ e, Foremost q es e := by
  obtain ⟨first, rest, rfl⟩ := List.exists_cons_of_ne_nil hne
  obtain ⟨e, -, he⟩ := foldl_better_foremost (q := q) first rest
  exact ⟨e, he⟩

theorem firstByDegrees_subset {count count' : Nat} (h : count ≤ count') :
    firstByDegrees es count q ⊆ firstByDegrees es count' q := by
  rw [firstByDegrees_eq, firstByDegrees_eq]
  exact (List.take_prefix_take_left h).subset

/-- Without a bound on the candidates all entries are near ones. -/
theorem isCut_all {count : Nat} (h : es.length ≤ count) (hs : isSearchable es q = true) :
    IsCut es count q es [] where
  searchable := hs
  perm := by rw [List.append_nil]
  length := (Nat.min_eq_right h).symm
  nearer _ _ _ hb := by cases hb

namespace Index
variable {ix : Index} {p : Point}

/-- The point that a query for a point is answered for. -/
def rounded (ix : Index) (p : Point) : Point := (Question.of ix.options p 0.0).point ix.options

/-- What an index answers, whatever it was asked before. -/
structure Optimal (ix : Index) : Prop where
  /-- A query of a point on the globe is answered just when the entries can be put in order. -/
  answered : ∀ (calls : List Call) (p : Point) (radius : Float), p.isValid → radius.isNaN = false →
    ((∃ answer, ((ix.after calls).nearest p radius).1 = .ok answer) ↔
      isSearchable ix.entries (ix.rounded p))
  /-- Up to nine decimals, no query breaks down among entries with finite coordinates. -/
  finite : ix.options.decimals ≤ 9 →
    (∀ e ∈ ix.entries, e.position.lat.isFinite = true ∧ e.position.lon.isFinite = true) →
    ∀ (calls : List Call) (p : Point) (radius : Float),
      ∃ answer, ((ix.after calls).nearest p radius).1 = .ok answer
  /-- The answer is the optimum of the candidates. -/
  answer : ∀ (calls : List Call) (p : Point) (radius : Float) (near far : List Entry), p.isValid →
    radius.isNaN = false → IsCut ix.entries ix.options.candidates (ix.rounded p) near far →
    ∃ answer, ((ix.after calls).nearest p radius).1 = .ok answer ∧
      Optimum (ix.rounded p) radius near answer
  /-- When all entries are compared the answer is the nearest one. -/
  nearest : ∀ (calls : List Call) (p : Point) (radius : Float), p.isValid → radius.isNaN = false →
    ix.entries.length ≤ ix.options.candidates →
    (∀ e ∈ ix.entries, ((ix.rounded p).distance e.position).isNaN = false) →
    (∀ hit, ((ix.after calls).nearest p radius).1 = .ok (some hit) →
      (∃ e ∈ ix.entries, hit.Of e ∧ hit.distance = (ix.rounded p).distance e.position) ∧
        ∀ e ∈ ix.entries, hit.distance ≤ (ix.rounded p).distance e.position) ∧
    (((ix.after calls).nearest p radius).1 = .ok none →
      ∀ e ∈ ix.entries, radius < (ix.rounded p).distance e.position)
  /-- More candidates never lose an answer, nor make it worse. -/
  candidates : ∀ (ix' : Index), ix'.Made → ix'.entries = ix.entries →
    ix'.options.decimals = ix.options.decimals → ix.options.candidates ≤ ix'.options.candidates →
    ∀ (calls calls' : List Call) (p : Point) (radius : Float) (hit : Hit),
      (∀ e ∈ ix.entries, ((ix.rounded p).distance e.position).isNaN = false) →
      ((ix.after calls).nearest p radius).1 = .ok (some hit) →
      ∃ hit', ((ix'.after calls').nearest p radius).1 = .ok (some hit') ∧ hit'.distance ≤ hit.distance
  /-- A larger radius leaves an answer as it is. -/
  radius : ∀ (calls calls' : List Call) (p : Point) (radius radius' : Float) (hit : Hit),
    radius ≤ radius' → ((ix.after calls).nearest p radius).1 = .ok (some hit) →
    ((ix.after calls').nearest p radius').1 = .ok (some hit)

theorem isQuery_of_snap {radius : Float} {hit : Hit} (h : ix.snap p radius = .ok (some hit)) :
    p.isValid ∧ radius.isNaN = false := by
  unfold snap isQuery at h
  split at h
  · rename_i hquery
    simpa using hquery
  · cases h

/-- What is answered is one of the near entries. -/
theorem exists_near_of_snap {radius : Float} {hit : Hit} {near far : List Entry}
    (hcut : IsCut ix.entries ix.options.candidates (ix.rounded p) near far)
    (h : ix.snap p radius = .ok (some hit)) : ∃ e ∈ near, hit.Of e := by
  obtain ⟨e, he, hof⟩ := candidate_of_snap h
  exact ⟨e, hcut.perm_firstByDegrees.mem_iff.1 he, hof⟩

/-- The answers of an index are those that it gives without a memory. -/
theorem Made.nearest_after (h : ix.Made) (calls : List Call) (p : Point) (radius : Float) :
    ((ix.after calls).nearest p radius).1 = ix.snap p radius := by
  have hasked := ix.asked_after calls
  rw [(hasked.remembers (.of_memo_empty h.unasked.memo)).nearest_eq, hasked.agrees.snap]

/-- A query of a point on the globe is answered from the candidates. -/
theorem snap_eq_ok_iff {radius : Float} {answer : Option Hit} (hp : p.isValid) (hr : radius.isNaN = false) :
    ix.snap p radius = .ok answer ↔ isSearchable ix.entries (ix.rounded p) ∧
      answerOf (firstByDegrees ix.entries ix.options.candidates (ix.rounded p)) (ix.rounded p) radius =
        answer := by
  have hsnap : ix.snap p radius = scan ix.entries ix.options (ix.rounded p) radius := by
    unfold snap isQuery
    rw [hp, hr]
    rfl
  rw [hsnap, scan_eq_ok_iff]

/-- Whatever an index was asked before, and however many candidates it compares, it answers the optimum
of these. -/
theorem Made.optimal (h : ix.Made)
    (hcells : ∀ e ∈ ix.entries, ∃ cell, Grid.Cell.ofRaw e.partition = .ok cell) : ix.Optimal where
  answered calls p radius hp hr := by
    simp only [h.nearest_after, snap_eq_ok_iff hp hr, exists_and_left, exists_eq', and_true]
  finite hdecimals hfinite calls p radius := by
    rw [h.nearest_after]
    exact ix.exists_snap p radius hdecimals hfinite
  answer calls p radius near far hp hr hcut := by
    rw [h.nearest_after]
    exact ⟨_, (snap_eq_ok_iff hp hr).2 ⟨hcut.searchable, rfl⟩,
      (answerOf_optimum _ hcells _ radius).perm hcut.perm_firstByDegrees⟩
  nearest calls p radius hp hr hall hnumbers := by
    have hbest (hs : isSearchable ix.entries (ix.rounded p) = true) :=
      (answerOf_optimum ix.options hcells (ix.rounded p) radius).perm (isCut_all hall hs).perm_firstByDegrees
    rw [h.nearest_after]
    constructor
    · intro hit hhit
      obtain ⟨hs, hanswer⟩ := (snap_eq_ok_iff hp hr).1 hhit
      obtain ⟨e, hfirst, hof, hdistance, -⟩ := (hbest hs).hit hit hanswer
      refine ⟨⟨e, hfirst.mem, hof, hdistance⟩, fun e' he' => ?_⟩
      rw [hdistance]
      exact hfirst.distance_le hnumbers he'
    · intro hnone e he
      obtain ⟨hs, hanswer⟩ := (snap_eq_ok_iff hp hr).1 hnone
      obtain ⟨e', hfirst⟩ := exists_foremost (ix.rounded p) (List.ne_nil_of_mem he)
      rcases Binary64.float_le_or_lt (hnumbers e he) hr with hle | hlt
      · exact absurd (Binary64.float_le_trans (hfirst.distance_le hnumbers he) hle)
          ((hbest hs).miss hanswer e' hfirst)
      · exact hlt
  candidates ix' h' hentries hdecimals hle calls calls' p radius hit hnumbers hhit := by
    rw [h.nearest_after] at hhit
    rw [h'.nearest_after]
    obtain ⟨hp, hr⟩ := isQuery_of_snap hhit
    have hpoint : ix'.rounded p = ix.rounded p := by
      unfold rounded Question.of Question.point
      rw [hdecimals]
    obtain ⟨hs, hanswer⟩ := (snap_eq_ok_iff hp hr).1 hhit
    obtain ⟨e, hfirst, -, hdistance, hwithin⟩ := (answerOf_optimum _ hcells _ radius).hit hit hanswer
    have hbest := answerOf_optimum ix'.options hcells (ix.rounded p) radius
    have hmem : e ∈ firstByDegrees ix.entries ix'.options.candidates (ix.rounded p) :=
      firstByDegrees_subset hle hfirst.mem
    have hnumbers' : ∀ e ∈ firstByDegrees ix.entries ix'.options.candidates (ix.rounded p),
        ((ix.rounded p).distance e.position).isNaN = false :=
      fun e he => hnumbers e (mem_of_mem_firstByDegrees he)
    simp only [snap_eq_ok_iff hp hr, hentries, hpoint, hs, true_and]
    rw [hdistance] at hwithin ⊢
    cases hanswer' : answerOf (firstByDegrees ix.entries ix'.options.candidates (ix.rounded p))
        (ix.rounded p) radius with
    | some hit' =>
      obtain ⟨e', hfirst', -, hdistance', -⟩ := hbest.hit hit' hanswer'
      exact ⟨hit', rfl, hdistance' ▸ hfirst'.distance_le hnumbers' hmem⟩
    | none =>
      obtain ⟨e', hfirst'⟩ := exists_foremost (ix.rounded p) (List.ne_nil_of_mem hmem)
      exact absurd (Binary64.float_le_trans (hfirst'.distance_le hnumbers' hmem) hwithin)
        (hbest.miss hanswer' e' hfirst')
  radius calls calls' p radius radius' hit hle hhit := by
    rw [h.nearest_after] at hhit
    obtain ⟨hp, hr⟩ := isQuery_of_snap hhit
    have hr' : radius'.isNaN = false := (Binary64.le_iff.1 hle).2.1
    obtain ⟨hs, hanswer⟩ := (snap_eq_ok_iff hp hr).1 hhit
    rw [h.nearest_after, snap_eq_ok_iff hp hr']
    refine ⟨hs, ?_⟩
    unfold answerOf at hanswer ⊢
    split at hanswer
    · split at hanswer
      · rename_i hwithin
        simp only [Binary64.float_le_trans hwithin hle, if_true]
        exact hanswer
      · cases hanswer
    · cases hanswer

/-- Two nodes of which one is compared, a quarter of a degree west of the nearer one: this one is the answer,
if any is. -/
theorem optimal_pair :
    let near : Entry := ⟨1, ⟨0.5, 0.5⟩, 0x8001fffffffffff⟩
    let far : Entry := ⟨2, ⟨0.5, 0.75⟩, 0x8001fffffffffff⟩
    ∃ ix, ofEntries [far, near] ⟨1, 0, 2, 0, 1, 0⟩ ⟨1, 10, 6⟩ = .ok ix ∧ ix.Made ∧
      (∀ e ∈ ix.entries, ∃ cell, Grid.Cell.ofRaw e.partition = .ok cell) ∧
      IsCut ix.entries ix.options.candidates (ix.rounded ⟨0.5, 0.25⟩) [near] [far] ∧
      ∃ answer, (ix.nearest ⟨0.5, 0.25⟩ 100000.0).1 = .ok answer ∧
        Optimum (ix.rounded ⟨0.5, 0.25⟩) 100000.0 [near] answer := by
  intro near far
  have hpackable : isPackable [far, near] = true := by decide +kernel
  let ix := ofPacked [far, near] ⟨1, 0, 2, 0, 1, 0⟩ ⟨1, 10, 6⟩
  have hix : ofEntries [far, near] ⟨1, 0, 2, 0, 1, 0⟩ ⟨1, 10, 6⟩ = .ok ix := ofEntries_of_isPackable hpackable
  have hmade : ix.Made := .ofEntries hix
  have hcells : ∀ e ∈ ix.entries, ∃ cell, Grid.Cell.ofRaw e.partition = .ok cell := by
    have hcell : ∃ cell, Grid.Cell.ofRaw near.partition = .ok cell := ⟨⟨near.partition, by decide⟩, by decide⟩
    intro e he
    rcases List.mem_pair.1 he with rfl | rfl <;> exact hcell
  have hcut : IsCut ix.entries ix.options.candidates (ix.rounded ⟨0.5, 0.25⟩) [near] [far] := by
    refine ⟨by decide +kernel, .swap _ _ _, rfl, fun a ha b hb => ?_⟩
    rw [List.mem_singleton.1 ha, List.mem_singleton.1 hb]
    decide +kernel
  exact ⟨ix, hix, hmade, hcells, hcut, (Made.optimal hmade hcells).answer [] ⟨0.5, 0.25⟩ 100000.0 _ _
    (by decide +kernel) (by decide +kernel) hcut⟩

end Index
end RoadRouting.Snap
