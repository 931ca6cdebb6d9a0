import RoadRouting.Proofs.Trip.LastWrites

/-!
# What a loader keeps in step

A loader remembers partitions and whole requests, and these two memories never part (`Orderly`): what
is loaded was merged by one request only, what was answered is loaded, and a request is answered from
memory exactly when the same cells were asked for before with success. So no partition is left out or
merged twice, whatever is asked for and whatever fails on the way (`loader_orderly`).
-/

namespace RoadRouting.Trip
set_option autoImplicit false
open Dataset (Catalog Partition)
open Grid (Cell CellSet)
open Network (Quantity)
open Store (Disk)

variable {ε α π : Type} [Quantity α] (available : CellSet) (travel : Travel α)

/-- A request reads the partition of a cell, merges it with all else that was pending, and succeeds. -/
def Merges (earlier : List (Request ε α π)) (r : Request ε α π) (cell : Cell) : Prop :=
  ∃ ps p tally h', ((held available travel earlier).pending available r.cells).mapM r.read = .ok ps ∧
    p ∈ ps ∧ p.cell = cell ∧ r.read cell = .ok p ∧
    Holding.merge travel ps (held available travel earlier) .none = (.ok tally, h') ∧
    (held available travel (earlier ++ [r])).network = h'.network ∧
    answer available travel earlier r = .ok ⟨tally, ps.length, false⟩

/-- What is loaded and what is remembered after some requests. -/
structure Orderly (rs : List (Request ε α π)) : Prop where
  listed : ∀ c, (held available travel rs).loader.loaded.contains c → available.contains c
  once : ∀ c, (held available travel rs).loader.loaded.contains c →
    ∃! call : List (Request ε α π) × Request ε α π,
      call.1 ++ [call.2] <+: rs ∧ Merges available travel call.1 call.2 c
  remembered : ∀ request, (held available travel rs).loader.answered.contains request →
    ∀ c ∈ request, available.contains c → (held available travel rs).loader.loaded.contains c
  complete : ∀ earlier r report, earlier ++ [r] <+: rs →
    answer available travel earlier r = .ok report → ∀ c, r.cells.contains c → available.contains c →
      (held available travel (earlier ++ [r])).loader.loaded.contains c
  repeated_iff : ∀ earlier r, earlier ++ [r] <+: rs →
    ((∃ report, answer available travel earlier r = .ok report ∧ report.repeated) ↔
      ∃ before s report, before ++ [s] <+: earlier ∧ (∀ c, s.cells.contains c = r.cells.contains c) ∧
        answer available travel before s = .ok report)
  repeated : ∀ earlier r report, earlier ++ [r] <+: rs →
    answer available travel earlier r = .ok report → report.repeated →
      report = ⟨.none, 0, true⟩ ∧
      (held available travel (earlier ++ [r])).network = (held available travel earlier).network ∧
      (held available travel (earlier ++ [r])).loader.loaded =
        (held available travel earlier).loader.loaded
  failed : ∀ earlier r e, earlier ++ [r] <+: rs → answer available travel earlier r = .error e →
    held available travel (earlier ++ [r]) = held available travel earlier

variable {available travel} {rs earlier : List (Request ε α π)} {r : Request ε α π} {c : Cell}

theorem loaded_mono (hroom : Roomy available travel rs) (h : earlier <+: rs)
    (hc : (held available travel earlier).loader.loaded.contains c) :
    (held available travel rs).loader.loaded.contains c := by
  rw [(kept (hroom.before h)).loaded] at hc
  rw [(kept hroom).loaded]
  exact ((loadOrder_mono h).map _).subset hc

/-- What a request merges was not loaded, and is loaded then. -/
theorem Merges.loaded (h : Merges available travel earlier r c)
    (hroom : Roomy available travel (earlier ++ [r])) :
    ¬ (held available travel earlier).loader.loaded.contains c ∧
      (held available travel (earlier ++ [r])).loader.loaded.contains c := by
  obtain ⟨ps, p, tally, h', hread, hp, rfl, -, -, -, hanswer⟩ := h
  have hkept := kept hroom
  have hmem : p.cell ∈ (held available travel earlier).pending available r.cells := by
    rw [← Request.map_cell hread]
    exact List.mem_map_of_mem hp
  obtain ⟨hkeys, havailable, hnew⟩ := Holding.mem_pending.1 hmem
  have hanswered := (hkept.answered _).2 ⟨earlier, r, _, List.prefix_refl _, rfl, hanswer⟩
  exact ⟨hnew, hkept.complete _ hanswered _ hkeys havailable⟩

/-- Two requests that merge one partition are the same. -/
theorem Merges.unique (hroom : Roomy available travel rs) {earlier' : List (Request ε α π)}
    {r' : Request ε α π} (hp : earlier ++ [r] <+: rs) (hp' : earlier' ++ [r'] <+: rs)
    (h : Merges available travel earlier r c) (h' : Merges available travel earlier' r' c) :
    (earlier, r) = (earlier', r') := by
  have hfirst {e e' : List (Request ε α π)} {s s' : Request ε α π} (he : e ++ [s] <+: rs)
      (he' : e' ++ [s'] <+: rs) (hs : Merges available travel e s c)
      (hs' : Merges available travel e' s' c) (hle : e ++ [s] <+: e' ++ [s']) : (e, s) = (e', s') := by
    rcases List.prefix_concat_iff.1 hle with heq | hlt
    · obtain ⟨rfl, hlast⟩ := List.append_inj' heq rfl
      rw [List.singleton_inj.1 hlast]
    · -- What the first one merged is still loaded at the second one.
      have hroom' := hroom.before ((List.prefix_append e' [s']).trans he')
      exact absurd (loaded_mono hroom' hlt (hs.loaded (hroom.before he)).2)
        (hs'.loaded (hroom.before he')).1
  rcases List.prefix_or_prefix_of_prefix hp hp' with hle | hle
  · exact hfirst hp hp' h h' hle
  · exact (hfirst hp' hp h' h hle).symm

/-- What is newly loaded was merged. -/
theorem merges_of_loaded (hroom : ∀ e, answer available travel rs r ≠ .error (.full e))
    (hc : (held available travel (rs ++ [r])).loader.loaded.contains c)
    (hnew : ¬ (held available travel rs).loader.loaded.contains c) :
    Merges available travel rs r c := by
  obtain ⟨ps, hend⟩ := exists_ensured available travel rs r
  generalize ha : answer available travel rs r = a at hend
  generalize hn : held available travel (rs ++ [r]) = h' at hend hc
  cases hend with
  | repeated _ => exact absurd hc hnew
  | unreadable _ _ => exact absurd hc hnew
  | full _ _ _ => exact absurd ha (hroom _)
  | merged _ hread hmerge =>
    obtain ⟨-, -, hloaded⟩ := makesAll_of_merge hmerge
    obtain ⟨p, hp, rfl⟩ := List.mem_map.1 (((hloaded c).1 hc).resolve_left hnew)
    obtain ⟨x, -, hx⟩ := exists_of_mem_left (mapM_eq_ok hread).flip hp
    obtain rfl := r.labelled x p hx
    exact ⟨_, p, _, _, hread, hp, rfl, hx, hmerge, by rw [hn], ha⟩

theorem exists_merges (hroom : Roomy available travel rs)
    (hc : (held available travel rs).loader.loaded.contains c) :
    ∃ earlier r, earlier ++ [r] <+: rs ∧ Merges available travel earlier r c := by
  induction rs using List.reverseRecOn with
  | nil => simp [held, Holding.empty] at hc
  | append_singleton rs r ih =>
    have hbefore : rs <+: rs ++ [r] := List.prefix_append _ _
    by_cases hold : (held available travel rs).loader.loaded.contains c
    · obtain ⟨earlier, s, hp, hm⟩ := ih (hroom.before hbefore) hold
      exact ⟨earlier, s, hp.trans hbefore, hm⟩
    · exact ⟨rs, r, List.prefix_refl _, merges_of_loaded (hroom rs r (List.prefix_refl _)) hc hold⟩

/-- A request is answered from memory exactly when it was answered before. -/
theorem repeated_iff (hkept : Kept available travel earlier) :
    (∃ report, answer available travel earlier r = .ok report ∧ report.repeated) ↔
      ∃ before s report, before ++ [s] <+: earlier ∧ (∀ c, s.cells.contains c = r.cells.contains c) ∧
        answer available travel before s = .ok report := by
  have hmemory : (∃ report, answer available travel earlier r = .ok report ∧ report.repeated) ↔
      (held available travel earlier).loader.answered.contains r.cells.toList := by
    obtain ⟨ps, hend⟩ := exists_ensured available travel earlier r
    generalize answer available travel earlier r = a at hend
    generalize held available travel (earlier ++ [r]) = h' at hend
    cases hend with
    | repeated hmem => simp [hmem]
    | unreadable hmem _ => simp [hmem]
    | full hmem _ _ => simp [hmem]
    | merged hmem _ _ => simp [hmem]
  rw [hmemory, hkept.answered]
  simp only [toList_eq_iff]

/-- A request that is answered from memory changes nothing but the count of such answers. -/
theorem repeated_unchanged {report : Report} (ha : answer available travel earlier r = .ok report)
    (hr : report.repeated) : report = ⟨.none, 0, true⟩ ∧
      (held available travel (earlier ++ [r])).network = (held available travel earlier).network ∧
      (held available travel (earlier ++ [r])).loader.loaded =
        (held available travel earlier).loader.loaded := by
  obtain ⟨ps, hend⟩ := exists_ensured available travel earlier r
  rw [ha] at hend
  generalize held available travel (earlier ++ [r]) = h' at hend
  cases hend with
  | repeated _ => exact ⟨rfl, rfl, rfl⟩
  | merged _ _ _ => cases hr

/-- A request that cannot be read changes nothing. -/
theorem failed_unchanged (hroom : ∀ e, answer available travel earlier r ≠ .error (.full e))
    {e : LoadFault ε} (ha : answer available travel earlier r = .error e) :
    held available travel (earlier ++ [r]) = held available travel earlier := by
  obtain ⟨ps, hend⟩ := exists_ensured available travel earlier r
  rw [ha] at hend
  generalize held available travel (earlier ++ [r]) = h' at hend
  cases hend with
  | unreadable _ _ => rfl
  | full _ _ _ => exact absurd ha (hroom _)

/-- However a dataset is asked for, as long as the network has room the loader keeps order. -/
theorem loader_orderly (c : Catalog) (speeds : Speed.Profile) (calls : List (Disk × CellSet))
    (hroom : Roomy c.cells speeds.seconds (calls.map (requestTo c))) :
    Orderly c.cells speeds.seconds (calls.map (requestTo c)) where
  listed cell hc := by
    obtain ⟨p, hp, rfl⟩ := List.mem_map.1 (((kept hroom).loaded cell).1 hc)
    obtain ⟨-, -, -, hlisted, -⟩ := mem_loadOrder hp
    exact hlisted
  once cell hc := by
    obtain ⟨earlier, r, hp, hm⟩ := exists_merges hroom hc
    refine ⟨(earlier, r), ⟨hp, hm⟩, ?_⟩
    rintro ⟨earlier', r'⟩ ⟨hp', hm'⟩
    exact Merges.unique hroom hp' hp hm' hm
  remembered := (kept hroom).complete
  complete earlier r report hp ha cell hc hlisted := by
    have hkept := kept (hroom.before hp)
    have hanswered := (hkept.answered _).2 ⟨earlier, r, report, List.prefix_refl _, rfl, ha⟩
    exact hkept.complete _ hanswered cell (Std.TreeSet.mem_toList.2 hc) hlisted
  repeated_iff earlier r hp :=
    repeated_iff (kept (hroom.before ((List.prefix_append earlier [r]).trans hp)))
  repeated earlier r report _ ha hr := repeated_unchanged ha hr
  failed earlier r e hp ha := failed_unchanged (hroom earlier r hp) ha

theorem loader_orderly_calls :
    Roomy Pair.catalog.cells Speed.Profile.standard.seconds
      (Pair.calls.map (requestTo Pair.catalog)) ∧
    Orderly Pair.catalog.cells Speed.Profile.standard.seconds
      (Pair.calls.map (requestTo Pair.catalog)) :=
  ⟨Pair.roomy_calls _, loader_orderly Pair.catalog .standard Pair.calls (Pair.roomy_calls _)⟩

end RoadRouting.Trip
