import RoadRouting.Proofs.Network.Novelty
import RoadRouting.Proofs.Trip.LastWrites

/-!
# Reports add up

Each request that succeeds reports how many positions and edges were new and how many partitions it read.
Over any requests these reports add up to what is held (`reports_addUp`): a change adds to the tally what
it adds to the network (`Change.apply_rises`), so nothing is counted twice and nothing is left out,
whatever rows repeat, replace or fill in.
-/

namespace RoadRouting.Trip
set_option autoImplicit false
open Dataset (Catalog Partition)
open Grid (Cell CellSet)
open Network (Quantity)
open Store (Disk)

variable {ε α π : Type}

/-- A tally rises by as much as the positions and the edges of a network do. -/
structure Rises (t t' : Tally) (g g' : Network α π) : Prop where
  nodes : t'.nodes + g.placedCount = t.nodes + g'.placedCount
  edges : t'.edges + g.edgeCount = t.edges + g'.edgeCount

/-- Reports add up to what is held: the nodes that have positions, the edges, of which there is one for
each two nodes that are linked, and the partitions. -/
structure AddsUp (h : Holding α π) (reports : List Report) : Prop where
  nodes : (reports.map (·.tally.nodes)).sum = h.network.placedCount
  edges : (reports.map (·.tally.edges)).sum = h.network.edgeCount
  links : ∃ pairs : Finset (Int64 × Int64), pairs.card = (reports.map (·.tally.edges)).sum ∧
    ∀ q, q ∈ pairs ↔ (h.network.linkOf q.1 q.2).isSome
  read : (reports.map (·.read)).sum = h.loader.loaded.size

/-! ## What is merged -/

section Merging
variable {t t' t'' : Tally} {g g' g'' : Network α π}

theorem Rises.refl : Rises t t g g := ⟨rfl, rfl⟩

theorem Rises.trans (h : Rises t t' g g') (h' : Rises t' t'' g' g'') : Rises t t'' g g'' := by
  obtain ⟨hnodes, hedges⟩ := h
  obtain ⟨hnodes', hedges'⟩ := h'
  constructor <;> omega

variable [Quantity α]

/-- A change that is made counts as what it was: a new position, a new edge, or nothing new. -/
theorem Change.apply_rises (hg : g.Grown) {c : Change α π} (h : c.apply g t = (.ok t', g')) :
    Rises t t' g g' := by
  cases c with
  | place id p =>
    unfold Change.apply at h
    rcases he : g.place id p with ⟨_ | fresh, g₁⟩
    · simp [he] at h
    · simp only [he, Prod.mk.injEq, Except.ok.injEq] at h
      obtain ⟨rfl, rfl⟩ := h
      have hplaced := Network.placedCount_place hg.wellFormed he
      have hedges := Network.edgeCount_place he
      split at hplaced
      · rename_i hfresh
        rw [if_pos hfresh]
        constructor <;> dsimp only <;> omega
      · rename_i hold
        rw [if_neg hold]
        constructor <;> omega
  | connect a b length travel name =>
    unfold Change.apply at h
    rcases he : g.addEdge a b length travel name with ⟨_ | fresh, g₁⟩
    · simp [he] at h
    · simp only [he, Prod.mk.injEq, Except.ok.injEq] at h
      obtain ⟨rfl, rfl⟩ := h
      have hplaced := Network.placedCount_addEdge hg.wellFormed he
      have hedges := Network.edgeCount_addEdge he
      split at hedges
      · rename_i hfresh
        rw [if_pos hfresh]
        constructor <;> dsimp only <;> omega
      · rename_i hold
        rw [if_neg hold]
        constructor <;> omega

theorem applyAll_rises {cs : List (Change α π)} (hg : g.Grown)
    (h : applyAll cs g t = (.ok t', g')) : Rises t t' g g' := by
  induction cs generalizing g t with
  | nil =>
    cases h
    exact .refl
  | cons c rest ih =>
    unfold applyAll at h
    rcases he : c.apply g t with ⟨_ | t₁, g₁⟩
    · simp [he] at h
    · simp only [he] at h
      have hmade : c.Makes g g₁ := ⟨t, t₁, he⟩
      exact (Change.apply_rises hg he).trans (ih (hmade.grown hg) h)

theorem merge_rises {travel : Travel α} {ps : List (Partition α π)} {h h' : Holding α π}
    (hg : h.network.Grown) (hm : Holding.merge travel ps h t = (.ok t', h')) :
    Rises t t' h.network h'.network := by
  induction ps generalizing h t with
  | nil =>
    cases hm
    exact .refl
  | cons p rest ih =>
    obtain ⟨loader, network⟩ := h
    unfold Holding.merge at hm
    rcases he : applyAll (changesOf travel p) network t with ⟨_ | t₁, g₁⟩
    · simp [he] at hm
    · simp only [he] at hm
      have hgrown : g₁.Grown := (makesAll_of_applyAll he).grown hg
      exact (applyAll_rises hg he).trans (ih hgrown hm)

end Merging

/-! ## What is reported -/

section Reports
variable [Quantity α] (available : CellSet) (travel : Travel α)

/-- The reports of the requests that succeeded, in their order. -/
def reports (rs : List (Request ε α π)) : List Report :=
  rs.zipIdx.filterMap fun (r, n) => (answer available travel (rs.take n) r).toOption

variable {available travel} {rs : List (Request ε α π)} {r : Request ε α π}

theorem reports_snoc (rs : List (Request ε α π)) (r : Request ε α π) :
    reports available travel (rs ++ [r]) =
      reports available travel rs ++ (answer available travel rs r).toOption.toList := by
  have hbefore : rs.zipIdx.filterMap (fun (s, n) =>
      (answer available travel ((rs ++ [r]).take n) s).toOption) = reports available travel rs := by
    refine List.filterMap_congr fun ⟨s, n⟩ hs => ?_
    have hn : n ≤ rs.length := by
      have := (List.mem_zipIdx hs).2.1
      omega
    simp only [List.take_append_of_le_length hn]
  unfold reports at hbefore ⊢
  rw [List.zipIdx_append, List.filterMap_append, hbefore]
  simp only [List.zipIdx_singleton, Nat.zero_add, List.take_left', List.filterMap_cons,
    List.filterMap_nil]
  cases answer available travel rs r <;> rfl

theorem sum_reported (reports : List Report) (report : Option Report) (count : Report → Nat) :
    ((reports ++ report.toList).map count).sum =
      (reports.map count).sum + (report.map count).getD 0 := by
  cases report <;> simp

/-- As many partitions are loaded as came in. -/
theorem Kept.size_loaded (h : Kept available travel rs) :
    (held available travel rs).loader.loaded.size = (loadOrder available rs).length := by
  have hperm : (held available travel rs).loader.loaded.toList.Perm
      ((loadOrder available rs).map (·.cell)) := by
    rw [List.perm_ext_iff_of_nodup (nodup_toList _) (nodup_loadOrder available rs)]
    intro c
    rw [Std.TreeSet.mem_toList, ← h.loaded]
    exact Iff.rfl
  rw [← Std.TreeSet.length_toList, hperm.length_eq, List.length_map]

/-- A request reports what it adds, and one that fails for want of a file adds nothing. -/
theorem Kept.answer_rises (h : Kept available travel rs)
    (hroom : ∀ e, answer available travel rs r ≠ .error (.full e)) :
    Rises .none (((answer available travel rs r).toOption.map (·.tally)).getD .none)
        (held available travel rs).network (held available travel (rs ++ [r])).network ∧
      (loadOrder available (rs ++ [r])).length = (loadOrder available rs).length +
        ((answer available travel rs r).toOption.map (·.read)).getD 0 := by
  have hpending := pending_eq_missing available h.loaded r
  rw [loadOrder_snoc, List.length_append]
  obtain ⟨ps, hend⟩ := exists_ensured available travel rs r
  generalize ha : answer available travel rs r = a at hend
  generalize hn : held available travel (rs ++ [r]) = h' at hend
  cases hend with
  | repeated hmem =>
    refine ⟨.refl, ?_⟩
    unfold additions
    rw [h.missing_eq_nil hmem]
    rfl
  | unreadable _ hread =>
    change (Holding.pending _ available r.cells).mapM r.read = _ at hread
    refine ⟨.refl, ?_⟩
    unfold additions
    rw [← hpending, hread]
    rfl
  | full _ _ _ => exact absurd ha (hroom _)
  | merged _ hread hmerge =>
    change (Holding.pending _ available r.cells).mapM r.read = _ at hread
    have hrises := merge_rises (h.made.grown .empty) hmerge
    refine ⟨⟨hrises.nodes, hrises.edges⟩, ?_⟩
    unfold additions
    rw [← hpending, hread]
    rfl

/-- As long as no request meets a full network, the reports add up. -/
theorem addsUp (hroom : Roomy available travel rs) :
    AddsUp (held available travel rs) (reports available travel rs) := by
  have hsums : ((reports available travel rs).map (·.tally.nodes)).sum =
        (held available travel rs).network.placedCount ∧
      ((reports available travel rs).map (·.tally.edges)).sum =
        (held available travel rs).network.edgeCount ∧
      ((reports available travel rs).map (·.read)).sum = (loadOrder available rs).length := by
    induction rs using List.reverseRecOn with
    | nil => exact ⟨rfl, rfl, rfl⟩
    | append_singleton rs r ih =>
      have hbefore := hroom.before (List.prefix_append rs [r])
      obtain ⟨hnodes, hedges, hread⟩ := ih hbefore
      obtain ⟨hrises, hlength⟩ := (kept hbefore).answer_rises (hroom rs r (List.prefix_refl _))
      have hplaced := hrises.nodes
      have hlinked := hrises.edges
      rw [reports_snoc, hlength, sum_reported, sum_reported, sum_reported]
      generalize (answer available travel rs r).toOption = report at hplaced hlinked ⊢
      have htally : ∀ count : Tally → Nat, count .none = 0 →
          count ((report.map (·.tally)).getD .none) = (report.map (count ·.tally)).getD 0 := by
        intro count hnone
        cases report with
        | none => exact hnone
        | some report => rfl
      rw [htally Tally.nodes rfl] at hplaced
      rw [htally Tally.edges rfl] at hlinked
      have hnothing : Tally.none.nodes = 0 ∧ Tally.none.edges = 0 := ⟨rfl, rfl⟩
      omega
  obtain ⟨hnodes, hedges, hread⟩ := hsums
  obtain ⟨pairs, hcard, hpairs⟩ := ((kept hroom).made.grown .empty).counted.edges
  exact ⟨hnodes, hedges, ⟨pairs, hcard.trans hedges.symm, hpairs⟩, hread.trans (kept hroom).size_loaded.symm⟩

end Reports

/-- After each of any requests to a dataset that meet no full network, the reports add up. -/
theorem reports_addUp (c : Catalog) (speeds : Speed.Profile) (calls : List (Disk × CellSet))
    (hroom : Roomy c.cells speeds.seconds (calls.map (requestTo c))) (n : Nat) :
    AddsUp (held c.cells speeds.seconds ((calls.take n).map (requestTo c)))
      (reports c.cells speeds.seconds ((calls.take n).map (requestTo c))) :=
  addsUp (hroom.before ((List.take_prefix n calls).map _))

/-- The second request of these fails, and the last one is answered from memory: both count for nothing,
and two partitions have been read. -/
theorem reports_addUp_calls :
    let rs := Pair.calls.map (requestTo Pair.catalog)
    let travel : Travel Float := Speed.Profile.standard.seconds
    Roomy Pair.catalog.cells travel rs ∧
      AddsUp (held Pair.catalog.cells travel rs) (reports Pair.catalog.cells travel rs) ∧
      ((reports Pair.catalog.cells travel rs).map (·.read)).sum = 2 := by
  intro rs travel
  have hroom : Roomy Pair.catalog.cells travel rs := Pair.roomy_calls _
  have h : AddsUp (held Pair.catalog.cells travel rs) (reports Pair.catalog.cells travel rs) :=
    reports_addUp Pair.catalog .standard Pair.calls hroom Pair.calls.length
  refine ⟨hroom, h, ?_⟩
  rw [h.read, (kept hroom).size_loaded, Pair.loadOrder_calls]
  rfl

end RoadRouting.Trip
