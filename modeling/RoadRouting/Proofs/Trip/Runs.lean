import RoadRouting.Proofs.Snap.Memory
import RoadRouting.Proofs.Trip.Corridors
import RoadRouting.Proofs.Trip.Loading
import RoadRouting.Trip.Planner

/-!
# Runs of a planner

A planner is asked for routes, to load partitions, and for nearest nodes, in any order (`Run`). To
answer, it does two things: it loads partitions and it looks at its index (`Moves`). So what these two
keep is kept by all that is asked. `Routed` tells the ways in which the planning of a route ends.
-/

namespace RoadRouting.Trip
set_option autoImplicit false
open Grid (Cell CellSet)
open Network (NodeId Quantity Updates)
open Snap (Hit Index)

variable {α : Type} [Quantity α]

namespace Planner

/-- What comes of a planner by loading with certain readers and by looking at its index. -/
inductive Moves (ok : Reader α → Prop) (p : Planner α) : Planner α → Prop
  | refl : Moves ok p p
  | ensure {p' : Planner α} (read : Reader α) (keys : CellSet) : ok read → Moves ok p p' →
      Moves ok p (p'.ensure read keys).2
  | nearest {p' : Planner α} (point : Point) (radius : Float) : Moves ok p p' →
      Moves ok p (p'.nearest point radius).2

/-- What comes of a planner by all that can be asked of it, with certain readers. -/
inductive Run (ok : Reader α → Prop) (p : Planner α) : Planner α → Prop
  | start : Run ok p p
  | ensure {p' : Planner α} (read : Reader α) (keys : CellSet) : ok read → Run ok p p' →
      Run ok p (p'.ensure read keys).2
  | nearest {p' : Planner α} (point : Point) (radius : Float) : Run ok p p' →
      Run ok p (p'.nearest point radius).2
  | route {p' : Planner α} (read : Reader α) (origin destination : Point) (objective : Objective) :
      ok read → Run ok p p' → Run ok p (p'.route read origin destination objective).planner

/-- The same planner, but for what is loaded and remembered. -/
structure Same (p p' : Planner α) : Prop where
  settings : p'.settings = p.settings
  catalog : p'.catalog = p.catalog
  travel : p'.travel = p.travel
  guided : p'.guided = p.guided
  index : p.index.Agrees p'.index

/-- The corridor of a route. -/
def corridor (p : Planner α) (origin destination : Point) : Corridor :=
  Corridor.between p.catalog origin destination p.settings.corridorWidth p.settings.sampleSpacing

/-- Both ends of a route are near sampled nodes, once its corridor is loaded. -/
inductive Snapped (p : Planner α) (read : Reader α) (origin destination : Point) (start goal : Hit) :
    Planner α → Prop
  | intro {report : Report} {p₁ p₂ p₃ : Planner α} :
      (p.corridor origin destination).isEmpty = false →
      p.ensure read (p.corridor origin destination).available = (.ok report, p₁) →
      p₁.nearest origin p₁.settings.snapRadius = (.ok (some start), p₂) →
      p₂.nearest destination p₂.settings.snapRadius = (.ok (some goal), p₃) →
      Snapped p read origin destination start goal p₃

/-- The ways in which the planning of a route ends. -/
inductive Routed (p : Planner α) (read : Reader α) (origin destination : Point)
    (objective : Objective) : Reply α (Option (Route α)) → Prop
  | uncovered (w : List Warning) : (p.corridor origin destination).isEmpty = true →
      Routed p read origin destination objective ⟨.ok none, w, p⟩
  | unloaded {f : Fault} {p₁ : Planner α} (w : List Warning) :
      p.ensure read (p.corridor origin destination).available = (.error f, p₁) →
      Routed p read origin destination objective ⟨.error f, w, p₁⟩
  | originBroken {report : Report} {f : Fault} {p₁ p₂ : Planner α} (w : List Warning) :
      p.ensure read (p.corridor origin destination).available = (.ok report, p₁) →
      p₁.nearest origin p₁.settings.snapRadius = (.error f, p₂) →
      Routed p read origin destination objective ⟨.error f, w, p₂⟩
  | originFar {report : Report} {p₁ p₂ : Planner α} (w : List Warning) :
      p.ensure read (p.corridor origin destination).available = (.ok report, p₁) →
      p₁.nearest origin p₁.settings.snapRadius = (.ok none, p₂) →
      Routed p read origin destination objective ⟨.ok none, w, p₂⟩
  | destinationBroken {report : Report} {f : Fault} {p₁ p₂ p₃ : Planner α} {start : Hit}
      (w : List Warning) :
      p.ensure read (p.corridor origin destination).available = (.ok report, p₁) →
      p₁.nearest origin p₁.settings.snapRadius = (.ok (some start), p₂) →
      p₂.nearest destination p₂.settings.snapRadius = (.error f, p₃) →
      Routed p read origin destination objective ⟨.error f, w, p₃⟩
  | destinationFar {report : Report} {p₁ p₂ p₃ : Planner α} {start : Hit} (w : List Warning) :
      p.ensure read (p.corridor origin destination).available = (.ok report, p₁) →
      p₁.nearest origin p₁.settings.snapRadius = (.ok (some start), p₂) →
      p₂.nearest destination p₂.settings.snapRadius = (.ok none, p₃) →
      Routed p read origin destination objective ⟨.ok none, w, p₃⟩
  | originLost {start goal : Hit} {f : Fault} {p₃ p₄ : Planner α} (w : List Warning) :
      Snapped p read origin destination start goal p₃ → p₃.resolve read start = (.error f, p₄) →
      Routed p read origin destination objective ⟨.error f, w, p₄⟩
  | destinationLost {start goal : Hit} {u : NodeId} {f : Fault} {p₃ p₄ p₅ : Planner α}
      (w : List Warning) :
      Snapped p read origin destination start goal p₃ → p₃.resolve read start = (.ok u, p₄) →
      p₄.resolve read goal = (.error f, p₅) →
      Routed p read origin destination objective ⟨.error f, w, p₅⟩
  | searched {start goal : Hit} {u v : NodeId} {p₃ p₄ p₅ : Planner α} (w : List Warning) :
      Snapped p read origin destination start goal p₃ → p₃.resolve read start = (.ok u, p₄) →
      p₄.resolve read goal = (.ok v, p₅) →
      Routed p read origin destination objective
        (p₅.finish objective (p.corridor origin destination).straight start goal u v w)

theorem route_routed (p : Planner α) (read : Reader α) (origin destination : Point)
    (objective : Objective) :
    Routed p read origin destination objective (p.route read origin destination objective) := by
  unfold route
  rcases hc : p.select origin destination p.settings.corridorWidth with ⟨c, w⟩
  obtain rfl : p.corridor origin destination = c := congrArg Prod.fst hc
  simp only
  cases he : (p.corridor origin destination).isEmpty with
  | true => exact .uncovered w he
  | false =>
    rw [if_neg (by simp)]
    rcases h1 : p.ensure read (p.corridor origin destination).available with ⟨_ | report, p₁⟩
    · exact .unloaded w h1
    · simp only
      rcases h2 : p₁.nearest origin p₁.settings.snapRadius with ⟨_ | _ | start, p₂⟩
      · exact .originBroken w h1 h2
      · exact .originFar w h1 h2
      · simp only
        rcases h3 : p₂.nearest destination p₂.settings.snapRadius with ⟨_ | _ | goal, p₃⟩
        · exact .destinationBroken w h1 h2 h3
        · exact .destinationFar w h1 h2 h3
        · have hs : Snapped p read origin destination start goal p₃ := .intro he h1 h2 h3
          simp only [connect]
          rcases h4 : p₃.resolve read start with ⟨_ | u, p₄⟩
          · exact .originLost w hs h4
          · simp only
            rcases h5 : p₄.resolve read goal with ⟨_ | v, p₅⟩
            · exact .destinationLost w hs h4 h5
            · exact .searched w hs h4 h5

omit [Quantity α] in
/-- A look at the index fails in one way. -/
theorem breakdown_of_nearest {p p' : Planner α} {point : Point} {radius : Float} {f : Fault}
    (h : p.nearest point radius = (.error f, p')) : ∃ b, f = .breakdown b := by
  have hfst : (p.index.nearest point radius).1.mapError .breakdown = .error f := congrArg Prod.fst h
  cases hn : (p.index.nearest point radius).1 with
  | ok answer =>
    rw [hn] at hfst
    cases hfst
  | error b =>
    rw [hn] at hfst
    cases hfst
    exact ⟨b, rfl⟩

omit [Quantity α] in
/-- The corridor between two points of the globe has the cell of its origin. -/
theorem contains_corridor (p : Planner α) {origin destination : Point} {cell : Cell}
    (ho : origin.isValid) (hd : destination.isValid)
    (hcell : Cell.containing origin p.catalog.resolution = some cell)
    (hlisted : p.catalog.cells.contains cell) :
    (p.corridor origin destination).available.contains cell :=
  Corridor.contains_ends ho hd (.inl rfl) hcell (.inl rfl) hlisted _ _

/-- The ways in which the resolving of a hit ends. -/
inductive Resolved (p : Planner α) (read : Reader α) (hit : Hit) :
    Except Fault NodeId × Planner α → Prop
  | found {v : NodeId} : loadedNode p.holding.network hit = .ok (some v) →
      Resolved p read hit (.ok v, p)
  | elsewhere {f : Fault} : loadedNode p.holding.network hit = .error f →
      Resolved p read hit (.error f, p)
  | foreign : p.catalog.cells.contains hit.cell = false →
      Resolved p read hit (.error (.missingNode hit.id hit.cell), p)
  | unloaded {f : Fault} {p₁ : Planner α} :
      p.ensure read ((∅ : CellSet).insert hit.cell) = (.error f, p₁) →
      Resolved p read hit (.error f, p₁)
  | foundLater {report : Report} {v : NodeId} {p₁ : Planner α} :
      p.ensure read ((∅ : CellSet).insert hit.cell) = (.ok report, p₁) →
      loadedNode p₁.holding.network hit = .ok (some v) → Resolved p read hit (.ok v, p₁)
  | elsewhereLater {report : Report} {f : Fault} {p₁ : Planner α} :
      p.ensure read ((∅ : CellSet).insert hit.cell) = (.ok report, p₁) →
      loadedNode p₁.holding.network hit = .error f → Resolved p read hit (.error f, p₁)
  | absent {report : Report} {p₁ : Planner α} :
      p.ensure read ((∅ : CellSet).insert hit.cell) = (.ok report, p₁) →
      loadedNode p₁.holding.network hit = .ok none →
      Resolved p read hit (.error (.missingNode hit.id hit.cell), p₁)

theorem resolve_resolved (p : Planner α) (read : Reader α) (hit : Hit) :
    Resolved p read hit (p.resolve read hit) := by
  unfold resolve
  cases h1 : loadedNode p.holding.network hit with
  | error f => exact .elsewhere h1
  | ok found =>
    cases found with
    | some v => exact .found h1
    | none =>
      simp only
      cases hc : p.catalog.cells.contains hit.cell with
      | false =>
        rw [if_neg (by simp)]
        exact .foreign hc
      | true =>
        rw [if_pos rfl]
        rcases h2 : p.ensure read ((∅ : CellSet).insert hit.cell) with ⟨_ | report, p₁⟩
        · exact .unloaded h2
        · simp only
          cases h3 : loadedNode p₁.holding.network hit with
          | error f => exact .elsewhereLater h2 h3
          | ok found =>
            cases found with
            | some v => exact .foundLater h2 h3
            | none => exact .absent h2 h3

section Moving
variable {ok : Reader α → Prop} {p p' p'' : Planner α} {read : Reader α}

theorem Moves.trans (h : Moves ok p p') (h' : Moves ok p' p'') : Moves ok p p'' := by
  induction h' with
  | refl => exact h
  | ensure read keys hr _ ih => exact ih.ensure read keys hr
  | nearest point radius _ ih => exact ih.nearest point radius

theorem moves_of_ensure (hr : ok read) {keys : CellSet} {r : Except Fault Report}
    (h : p.ensure read keys = (r, p')) : Moves ok p p' := by
  have hm : Moves ok p (p.ensure read keys).2 := .ensure read keys hr .refl
  rwa [h] at hm

theorem moves_of_nearest {point : Point} {radius : Float} {r : Except Fault (Option Hit)}
    (h : p.nearest point radius = (r, p')) : Moves ok p p' := by
  have hm : Moves ok p (p.nearest point radius).2 := .nearest point radius .refl
  rwa [h] at hm

theorem moves_of_resolve (hr : ok read) {hit : Hit} {r : Except Fault NodeId}
    (h : p.resolve read hit = (r, p')) : Moves ok p p' := by
  have hres := p.resolve_resolved read hit
  rw [h] at hres
  cases hres with
  | found _ => exact .refl
  | elsewhere _ => exact .refl
  | foreign _ => exact .refl
  | unloaded he => exact moves_of_ensure hr he
  | foundLater he _ => exact moves_of_ensure hr he
  | elsewhereLater he _ => exact moves_of_ensure hr he
  | absent he _ => exact moves_of_ensure hr he

theorem Snapped.moves (hr : ok read) {origin destination : Point} {start goal : Hit}
    (h : Snapped p read origin destination start goal p') : Moves ok p p' := by
  cases h with
  | intro _ h1 h2 h3 =>
    exact (moves_of_ensure hr h1).trans ((moves_of_nearest h2).trans (moves_of_nearest h3))

theorem Snapped.covered {origin destination : Point} {start goal : Hit}
    (h : Snapped p read origin destination start goal p') :
    (p.corridor origin destination).isEmpty = false := by
  cases h
  assumption

theorem route_moves (hr : ok read) (origin destination : Point) (objective : Objective) :
    Moves ok p (p.route read origin destination objective).planner := by
  have h := p.route_routed read origin destination objective
  generalize p.route read origin destination objective = reply at h ⊢
  cases h with
  | uncovered _ _ => exact .refl
  | unloaded _ h1 => exact moves_of_ensure hr h1
  | originBroken _ h1 h2 | originFar _ h1 h2 => exact (moves_of_ensure hr h1).trans (moves_of_nearest h2)
  | destinationBroken _ h1 h2 h3 | destinationFar _ h1 h2 h3 =>
    exact (moves_of_ensure hr h1).trans ((moves_of_nearest h2).trans (moves_of_nearest h3))
  | originLost _ hs h4 => exact (hs.moves hr).trans (moves_of_resolve hr h4)
  | destinationLost _ hs h4 h5 =>
    exact (hs.moves hr).trans ((moves_of_resolve hr h4).trans (moves_of_resolve hr h5))
  | searched _ hs h4 h5 =>
    exact (hs.moves hr).trans ((moves_of_resolve hr h4).trans (moves_of_resolve hr h5))

theorem Run.moves (h : Run ok p p') : Moves ok p p' := by
  induction h with
  | start => exact .refl
  | ensure read keys hr _ ih => exact ih.ensure read keys hr
  | nearest point radius _ ih => exact ih.nearest point radius
  | route read origin destination objective hr _ ih =>
    exact ih.trans (route_moves hr origin destination objective)

/-! ## What moving keeps -/

theorem Moves.same (h : Moves ok p p') : p.Same p' := by
  induction h with
  | refl => exact ⟨rfl, rfl, rfl, rfl, rfl, rfl⟩
  | ensure read keys _ _ ih => exact ⟨ih.settings, ih.catalog, ih.travel, ih.guided, ih.index⟩
  | nearest point radius _ ih =>
    exact ⟨ih.settings, ih.catalog, ih.travel, ih.guided, ih.index.trans (Index.nearest_agrees ..)⟩

theorem Moves.remembers (h : Moves ok p p') (hp : p.index.Remembers) : p'.index.Remembers := by
  induction h with
  | refl => exact hp
  | ensure read keys _ _ ih => exact ih
  | nearest point radius _ ih => exact ih.nearest point radius

/-- The network grows, whatever the readers give. -/
theorem Moves.fills (h : Moves ok p p') (hg : p.holding.network.Grown) :
    Fills (fun _ _ => True) p.holding.network p'.holding.network := by
  induction h with
  | refl => exact .refl hg
  | ensure read keys _ _ ih =>
    exact ih.trans (Holding.ensure_fills ih.grown fun _ _ _ _ _ _ => trivial)
  | nearest point radius _ ih => exact ih

/-- What is loaded stays faithful to a dataset that the readers read. -/
theorem Moves.faithful {d : Stock Point} (h : Moves ok p p') (hf : Holding.Faithful d p.holding)
    (hd : ∀ read, ok read → d.Feeds (p.supply read)) : Holding.Faithful d p'.holding := by
  induction h with
  | refl => exact hf
  | @ensure p₁ read keys hr hm ih =>
    have hs : p₁.supply read = p.supply read := by
      rw [supply, supply, hm.same.catalog, hm.same.travel]
    exact (ih.ensure (hs ▸ hd read hr) keys).1
  | nearest point radius _ ih => exact ih

end Moving
end Planner
end RoadRouting.Trip
