import RoadRouting.Proofs.Float.Whole
import RoadRouting.Proofs.Grid.Spread
import RoadRouting.Trip.Corridor

/-!
# What a corridor covers

The seeds along a line spread together and reach what each of them reaches, so a corridor is made of the
disks around the samples of its line and of the cells around both ends (`contains_computedCells`). Its
width enters through the radius of the disks alone, and the radius does not fall when the width grows
(`diskRadius_mono`): a wider corridor has all the cells of a narrower one, and from a width of seventy
on, where the radius is the greatest there is, all corridors between two points are one
(`Corridor.between_covers`).
-/

namespace RoadRouting.Trip
set_option autoImplicit false
open Binary64
open Dataset (Catalog)
open Grid (Cell CellSet Resolution)

/-! ## Radii -/

theorem isPositive_cellSpacing : IsPositive cellSpacing := by
  unfold IsPositive
  decide +kernel

theorem diskRadius_mono {narrow wide : Float} (h : narrow ≤ wide) :
    diskRadius narrow ≤ diskRadius wide := by
  have hwhole : (narrow / cellSpacing).toUInt32.toNat ≤ (wide / cellSpacing).toUInt32.toNat :=
    toUInt32_div_le_div isPositive_cellSpacing (by decide +kernel) (by decide +kernel) h
  unfold diskRadius
  exact min_le_min_right _ (max_le_max_right _ hwhole)

theorem diskRadius_le (width : Float) : diskRadius width ≤ maxRadius := Nat.min_le_right _ _

/-- Seventy kilometres are as many spacings as the greatest radius. -/
theorem diskRadius_of_seventy_le {width : Float} (h : 70 ≤ width) : diskRadius width = maxRadius := by
  have hseventy : diskRadius 70 = maxRadius := by decide +kernel
  exact Nat.le_antisymm (diskRadius_le width) (hseventy ▸ diskRadius_mono h)

/-! ## Cells -/

/-- A cell lies within some steps of a sample of the line between two points. Samples off the globe
count for nothing. -/
def NearLine (origin destination : Point) (segments : Nat) (r : Resolution) (radius : Nat) (c : Cell) :
    Prop :=
  ∃ i ≤ segments, ∃ sample, sample = origin.lerp destination (i.toFloat / segments.toFloat) ∧
    sample.isValid ∧ ∃ centre, Cell.containing sample r = some centre ∧ (centre.disk radius).contains c

/-- A cell contains one of two points, or touches the cell that does. -/
def NearEnd (origin destination : Point) (r : Resolution) (c : Cell) : Prop :=
  ∃ p, (p = origin ∨ p = destination) ∧ ∃ centre, Cell.containing p r = some centre ∧
    (centre.disk 1).contains c

variable {catalog : Catalog} {origin destination p : Point} {width spacing : Float}
  {r : Resolution} {c cell : Cell} {points : List Point} {segments k : Nat}

theorem mem_cellsAround : c ∈ cellsAround points r ↔ ∃ p ∈ points, Cell.containing p r = some c :=
  List.mem_filterMap

theorem mem_samples :
    p ∈ samples origin destination segments ↔
      ∃ i ≤ segments, p = origin.lerp destination (i.toFloat / segments.toFloat) := by
  simp only [samples, List.mem_map, List.mem_range, Nat.lt_succ_iff, eq_comm]

theorem contains_grow_samples :
    (Grid.grow k (cellsAround (samples origin destination segments) r)).contains c ↔
      NearLine origin destination segments r k c := by
  rw [Grid.contains_grow_iff_disk]
  constructor
  · rintro ⟨centre, hcentre, hc⟩
    obtain ⟨sample, hsample, hcell⟩ := mem_cellsAround.1 hcentre
    obtain ⟨i, hi, rfl⟩ := mem_samples.1 hsample
    exact ⟨i, hi, _, rfl, Cell.isValid_of_containing hcell, centre, hcell, hc⟩
  · rintro ⟨i, hi, sample, hsample, -, centre, hcell, hc⟩
    exact ⟨centre, mem_cellsAround.2 ⟨sample, mem_samples.2 ⟨i, hi, hsample⟩, hcell⟩, hc⟩

theorem contains_grow_ends :
    (Grid.grow 1 (cellsAround [origin, destination] r)).contains c ↔
      NearEnd origin destination r c := by
  rw [Grid.contains_grow_iff_disk]
  constructor
  · rintro ⟨centre, hcentre, hc⟩
    obtain ⟨p, hp, hcell⟩ := mem_cellsAround.1 hcentre
    exact ⟨p, by simpa using hp, centre, hcell, hc⟩
  · rintro ⟨p, hp, centre, hcell, hc⟩
    exact ⟨centre, mem_cellsAround.2 ⟨p, by simpa using hp, hcell⟩, hc⟩

theorem contains_computedCells :
    (computedCells origin destination width spacing r).contains c ↔
      NearLine origin destination (segmentCount (origin.distance destination / 1000.0) spacing) r
        (diskRadius width) c ∨ NearEnd origin destination r c := by
  rw [← contains_grow_samples, ← contains_grow_ends, computedCells,
    Std.TreeSet.contains_insertMany_list, Bool.or_eq_true]
  simp

theorem NearLine.mono {j : Nat} (h : NearLine origin destination segments r j c) (hjk : j ≤ k) :
    NearLine origin destination segments r k c := by
  obtain ⟨i, hi, sample, hsample, hvalid, centre, hcell, hc⟩ := h
  exact ⟨i, hi, sample, hsample, hvalid, centre, hcell, Cell.disk_mono hjk hc⟩

/-! ## Corridors -/

namespace Corridor

theorem between_of_isValid (ho : origin.isValid) (hd : destination.isValid) :
    between catalog origin destination width spacing =
      let computed := computedCells origin destination width spacing catalog.resolution
      ⟨computed, CellSet.restrict computed catalog.cells, origin.distance destination⟩ := by
  unfold between
  rw [if_pos (by rw [ho, hd]; rfl)]

theorem contains_available (ho : origin.isValid) (hd : destination.isValid) :
    (between catalog origin destination width spacing).available.contains c ↔
      (between catalog origin destination width spacing).computed.contains c ∧
        catalog.cells.contains c := by
  rw [between_of_isValid ho hd]
  exact CellSet.contains_restrict

/-- A cell around an end belongs to the corridor, if it has a partition. -/
theorem contains_ends (ho : origin.isValid) (hd : destination.isValid)
    (hp : p = origin ∨ p = destination) (hcell : Cell.containing p catalog.resolution = some cell)
    (hc : c = cell ∨ c ∈ cell.neighbours) (hlisted : catalog.cells.contains c)
    (width spacing : Float) :
    (between catalog origin destination width spacing).available.contains c := by
  rw [contains_available ho hd, between_of_isValid ho hd]
  exact ⟨contains_computedCells.2 (.inr ⟨p, hp, cell, hcell, Cell.contains_disk_one.2 hc⟩), hlisted⟩

/-- The cells of the corridors between two points of the globe, whatever their widths. -/
structure Covers (catalog : Catalog) (origin destination : Point) (spacing : Float) : Prop where
  /-- The disks around the samples of the line, and the cells around both ends. -/
  computed (width : Float) (c : Cell) :
    (between catalog origin destination width spacing).computed.contains c ↔
      NearLine origin destination (segmentCount (origin.distance destination / 1000.0) spacing)
        catalog.resolution (diskRadius width) c ∨
      NearEnd origin destination catalog.resolution c
  /-- Those that have partitions. -/
  available (width : Float) (c : Cell) :
    (between catalog origin destination width spacing).available.contains c ↔
      (between catalog origin destination width spacing).computed.contains c ∧
        catalog.cells.contains c
  /-- No partition around an end is left out. -/
  ends (width : Float) {p : Point} {cell c : Cell} (hp : p = origin ∨ p = destination)
    (hcell : Cell.containing p catalog.resolution = some cell)
    (hc : c = cell ∨ c ∈ cell.neighbours) (hlisted : catalog.cells.contains c) :
    (between catalog origin destination width spacing).available.contains c
  /-- A wider corridor has no fewer cells. -/
  widening {narrow wide : Float} (h : narrow ≤ wide) (c : Cell) :
    ((between catalog origin destination narrow spacing).computed.contains c →
      (between catalog origin destination wide spacing).computed.contains c) ∧
    ((between catalog origin destination narrow spacing).available.contains c →
      (between catalog origin destination wide spacing).available.contains c)
  /-- Beyond seventy kilometres a width makes no difference. -/
  widest {w v : Float} (hw : 70 ≤ w) (hv : 70 ≤ v) :
    between catalog origin destination w spacing = between catalog origin destination v spacing

/-- The corridor between two points of the globe covers its line and its ends, and only them; it has
the partitions that the catalog has, and widens with its width. A point off the globe has the corridor
without cells. -/
theorem between_covers (catalog : Catalog) (origin destination : Point) (spacing : Float) :
    (origin.isValid → destination.isValid → Covers catalog origin destination spacing) ∧
    (¬ (origin.isValid ∧ destination.isValid) → ∀ width : Float,
      (between catalog origin destination width spacing).computed = ∅ ∧
      (between catalog origin destination width spacing).available = ∅) := by
  refine ⟨fun ho hd => ?_, fun h width => ?_⟩
  · have hcomputed (width : Float) (c : Cell) :
        (between catalog origin destination width spacing).computed.contains c ↔
          NearLine origin destination (segmentCount (origin.distance destination / 1000.0) spacing)
            catalog.resolution (diskRadius width) c ∨
          NearEnd origin destination catalog.resolution c := by
      rw [between_of_isValid ho hd]
      exact contains_computedCells
    have hwider {narrow wide : Float} (h : narrow ≤ wide) (c : Cell)
        (hc : (between catalog origin destination narrow spacing).computed.contains c) :
        (between catalog origin destination wide spacing).computed.contains c := by
      rw [hcomputed] at hc ⊢
      exact hc.imp_left (·.mono (diskRadius_mono h))
    exact {
      computed := hcomputed
      available := fun _ _ => contains_available ho hd
      ends := fun width _ _ _ hp hcell hc hlisted =>
        contains_ends ho hd hp hcell hc hlisted width spacing
      widening := fun h c => ⟨hwider h c, fun hc => by
        rw [contains_available ho hd] at hc ⊢
        exact hc.imp_left (hwider h c)⟩
      widest := fun hw hv => by
        simp only [between_of_isValid ho hd, computedCells, diskRadius_of_seventy_le hw,
          diskRadius_of_seventy_le hv] }
  · have hempty : between catalog origin destination width spacing = empty := by
      unfold between
      rw [if_neg (by simpa using h)]
    rw [hempty]
    exact ⟨rfl, rfl⟩

/-- Along the equator, where only the first end has a partition. -/
theorem between_covers_equator : ∃ cell, Cell.containing ⟨0.0, 0.0⟩ 6 = some cell ∧
    let catalog : Catalog := ⟨⟨[]⟩, 6, (∅ : CellSet).insert cell⟩
    let corridor (width : Float) := between catalog ⟨0.0, 0.0⟩ ⟨0.0, 1.0⟩ width 2.5
    (corridor (0.0 / 0.0)).available.contains cell ∧
    (12.0 : Float) ≤ 20.0 ∧
    (∀ c, (corridor 12.0).computed.contains c → (corridor 20.0).computed.contains c) ∧
    (70 : Float) ≤ 100.0 ∧ corridor 100.0 = corridor 70 ∧
    ¬ ((⟨0.0, 0.0⟩ : Point).isValid ∧ (⟨0.0, 181.0⟩ : Point).isValid) ∧
    (between catalog ⟨0.0, 0.0⟩ ⟨0.0, 181.0⟩ 12.0 2.5).computed = ∅ := by
  have ho : (⟨0.0, 0.0⟩ : Point).isValid := by decide +kernel
  have hd : (⟨0.0, 1.0⟩ : Point).isValid := by decide +kernel
  have hoff : ¬ ((⟨0.0, 0.0⟩ : Point).isValid ∧ (⟨0.0, 181.0⟩ : Point).isValid) := by decide +kernel
  have hwidths : (12.0 : Float) ≤ 20.0 ∧ (70 : Float) ≤ 100.0 ∧ (70 : Float) ≤ 70 := by decide +kernel
  obtain ⟨cell, hcell⟩ := Option.isSome_iff_exists.1 (Cell.isSome_containing ho 6)
  refine ⟨cell, hcell, ?_⟩
  have hcovers := (between_covers ⟨⟨[]⟩, 6, (∅ : CellSet).insert cell⟩
    ⟨0.0, 0.0⟩ ⟨0.0, 1.0⟩ 2.5).1 ho hd
  have hempty := (between_covers ⟨⟨[]⟩, 6, (∅ : CellSet).insert cell⟩
    ⟨0.0, 0.0⟩ ⟨0.0, 181.0⟩ 2.5).2 hoff
  exact ⟨hcovers.ends _ (.inl rfl) hcell (.inl rfl) (by simp),
    hwidths.1, fun c => (hcovers.widening hwidths.1 c).1,
    hwidths.2.1, hcovers.widest hwidths.2.1 hwidths.2.2, hoff, (hempty 12.0).1⟩

end Corridor
end RoadRouting.Trip
