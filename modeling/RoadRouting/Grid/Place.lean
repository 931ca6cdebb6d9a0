import RoadRouting.Grid.Cell
import RoadRouting.Grid.Face

/-!
# Cells and their places

`Cell.place` follows the steps of a cell from its base cell to a lattice point of a face;
`Cell.ofPlace` climbs from a lattice point to the base cell that contains it and records the steps.
Edges of faces are straight lines on the lattices of even resolution, so an odd resolution is refined
once before an edge is crossed.
-/

namespace RoadRouting.Grid
set_option autoImplicit false

/-- How many steps of an even resolution, or of the next one after an odd resolution, make a step of
resolution zero. -/
def unitOf (resolution : Nat) : Int := Int.pow 7 ((resolution + 1) / 2)

/-- Whether a resolution's lattice is turned against that of resolution zero. -/
def isOdd (resolution : Nat) : Bool := resolution % 2 = 1

/-- The place on the lattice of the resolution itself or, when that is odd, of the next one. -/
def Place.refined (p : Place) (resolution : Nat) : Place :=
  if isOdd resolution then { p with point := p.point.finer false } else p

/-- Takes `refined` back. -/
def Place.unrefined (p : Place) (resolution : Nat) : Place :=
  if isOdd resolution then { p with point := p.point.coarser false } else p

/-- Crosses one edge if the point lies beyond it. -/
def Place.crossedOnce (p : Place) (resolution : Nat) : Place :=
  match (p.refined resolution).settle? (unitOf resolution) with
  | some q => q.unrefined resolution
  | none => p

/-- The lattice point reached from a point by steps through ever finer resolutions. -/
def descend (resolution : Nat) (point : Hex) : List Digit → Hex
  | [] => point
  | d :: ds => descend (resolution + 1) (point.finer (isOdd (resolution + 1)) + d.step) ds

/-- In a pentagon's fourth sector the missing sector lies between the point and the face it belongs
to, so the point is turned about the pentagon's far corner before it crosses. -/
def Place.aroundGap (p : Place) (unit : Int) : Place :=
  let corner := Hex.ofAxes (2 * unit) 0 0
  { p with point := (p.point - corner).turnRight + corner }

/-- The place of an address. -/
def Address.place (a : Address) : Place :=
  let pentagon := a.base.isPentagon
  let path := if pentagon && a.leading.val = 5 then a.turnRight.path else a.path
  let resolution := path.length
  let unit := unitOf resolution
  let (face, point) := a.base.home
  let p : Place := ⟨face, descend 0 point path⟩
  if !pentagon && (resolution = 0 || point = .origin) then p
  else
    let q := p.refined resolution
    if q.isBeyond unit then
      let side := q.point.side
      let q := if pentagon && (Digit.leading path).val = 4 && side = .ki then q.aroundGap unit else q
      let q := q.cross side unit
      let q := if pentagon then q.settled unit 5 else q
      q.unrefined resolution
    else p

/-- The place of a cell. -/
def Cell.place (c : Cell) : Place := (Address.ofCell c).place

/-- The steps to a lattice point, in front of further steps, and the point of resolution zero at which
they begin. -/
def climb : Nat → Hex → List Digit → Hex × List Digit
  | 0, point, path => (point, path)
  | r + 1, point, path =>
    let above := point.coarser (isOdd (r + 1))
    climb r above (Digit.ofStep (point - above.finer (isOdd (r + 1))) :: path)

theorem length_climb (r : Nat) (point : Hex) (path : List Digit) :
    (climb r point path).2.length = r + path.length := by
  induction r generalizing point path with
  | zero => simp [climb]
  | succ r ih => simp only [climb, ih, List.length_cons]; omega

/-- On a pentagon, takes the steps out of the deleted sector: to the right on two faces, to the left
on the others. -/
def Address.leaveGap (a : Address) (face : Face) : Address :=
  if a.base.isPentagon && a.leading.val = 1 then
    if a.base.rightTurning.contains face.val then a.turnRight else a.turnLeft
  else a

/-- The address of a place on the lattice of a resolution. -/
def Place.address (p : Place) (resolution : Nat) : Address :=
  let (point, path) := climb resolution p.point []
  let (base, turns) := Place.baseCell ⟨p.face, point⟩
  (Address.leaveGap ⟨base, path⟩ p.face).turnedAround turns

namespace Address

theorem leading_map (f : Digit → Digit) (h0 : ∀ d, f d = 0 ↔ d = 0) (ds : List Digit) :
    Digit.leading (ds.map f) = f (Digit.leading ds) := by
  induction ds with
  | nil => simp [Digit.leading, (h0 0).2 rfl]
  | cons d ds ih =>
    by_cases hd : d = 0
    · subst hd; simpa [Digit.leading, (h0 0).2 rfl] using ih
    · have : f d ≠ 0 := fun e => hd ((h0 d).1 e)
      simp [Digit.leading, hd, this]

theorem leading_turnLeft (a : Address) : a.turnLeft.leading = a.leading.turnLeft :=
  leading_map _ (by decide) _

theorem leading_turnRight (a : Address) : a.turnRight.leading = a.leading.turnRight :=
  leading_map _ (by decide) _

theorem isSound_leaveGap (a : Address) (face : Face) : (a.leaveGap face).isSound = true := by
  unfold leaveGap
  split
  · rename_i h
    have h1 : a.leading = 1 := by simp at h; exact Fin.ext h.2
    have hright : a.turnRight.leading.val = 3 := by rw [leading_turnRight, h1]; rfl
    have hleft : a.turnLeft.leading.val = 5 := by rw [leading_turnLeft, h1]; rfl
    split
    · simp [isSound, hright]
    · simp [isSound, hleft]
  · rename_i h
    rw [isSound, Bool.not_eq_true', ← Bool.not_eq_true]
    exact h

theorem isSound_turnAround (a : Address) : a.turnAround.isSound = true := by
  unfold turnAround
  simp only
  split
  · rename_i h
    have h1 : a.turnLeft.leading = 1 := by simp at h; exact Fin.ext h.2
    have hleft : a.turnLeft.turnLeft.leading.val = 5 := by rw [leading_turnLeft, h1]; rfl
    simp [isSound, hleft]
  · rename_i h
    rw [isSound, Bool.not_eq_true', ← Bool.not_eq_true]
    exact h

theorem isSound_turnedAround {a : Address} (h : a.isSound = true) (n : Nat) :
    (a.turnedAround n).isSound = true := by
  induction n generalizing a with
  | zero => exact h
  | succ n ih => exact ih (isSound_turnAround a)

theorem length_leaveGap (a : Address) (face : Face) :
    (a.leaveGap face).path.length = a.path.length := by
  unfold leaveGap; split
  · split <;> simp [turnLeft, turnRight]
  · rfl

theorem length_turnedAround (a : Address) (n : Nat) :
    (a.turnedAround n).path.length = a.path.length := by
  induction n generalizing a with
  | zero => rfl
  | succ n ih =>
    rw [turnedAround, ih]
    unfold turnAround; simp only; split <;> simp [turnLeft]

end Address

theorem Place.isSound_address (p : Place) (r : Nat) : (p.address r).isSound = true :=
  Address.isSound_turnedAround (Address.isSound_leaveGap _ _) _

theorem Place.length_address (p : Place) (r : Nat) : (p.address r).path.length = r := by
  simp only [address, Address.length_turnedAround, Address.length_leaveGap, length_climb,
    List.length_nil, Nat.add_zero]

/-- The cell of a resolution at a place of its lattice. -/
def Cell.ofPlace (p : Place) (r : Resolution) : Cell :=
  .ofAddress (p.address r.val) (by rw [p.length_address]; omega) (p.isSound_address r.val)

/-- The cell at a place has the resolution of the lattice. -/
theorem Cell.resolution_ofPlace (p : Place) (r : Resolution) :
    (Cell.ofPlace p r).resolution = r :=
  Fin.ext ((Cell.resolution_ofAddress _ _).trans (p.length_address r.val))

end RoadRouting.Grid
