import RoadRouting.Grid.Hex

/-!
# Faces and base cells

The grid is drawn on the twenty faces of an icosahedron. Its coarsest resolution has 122 base cells;
twelve of them lie on the vertices of the icosahedron and are pentagons. The tables say where each
base cell lies and which base cell lies at each place of a face.
-/

namespace RoadRouting.Grid
set_option autoImplicit false

/-- A face of the icosahedron. -/
abbrev Face := Fin 20

/-- A cell of the coarsest resolution. -/
abbrev BaseCell := Fin 122

/-- The face on which each base cell lies, and its place there. -/
def homes : Array (Face × Int × Int) :=
  #[
    (1, 1, 0), (2, 1, 1), (1, 0, 0), (2, 1, 0), (0, 2, 0), (1, 1, 1), (1, -1, -1), (2, 0, 0),
    (0, 1, 0), (2, 0, 1), (1, 0, 1), (1, -1, 0), (3, 1, 0), (3, 1, 1), (11, 2, 0), (4, 1, 0),
    (0, 0, 0), (6, 0, 1), (0, -1, -1), (2, -1, 0), (7, -1, -1), (2, -1, -1), (0, 1, 1), (6, -1, -1),
    (10, 2, 0), (6, 0, 0), (3, 0, 0), (11, 1, 0), (4, 1, 1), (3, 0, 1), (0, -1, 0), (4, 0, 0),
    (5, 0, 1), (0, 0, 1), (7, 0, 1), (11, 1, 1), (7, 0, 0), (10, 1, 0), (12, 2, 0), (6, 0, -1),
    (7, 0, -1), (4, -1, -1), (3, -1, -1), (3, -1, 0), (4, 0, 1), (6, 1, 0), (11, 0, 0), (8, -1, -1),
    (5, -1, -1), (14, 2, 0), (5, 0, 0), (12, 1, 0), (10, 1, 1), (4, -1, 0), (12, 1, 1), (7, 1, 0),
    (11, 0, 1), (10, 0, 0), (13, 2, 0), (10, -1, -1), (11, -1, -1), (9, 0, 1), (8, 0, 1), (6, 2, 0),
    (8, 0, 0), (9, -1, -1), (14, 1, 0), (5, 0, -1), (16, -1, 0), (8, 0, -1), (5, 1, 0), (12, 0, 0),
    (7, 2, 0), (12, 0, 1), (10, 0, 1), (9, 0, 0), (13, 1, 0), (16, -1, -1), (15, -1, 0), (15, 0, 1),
    (16, 0, 1), (14, 1, 1), (13, 1, 1), (5, 2, 0), (8, 1, 0), (14, 0, 0), (9, 0, -1), (14, -1, -1),
    (17, -1, -1), (12, -1, -1), (16, 0, 0), (17, -1, 0), (15, -1, -1), (16, 0, -1), (9, 1, 0), (15, 0, 0),
    (13, 0, 0), (8, 2, 0), (13, 0, 1), (17, 0, -1), (19, 0, 1), (14, 0, 1), (19, -1, 0), (17, 0, 1),
    (13, -1, -1), (17, 0, 0), (16, 1, 0), (9, 2, 0), (15, 0, -1), (15, 1, 0), (18, -1, 0), (18, -1, -1),
    (19, -1, -1), (17, 1, 0), (19, 0, 0), (18, 0, 1), (18, 0, -1), (19, 2, 0), (19, 1, 0), (18, 0, 0),
    (19, 0, -1), (18, 1, 0)]

/-- The face that is tried first. -/
def Face.first : Face := 0

/-- The base cells at ten places of each face, with the sixths of a turn from the face's axes to the
base cell's own. -/
def placed : Array (Array (BaseCell × Nat)) :=
  #[
    #[(16, 0), (8, 0), (33, 0), (18, 0), (22, 0), (30, 0), (5, 5), (4, 0), (49, 1), (24, 0)],
    #[(2, 0), (0, 0), (10, 0), (6, 0), (5, 0), (11, 0), (1, 5), (4, 1), (24, 1), (14, 0)],
    #[(7, 0), (3, 0), (9, 0), (21, 0), (1, 0), (19, 0), (13, 5), (4, 2), (14, 1), (38, 0)],
    #[(26, 0), (12, 0), (29, 0), (42, 0), (13, 0), (43, 0), (28, 5), (4, 3), (38, 1), (58, 0)],
    #[(31, 0), (15, 0), (44, 0), (41, 0), (28, 0), (53, 0), (22, 5), (4, 4), (58, 1), (49, 0)],
    #[(50, 0), (70, 0), (32, 0), (48, 0), (52, 3), (30, 3), (67, 0), (83, 0), (24, 3), (49, 3)],
    #[(25, 0), (45, 0), (17, 0), (23, 0), (35, 3), (11, 3), (39, 0), (63, 0), (14, 3), (24, 3)],
    #[(36, 0), (55, 0), (34, 0), (20, 0), (54, 3), (19, 3), (40, 0), (72, 0), (38, 3), (14, 3)],
    #[(64, 0), (84, 0), (62, 0), (47, 0), (82, 3), (43, 3), (69, 0), (97, 0), (58, 3), (38, 3)],
    #[(75, 0), (94, 0), (61, 0), (65, 0), (81, 3), (53, 3), (86, 0), (107, 0), (49, 3), (58, 3)],
    #[(57, 0), (37, 0), (74, 0), (59, 0), (52, 0), (78, 3), (39, 3), (24, 0), (83, 3), (63, 3)],
    #[(46, 0), (27, 0), (56, 0), (60, 0), (35, 0), (68, 3), (40, 3), (14, 0), (63, 3), (72, 3)],
    #[(71, 0), (51, 0), (73, 0), (89, 0), (54, 0), (91, 3), (69, 3), (38, 0), (72, 3), (97, 3)],
    #[(96, 0), (76, 0), (98, 0), (104, 0), (82, 0), (110, 3), (86, 3), (58, 0), (97, 3), (107, 3)],
    #[(85, 0), (66, 0), (101, 0), (87, 0), (81, 0), (102, 3), (67, 3), (49, 0), (107, 3), (83, 3)],
    #[(95, 0), (109, 0), (79, 0), (92, 0), (93, 1), (78, 0), (108, 0), (117, 4), (63, 1), (83, 0)],
    #[(90, 0), (106, 0), (80, 0), (77, 0), (99, 1), (68, 0), (93, 0), (117, 3), (72, 1), (63, 0)],
    #[(105, 0), (113, 0), (103, 0), (88, 0), (116, 1), (91, 0), (99, 0), (117, 2), (97, 1), (72, 0)],
    #[(119, 0), (121, 0), (115, 0), (111, 0), (120, 1), (110, 0), (116, 0), (117, 1), (107, 1), (97, 0)],
    #[(114, 0), (118, 0), (100, 0), (112, 0), (108, 1), (102, 0), (120, 0), (117, 0), (83, 1), (107, 0)]]

/-- The ten places of a face in the order of the table: the centre, its six neighbours and the three
corners. -/
def places : List Hex :=
  [.ofAxes 0 0 0, .ofAxes 1 0 0, .ofAxes 0 1 0, .ofAxes 0 0 1, .ofAxes 1 1 0, .ofAxes 0 1 1,
    .ofAxes 1 0 1, .ofAxes 2 0 0, .ofAxes 0 2 0, .ofAxes 0 0 2]

/-- The three corners of a face. -/
def corners : List Hex := [.ofAxes 2 0 0, .ofAxes 0 2 0, .ofAxes 0 0 2]

/-- The base cell at a place of a face, with the sixths of a turn to its own axes. -/
def baseCellAt (face : Face) (place : Hex) : BaseCell × Nat :=
  ((placed.getD face.val #[]).getD ((places.idxOf? place).getD 0) (0, 0))

namespace BaseCell

/-- The face and the place of a base cell. -/
def home (b : BaseCell) : Face × Hex :=
  let (face, i, j) := homes.getD b.val (0, 0, 0)
  (face, ⟨i, j⟩)

/-- The twelve base cells that are pentagons. -/
def pentagons : List Nat := [4, 14, 24, 38, 49, 58, 63, 72, 83, 97, 107, 117]

/-- Whether the base cell is a pentagon. -/
def isPentagon (b : BaseCell) : Bool := pentagons.contains b.val

/-- The two faces on which a pentagon's missing sector is closed by a turn to the right. -/
def rightTurning (b : BaseCell) : List Nat :=
  match b.val with
  | 14 => [2, 6]
  | 24 => [1, 5]
  | 38 => [3, 7]
  | 49 => [0, 9]
  | 58 => [4, 8]
  | 63 => [11, 15]
  | 72 => [12, 16]
  | 83 => [10, 19]
  | 97 => [13, 17]
  | 107 => [14, 18]
  | _ => []

end BaseCell
end RoadRouting.Grid
