import RoadRouting.Grid.BaseCell
import RoadRouting.Text.Blank
import RoadRouting.Text.Hex
import RoadRouting.Text.Quoted

/-!
# Cells

A cell of the hexagonal grid is a 64-bit number: a mode, a resolution, a base cell, and one digit of
three bits for each of fifteen resolutions. A digit is a step from the centre of a cell to one of its
children; the digits beyond the cell's resolution are all seven. `Cell.ofRaw` tells which numbers are
cells, and `Cell.ofAddress` builds the cell at the end of a path of steps.
-/

namespace RoadRouting.Grid
set_option autoImplicit false

/-- How fine a cell is: resolution zero has the base cells, each further one cells of a seventh of the
size. -/
abbrev Resolution := Fin 16

/-- The number with the given octal digits. -/
def ofOctal : List Nat → Nat
  | [] => 0
  | d :: ds => d * Nat.pow 8 ds.length + ofOctal ds

/-- The last `k` octal digits of `n`. -/
def octal : Nat → Nat → List Nat
  | 0, _ => []
  | k + 1, n => n / Nat.pow 8 k % 8 :: octal k n

theorem ofOctal_lt {ds : List Nat} (h : ∀ d ∈ ds, d < 8) : ofOctal ds < Nat.pow 8 ds.length := by
  induction ds with
  | nil => simp [ofOctal]
  | cons d ds ih =>
    have hd : d < 8 := h d List.mem_cons_self
    have hr := ih fun e he => h e (List.mem_cons_of_mem _ he)
    have : d * Nat.pow 8 ds.length ≤ 7 * Nat.pow 8 ds.length := Nat.mul_le_mul_right _ (by omega)
    have hpow : Nat.pow 8 (ds.length + 1) = Nat.pow 8 ds.length * 8 := rfl
    rw [ofOctal, List.length_cons, hpow]
    omega

/-- Reading digits back: whatever stands above them. -/
theorem octal_ofOctal {ds : List Nat} (h : ∀ d ∈ ds, d < 8) (above : Nat) :
    octal ds.length (above * Nat.pow 8 ds.length + ofOctal ds) = ds := by
  induction ds generalizing above with
  | nil => rfl
  | cons d ds ih =>
    have hd : d < 8 := h d List.mem_cons_self
    have ht : ∀ e ∈ ds, e < 8 := fun e he => h e (List.mem_cons_of_mem _ he)
    have hlt := ofOctal_lt ht
    have hpos : 0 < Nat.pow 8 ds.length := Nat.pow_pos (by omega)
    have hsplit : above * Nat.pow 8 (ds.length + 1) + ofOctal (d :: ds) =
        (8 * above + d) * Nat.pow 8 ds.length + ofOctal ds := by
      have hpow : Nat.pow 8 (ds.length + 1) = 8 * Nat.pow 8 ds.length := Nat.mul_comm _ 8
      rw [ofOctal, hpow, Nat.add_mul, Nat.mul_left_comm, Nat.mul_assoc, Nat.add_assoc]
    have hdiv : ((8 * above + d) * Nat.pow 8 ds.length + ofOctal ds) / Nat.pow 8 ds.length = 8 * above + d := by
      rw [Nat.mul_comm, Nat.mul_add_div hpos, Nat.div_eq_of_lt hlt, Nat.add_zero]
    simp only [List.length_cons, octal, hsplit, hdiv, ih ht]
    congr 1
    omega

/-- Why a number is no cell. -/
inductive Flaw where
  | reservedBits
  | mode
  | baseCell
  | unusedDigits
  | missingDigit
  | deletedSector
  deriving DecidableEq, Repr

/-- The wording of a flaw. -/
def Flaw.message : Flaw → String
  | .reservedBits => "tainted reserved bits"
  | .mode => "invalid index mode"
  | .baseCell => "invalid base cell"
  | .unusedDigits => "invalid unused direction pattern"
  | .missingDigit => "unexpected unused direction"
  | .deletedSector => "pentagonal cell index with a deleted subsequence"

/-- The resolution field of a number. -/
def resolutionOf (n : Nat) : Resolution := ⟨n >>> 52 % 16, Nat.mod_lt _ (by decide)⟩

/-- The base cell field of a number. -/
def baseOf (n : Nat) : Nat := n >>> 45 % 128

/-- The digits of a number. -/
def digitsOf (n : Nat) : List Nat := octal 15 n

/-- Whether the first digit that leaves the centre leads into the sector that pentagons lack. -/
def startsDeleted (ds : List Nat) : Bool := ds.find? (· ≠ 0) = some 1

/-- The first flaw of a number as a cell. -/
def flaw? (n : Nat) : Option Flaw :=
  if n >>> 63 ≠ 0 ∨ n >>> 56 % 8 ≠ 0 then some .reservedBits
  else if n >>> 59 % 16 ≠ 1 then some .mode
  else if 122 ≤ baseOf n then some .baseCell
  else
    let used := (digitsOf n).take (resolutionOf n).val
    if ((digitsOf n).drop (resolutionOf n).val).any (· ≠ 7) then some .unusedDigits
    else if used.contains 7 then some .missingDigit
    else if BaseCell.pentagons.contains (baseOf n) && startsDeleted used then some .deletedSector
    else none

/-- A cell of the grid. -/
structure Cell where
  raw : UInt64
  flawless : flaw? raw.toNat = none

namespace Cell

instance : DecidableEq Cell := fun a b =>
  if h : a.raw = b.raw then isTrue (by cases a; cases b; cases h; rfl)
  else isFalse fun e => h (e ▸ rfl)

instance : Hashable Cell := ⟨fun c => hash c.raw⟩

/-- The number of a cell without its resolution. -/
def trail (c : Cell) : UInt64 := c.raw &&& 0xff0fffffffffffff

/-- Cells are ordered by base cell and steps, whatever their resolutions; so the cells within a cell
stand together, in front of it. -/
instance : Ord Cell := ⟨compareLex (compareOn trail) (compareOn raw)⟩

theorem raw_inj {a b : Cell} (h : a.raw = b.raw) : a = b := by
  cases a; cases b; cases h; rfl

/-- The cell with a given number, or what is wrong with the number. -/
def ofRaw (raw : UInt64) : Except Flaw Cell :=
  match h : flaw? raw.toNat with
  | none => .ok ⟨raw, h⟩
  | some f => .error f

/-- The resolution of a cell. -/
def resolution (c : Cell) : Resolution := resolutionOf c.raw.toNat

/-- A cell as lower-case hexadecimal text. -/
def text (c : Cell) : String := Text.hex c.raw.toNat

/-- Why a text or a number names no cell. -/
inductive Refusal where
  | unreadable
  | flawed (raw : UInt64) (flaw : Flaw)
  deriving DecidableEq, Repr

/-- The wording of a refusal. -/
def Refusal.message : Refusal → String
  | .unreadable => "invalid cell index (got None): invalid 64-bit hex number"
  | .flawed raw flaw =>
    "invalid cell index (got Some(" ++ toString raw.toNat ++ ")): " ++ flaw.message

/-- The cell with a given number, or the refusal. -/
def fromNumber (raw : UInt64) : Except Refusal Cell :=
  match ofRaw raw with
  | .ok c => .ok c
  | .error flaw => .error (.flawed raw flaw)

/-- The cell that a hexadecimal text names; blanks around it do not matter. -/
def fromText (s : String) : Except Refusal Cell :=
  match Text.readHex64? (Text.trim s.toList) with
  | some raw => fromNumber raw
  | none => .error .unreadable

end Cell

/-- Why a number is no resolution. -/
def resolutionRefusal (n : Nat) : String :=
  "invalid resolution (got Some(" ++ toString n ++ ")): out of range"

/-- The base cell from which a cell descends and the steps that lead to it. A pentagon has no steps
into its deleted sector. -/
structure Address where
  base : BaseCell
  path : List Digit

namespace Address

/-- The first step that leaves the centre. -/
def leading (a : Address) : Digit := Digit.leading a.path

/-- Turns all steps a sixth to the left. -/
def turnLeft (a : Address) : Address := { a with path := a.path.map Digit.turnLeft }

/-- Turns all steps a sixth to the right. -/
def turnRight (a : Address) : Address := { a with path := a.path.map Digit.turnRight }

/-- Turns a sixth to the left around a base cell; around a pentagon the deleted sector is skipped. -/
def turnAround (a : Address) : Address :=
  let b := a.turnLeft
  if a.base.isPentagon && b.leading.val = 1 then b.turnLeft else b

/-- `n` turns around the base cell. -/
def turnedAround (a : Address) : Nat → Address
  | 0 => a
  | n + 1 => a.turnAround.turnedAround n

/-- The address of a cell. -/
def ofCell (c : Cell) : Address :=
  let n := c.raw.toNat
  { base := ⟨baseOf n % 122, Nat.mod_lt _ (by decide)⟩
    path := ((digitsOf n).take c.resolution.val).map fun d => ⟨d % 7, Nat.mod_lt _ (by decide)⟩ }

/-- The digits of an address, with sevens beyond its end. -/
def digits (a : Address) : List Nat := a.path.map (·.val) ++ List.replicate (15 - a.path.length) 7

/-- The number of an address. -/
def number (a : Address) : Nat :=
  (1 <<< 14 + a.path.length <<< 7 + a.base.val) <<< 45 + ofOctal a.digits

/-- Whether the address leads into no deleted sector. -/
def isSound (a : Address) : Bool := !(a.base.isPentagon && a.leading.val = 1)

theorem length_digits {a : Address} (h : a.path.length ≤ 15) : a.digits.length = 15 := by
  simp [digits]; omega

theorem digit_lt {a : Address} : ∀ d ∈ a.digits, d < 8 := by
  intro d hd
  simp only [digits, List.mem_append, List.mem_map, List.mem_replicate] at hd
  rcases hd with ⟨e, _, rfl⟩ | ⟨_, rfl⟩ <;> omega

theorem digitsOf_number {a : Address} (h : a.path.length ≤ 15) : digitsOf a.number = a.digits := by
  have hread := octal_ofOctal (a.digit_lt) (1 <<< 14 + a.path.length <<< 7 + a.base.val)
  have hshift (n : Nat) : n <<< 45 = n * Nat.pow 8 15 := Nat.shiftLeft_eq n 45
  rw [length_digits h, ← hshift] at hread
  exact hread

theorem number_bounds {a : Address} (h : a.path.length ≤ 15) :
    ∃ low < 1 <<< 45,
      a.number = 1 <<< 59 + a.path.length <<< 52 + a.base.val <<< 45 + low := by
  have hlt := ofOctal_lt (a.digit_lt)
  rw [length_digits h] at hlt
  have hpow : Nat.pow 8 15 = 1 <<< 45 := rfl
  refine ⟨ofOctal a.digits, hpow ▸ hlt, ?_⟩
  unfold number
  omega

theorem resolutionOf_number {a : Address} (h : a.path.length ≤ 15) :
    (resolutionOf a.number).val = a.path.length := by
  obtain ⟨low, hlow, e⟩ := number_bounds h
  have := a.base.isLt
  simp only [resolutionOf, e]
  omega

theorem baseOf_number {a : Address} (h : a.path.length ≤ 15) : baseOf a.number = a.base.val := by
  obtain ⟨low, hlow, e⟩ := number_bounds h
  have := a.base.isLt
  simp only [baseOf, e]
  omega

theorem startsDeleted_map (ds : List Digit) :
    startsDeleted (ds.map (·.val)) = decide ((Digit.leading ds).val = 1) := by
  induction ds with
  | nil => rfl
  | cons d ds ih =>
    by_cases hd : d = 0
    · subst hd; simpa [startsDeleted, Digit.leading] using ih
    · simp [startsDeleted, Digit.leading, hd]

/-- A sound address of at most fifteen steps has a flawless number. -/
theorem flaw?_number {a : Address} (h : a.path.length ≤ 15) (hs : a.isSound = true) :
    flaw? a.number = none := by
  obtain ⟨low, hlow, e⟩ := number_bounds h
  have hb := a.base.isLt
  have hl : (a.path.map (·.val)).length = a.path.length := List.length_map ..
  have htake : a.digits.take a.path.length = a.path.map (·.val) := by
    rw [digits, List.take_append_of_le_length (by omega), List.take_of_length_le (by omega)]
  have hdrop : a.digits.drop a.path.length = List.replicate (15 - a.path.length) 7 := by
    rw [digits, List.drop_append_of_le_length (by omega), List.drop_of_length_le (by omega),
      List.nil_append]
  have h7 : (a.path.map (·.val)).contains 7 = false := by
    simp only [List.contains_eq_mem, List.mem_map, decide_eq_false_iff_not, not_exists, not_and]
    intro d _; omega
  have hp : (BaseCell.pentagons.contains a.base.val && startsDeleted (a.path.map (·.val))) = false := by
    rw [isSound, Bool.not_eq_true'] at hs
    rw [startsDeleted_map]
    exact hs
  unfold flaw?
  rw [if_neg (by omega), if_neg (by omega), if_neg (by rw [baseOf_number h]; omega)]
  simp only [digitsOf_number h, resolutionOf_number h, baseOf_number h, htake, hdrop, h7, hp]
  simp

theorem number_lt {a : Address} (h : a.path.length ≤ 15) : a.number < UInt64.size := by
  obtain ⟨low, hlow, e⟩ := number_bounds h
  have hb := a.base.isLt
  have hsize : UInt64.size = 1 <<< 64 := rfl
  omega

theorem toNat_number {a : Address} (h : a.path.length ≤ 15) :
    a.number.toUInt64.toNat = a.number :=
  UInt64.toNat_ofNat_of_lt' (a.number_lt h)

end Address

namespace Cell

/-- The cell at a sound address. -/
def ofAddress (a : Address) (h : a.path.length ≤ 15) (hs : a.isSound = true) : Cell where
  raw := a.number.toUInt64
  flawless := by
    rw [Address.toNat_number h]
    exact Address.flaw?_number h hs

/-- The resolution of the cell at an address is the number of its steps. -/
theorem resolution_ofAddress {a : Address} (h : a.path.length ≤ 15) (hs : a.isSound = true) :
    (ofAddress a h hs).resolution.val = a.path.length := by
  have : (ofAddress a h hs).raw.toNat = a.number := Address.toNat_number h
  simp only [resolution, this, Address.resolutionOf_number h]

end Cell
end RoadRouting.Grid
