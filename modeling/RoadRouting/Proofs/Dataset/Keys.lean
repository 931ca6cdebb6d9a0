import RoadRouting.Dataset.Writer
import RoadRouting.Proofs.Store.Directories
import RoadRouting.Proofs.Text.Trim
import Mathlib.Tactic.IntervalCases

/-!
# Keys and manifests

A cell is named by its number in hexadecimal digits, and that text names no other cell
(`fromText_text`); so cells have files of different names. A manifest that names some cells of its
resolution is read as the catalog of these cells (`load_manifest`).
-/

namespace RoadRouting.Text
set_option autoImplicit false

/-! ## Hexadecimal digits -/

theorem hexValue?_digitChar {d : Nat} (h : d < 16) : hexValue? d.digitChar = some d := by
  interval_cases d <;> rfl

theorem isBlank_digitChar {d : Nat} (h : d < 16) : isBlank d.digitChar = false := by
  interval_cases d <;> rfl

/-- Every character of a number is the digit of a value. -/
theorem exists_digit {n : Nat} {c : Char} (h : c ∈ Nat.toDigits 16 n) :
    ∃ d < 16, c = d.digitChar := by
  induction n using Nat.strongRecOn with
  | _ n ih =>
    by_cases hn : n < 16
    · rw [Nat.toDigits_of_lt_base hn, List.mem_singleton] at h
      exact ⟨n, hn, h⟩
    · rw [Nat.toDigits_of_base_le (by decide) (by omega), List.mem_append, List.mem_singleton] at h
      rcases h with h | h
      · exact ih (n / 16) (by omega) h
      · exact ⟨n % 16, by omega, h⟩

theorem hexDigits?_toDigits (n : Nat) : hexDigits? (Nat.toDigits 16 n) = some n := by
  induction n using Nat.strongRecOn with
  | _ n ih =>
    by_cases hn : n < 16
    · rw [Nat.toDigits_of_lt_base hn]
      simp [hexDigits?, hexValue?_digitChar hn]
    · have hlead := ih (n / 16) (by omega)
      have hlast : n % 16 < 16 := by omega
      unfold hexDigits? at hlead ⊢
      rw [Nat.toDigits_of_base_le (by decide) (by omega), List.foldlM_append, hlead]
      simp [hexValue?_digitChar hlast]
      omega

/-- A number that fits in 64 bits is read from its digits. -/
theorem readHex64?_toDigits (raw : UInt64) : readHex64? (Nat.toDigits 16 raw.toNat) = some raw := by
  have hdigits := hexDigits?_toDigits raw.toNat
  have hplus : '+' ∉ Nat.toDigits 16 raw.toNat := by
    intro hmem
    obtain ⟨d, hd, hc⟩ := exists_digit hmem
    interval_cases d <;> exact absurd hc (by decide)
  have hne : (Nat.toDigits 16 raw.toNat).isEmpty = false := by simp [Nat.toDigits_ne_nil]
  have hbound : raw.toNat < 1 <<< 64 := raw.toNat_lt
  unfold readHex64?
  split
  · rename_i rest heq
    rw [heq] at hplus
    exact absurd List.mem_cons_self hplus
  · simp only [hne, hdigits, hbound, Bool.false_eq_true, if_false, if_true]
    exact congrArg some UInt64.ofNat_toNat

end RoadRouting.Text

namespace RoadRouting.Grid.Cell
set_option autoImplicit false

theorem toList_text (c : Cell) : c.text.toList = Nat.toDigits 16 c.raw.toNat := by
  simp [text, Text.hex]

/-- The text of a cell names it. -/
theorem fromText_text (c : Cell) : fromText c.text = .ok c := by
  have hblank : ∀ x ∈ Nat.toDigits 16 c.raw.toNat, Text.isBlank x = false := by
    intro x hx
    obtain ⟨d, hd, rfl⟩ := Text.exists_digit hx
    exact Text.isBlank_digitChar hd
  unfold fromText
  rw [toList_text, Text.trim_eq_self hblank, Text.readHex64?_toDigits]
  have hraw : ofRaw c.raw = .ok c := by
    unfold ofRaw
    split
    · rfl
    · rename_i f hf
      rw [c.flawless] at hf
      cases hf
  simp only [fromNumber, hraw]

theorem text_injective {a b : Cell} (h : a.text = b.text) : a = b := by
  have hread := fromText_text a
  rw [h, fromText_text b] at hread
  exact (Except.ok.inj hread).symm

end RoadRouting.Grid.Cell

namespace RoadRouting.Dataset
set_option autoImplicit false
open Store (Path Disk)
open Grid (Cell CellSet Resolution)

/-! ## Names of files -/

theorem toList_fileName (c : Cell) :
    (fileName c).toList = fileStart ++ (Nat.toDigits 16 c.raw.toNat ++ '.' :: fileEnding) := by
  rw [fileName, String.toList_ofList, Cell.toList_text, List.append_assoc]

theorem fileName_injective {a b : Cell} (h : fileName a = fileName b) : a = b := by
  have hlist := congrArg String.toList h
  rw [toList_fileName, toList_fileName] at hlist
  have hdigits := List.append_cancel_right (List.append_cancel_left hlist)
  refine Cell.text_injective (String.toList_injective ?_)
  rw [Cell.toList_text, Cell.toList_text, hdigits]

/-- A character takes at most four bytes. -/
theorem utf8ByteSize_le (s : String) : s.utf8ByteSize ≤ 4 * s.toList.length := by
  obtain ⟨cs, rfl⟩ : ∃ cs, s = String.ofList cs := ⟨s.toList, String.ofList_toList.symm⟩
  rw [String.toList_ofList]
  induction cs with
  | nil => decide
  | cons c rest ih =>
    have hc := c.utf8Size_le_four
    rw [String.ofList_cons, String.utf8ByteSize_append, String.utf8ByteSize_singleton, List.length_cons]
    omega

/-- The file of a cell is an entry of its directory. -/
theorem names_fileName (c : Cell) : Path.Names (fileName c) := by
  have hfirst : ∀ s : String, s.toList.head? ≠ some 'h' → fileName c ≠ s := by
    rintro s hs rfl
    rw [toList_fileName] at hs
    exact hs rfl
  have hdigits : (Nat.toDigits 16 c.raw.toNat).length ≤ 16 :=
    (Nat.length_toDigits_le_iff (by decide) (by decide)).2 c.raw.toNat_lt
  constructor
  · rw [Path.isIdle, Bool.or_eq_false_iff, decide_eq_false_iff_not, decide_eq_false_iff_not]
    exact ⟨hfirst _ (by decide), hfirst _ (by decide)⟩
  · exact hfirst _ (by decide)
  · have hbytes := utf8ByteSize_le (fileName c)
    rw [toList_fileName, List.length_append, List.length_append] at hbytes
    have hstart : fileStart.length = 3 := rfl
    have hending : ('.' :: fileEnding).length = 8 := rfl
    exact decide_eq_true (by omega)
  · have hzero : '\x00' ∉ Nat.toDigits 16 c.raw.toNat := by
      intro hmem
      obtain ⟨d, hd, hc⟩ := Text.exists_digit hmem
      interval_cases d <;> exact absurd hc (by decide)
    rw [List.contains_eq_mem, decide_eq_false_iff_not, toList_fileName, List.mem_append, List.mem_append]
    rintro (h | h | h)
    · exact absurd h (by decide)
    · exact hzero h
    · exact absurd h (by decide)

theorem names_manifestName : Path.Names manifestName :=
  ⟨by decide +kernel, by decide +kernel, by decide +kernel, by decide +kernel⟩

theorem names_junctionDirectory (r : Resolution) : Path.Names ("nodes_h3_" ++ toString r.val) := by
  constructor <;> revert r <;> decide +kernel

theorem names_roadDirectory (r : Resolution) : Path.Names ("edges_h3_" ++ toString r.val) := by
  constructor <;> revert r <;> decide +kernel

/-! ## Manifests -/

namespace Manifest

/-- The number of a resolution is read back. -/
theorem asNat?_nat (r : Resolution) : Json.asNat? 256 (.nat r.val) = some r.val := by
  revert r
  decide +kernel

/-- The texts of some cells are read back. -/
theorem asList?_text (cells : List Cell) :
    Json.asList? Json.asString? (.array (cells.map fun c => .string c.text)) =
      some (cells.map Cell.text) := by
  rw [Json.asList?, List.mapM_map]
  exact List.mapM_pure

theorem ofJson?_toJson (r : Resolution) (cells : List Cell) :
    ofJson? (toJson r cells) = some ⟨r.val, some (cells.map Cell.text)⟩ := by
  have hfields : (toJson r cells).fields? fieldNames = some [some (.nat r.val),
      some (.array (cells.map fun c => .string c.text))] := rfl
  unfold ofJson?
  simp [hfields, asNat?_nat, Json.orDefault, Json.asOption?, asList?_text]

end Manifest

namespace Catalog

theorem foldlM_addKey {cells : List Cell} {c : Catalog} (h : ∀ x ∈ cells, x.resolution = c.resolution) :
    (cells.map Cell.text).foldlM addKey c =
      .ok { c with cells := cells.foldl (fun s x => s.insert x) c.cells } := by
  induction cells generalizing c with
  | nil => rfl
  | cons x rest ih =>
    have hkey : addKey c x.text = .ok { c with cells := c.cells.insert x } := by
      simp only [addKey, readKey, Cell.fromText_text, h x List.mem_cons_self, if_true]
    rw [List.map_cons, List.foldlM_cons, hkey]
    exact ih fun y hy => h y (List.mem_cons_of_mem _ hy)

/-- A manifest that names cells of its resolution makes the catalog of these cells. -/
theorem load_manifest {disk : Disk} {root : Path} {r : Resolution} {cells : List Cell}
    (hread : disk.read? (root.child manifestName) = some (.json (Manifest.toJson r cells)))
    (hcells : ∀ c ∈ cells, c.resolution = r) : load disk root = .ok (ofCells root r cells) := by
  have hmanifest : readManifest disk root = .ok ⟨r.val, some (cells.map Cell.text)⟩ := by
    simp only [readManifest, hread, Store.Document.json?, Option.bind_some, Manifest.ofJson?_toJson]
  unfold load
  rw [hmanifest]
  simp only [bind, Except.bind, r.isLt, dif_pos, Option.getD_some]
  exact foldlM_addKey (c := ⟨root, r, ∅⟩) hcells

end Catalog
end RoadRouting.Dataset
