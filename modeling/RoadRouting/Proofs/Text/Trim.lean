import RoadRouting.Text.Blank
import Mathlib.Data.List.DropRight

/-!
# Trimming

Trimming takes blanks off both ends and nothing else (`exists_trim`), so it does not matter how many of them there
are (`trim_blanks_append`, `trim_append_blanks`), and it makes no difference whether it is done before or after the
letters are made small (`trim_map_toLower`).
-/

namespace RoadRouting.Text
set_option autoImplicit false

variable {cs before after word : List Char} {c : Char}

/-- What is trimmed is blank. -/
theorem exists_trim (cs : List Char) : ∃ before after, (∀ c ∈ before, isBlank c) ∧ (∀ c ∈ after, isBlank c) ∧
    cs = before ++ trim cs ++ after := by
  have hfirst := List.takeWhile_append_dropWhile (p := isBlank) (l := cs)
  have hlast := List.takeWhile_append_dropWhile (p := isBlank) (l := (cs.dropWhile isBlank).reverse)
  refine ⟨cs.takeWhile isBlank, ((cs.dropWhile isBlank).reverse.takeWhile isBlank).reverse,
    fun c hc => List.mem_takeWhile_imp hc, fun c hc => List.mem_takeWhile_imp (List.mem_reverse.1 hc), ?_⟩
  rw [trim, List.append_assoc, ← List.reverse_append, hlast, List.reverse_reverse, hfirst]

/-- A character that is no blank is kept. -/
theorem mem_trim (hc : c ∈ cs) (hblank : isBlank c = false) : c ∈ trim cs := by
  obtain ⟨before, after, hbefore, hafter, heq⟩ := exists_trim cs
  rw [heq, List.mem_append, List.mem_append] at hc
  rcases hc with (hc | hc) | hc
  · simp [hbefore c hc] at hblank
  · exact hc
  · simp [hafter c hc] at hblank

theorem trim_blanks_append (h : ∀ c ∈ before, isBlank c) : trim (before ++ cs) = trim cs := by
  rw [trim, trim, List.dropWhile_append_of_pos h]

theorem trim_append_blanks (h : ∀ c ∈ after, isBlank c) : trim (cs ++ after) = trim cs := by
  have hall : after.dropWhile isBlank = [] := List.dropWhile_eq_nil_iff.2 h
  rw [trim, trim, List.dropWhile_append, hall]
  split
  · rename_i hempty
    rw [List.isEmpty_iff.1 hempty]
  · rw [List.reverse_append, List.dropWhile_append_of_pos fun c hc => h c (List.mem_reverse.1 hc)]

theorem trim_dropWhile : trim (cs.dropWhile isBlank) = trim cs := by
  rw [trim, trim, List.dropWhile_idempotent]

/-- Blanks stop where a word starts. -/
theorem dropWhile_word_append (hne : word ≠ []) (h : ∀ c ∈ word, isBlank c = false) :
    (word ++ cs).dropWhile isBlank = word ++ cs := by
  cases word with
  | nil => exact absurd rfl hne
  | cons c rest => rw [List.cons_append, List.dropWhile_cons_of_neg (by simp [h c List.mem_cons_self])]

/-- Behind a word there is nothing to trim. -/
theorem trim_append_word (hne : word ≠ []) (h : ∀ c ∈ word, isBlank c = false) :
    trim (cs ++ word) = cs.dropWhile isBlank ++ word := by
  have hword : (word ++ []).dropWhile isBlank = word ++ [] := dropWhile_word_append hne h
  rw [List.append_nil] at hword
  have hfirst : (cs ++ word).dropWhile isBlank = cs.dropWhile isBlank ++ word := by
    rw [List.dropWhile_append, hword]
    split
    · rename_i hempty
      rw [List.isEmpty_iff.1 hempty, List.nil_append]
    · rfl
  have hreverse : word.reverse ≠ [] := fun heq => hne (List.reverse_eq_nil_iff.1 heq)
  rw [trim, hfirst, List.reverse_append,
    dropWhile_word_append hreverse fun c hc => h c (List.mem_reverse.1 hc), ← List.reverse_append,
    List.reverse_reverse]

/-- A text whose characters are no blanks is not trimmed. -/
theorem trim_eq_self (h : ∀ c ∈ cs, isBlank c = false) : trim cs = cs := by
  by_cases hne : cs = []
  · rw [hne]
    rfl
  · have hword : trim ([] ++ cs) = [].dropWhile isBlank ++ cs := trim_append_word hne h
    simpa using hword

/-! ## Small letters -/

theorem toNat_toLower (c : Char) :
    c.toLower.toNat = if 65 ≤ c.toNat ∧ c.toNat ≤ 90 then c.toNat + 32 else c.toNat := by
  have hcapital : c.val ≥ 'A'.val ∧ c.val ≤ 'Z'.val ↔ 65 ≤ c.toNat ∧ c.toNat ≤ 90 := Iff.rfl
  unfold Char.toLower
  by_cases h : c.val ≥ 'A'.val ∧ c.val ≤ 'Z'.val
  · have hc := hcapital.1 h
    rw [dif_pos h, if_pos hc]
    show (c.val + 32).toNat = c.toNat + 32
    rw [UInt32.toNat_add]
    show (c.toNat + 32) % 2 ^ 32 = c.toNat + 32
    omega
  · rw [dif_neg h, if_neg (mt hcapital.2 h)]

theorem isBlank_iff {c : Char} : isBlank c ↔ (9 ≤ c.toNat ∧ c.toNat ≤ 13) ∨ c.toNat = 0x20 ∨
    c.toNat = 0x85 ∨ c.toNat = 0xa0 ∨ c.toNat = 0x1680 ∨ (0x2000 ≤ c.toNat ∧ c.toNat ≤ 0x200a) ∨
    c.toNat = 0x2028 ∨ c.toNat = 0x2029 ∨ c.toNat = 0x202f ∨ c.toNat = 0x205f ∨ c.toNat = 0x3000 := by
  simp [isBlank, or_assoc]

theorem isBlank_toLower (c : Char) : isBlank c.toLower = isBlank c := by
  rw [Bool.eq_iff_iff, isBlank_iff, isBlank_iff, toNat_toLower]
  split <;> omega

theorem trim_map_toLower : trim (cs.map Char.toLower) = (trim cs).map Char.toLower := by
  have hblank : isBlank ∘ Char.toLower = isBlank := funext isBlank_toLower
  rw [trim, trim, List.dropWhile_map, hblank, ← List.map_reverse, List.dropWhile_map, hblank,
    List.map_reverse]

end RoadRouting.Text
