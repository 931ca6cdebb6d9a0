import RoadRouting.Store.Files
import Mathlib.Logic.Basic

/-!
# Reading what was written

A file that is written can be read, and what is read along paths to other locations stays the same. A
write replaces no directory, so whatever could be reached before can be reached after. The entries of a
directory have locations of their own (`Path.location_child`).
-/

namespace RoadRouting.Store
set_option autoImplicit false

namespace Path

/-- A text that names an entry of a directory. -/
structure Names (part : String) : Prop where
  idle : isIdle part = false
  up : part ≠ ".."
  short : isName part
  clean : part.toList.contains '\x00' = false

theorem Names.move {part : String} (h : Names part) (here : Location) : Path.move here part = here ++ [part] := by
  rw [Path.move, if_neg (by simp [h.idle]), if_neg h.up]

theorem Names.ne_empty {part : String} (h : Names part) : part ≠ "" := by
  rintro rfl
  exact absurd h.idle (by decide)

/-- What stands before the name of an entry. -/
def base (p : Path) : List String :=
  if p.parts.getLast? = some "" then p.parts.dropLast else p.parts

theorem parts_child (p : Path) (name : String) : (p.child name).parts = p.base ++ [name] := rfl

/-- A path is what stands before the name of an entry, or that with a slash. -/
theorem parts_cases (p : Path) : p.parts = p.base ∨ p.parts = p.base ++ [""] := by
  unfold base
  split
  · rename_i h
    obtain ⟨front, hfront⟩ := List.getLast?_eq_some_iff.1 h
    right
    rw [hfront, List.dropLast_concat]
  · exact .inl rfl

theorem location_base (p : Path) : p.base.foldl Path.move [] = p.location := by
  rcases p.parts_cases with h | h
  · rw [location, h]
  · rw [location, h, List.foldl_append]
    rfl

theorem location_child (p : Path) {name : String} (h : Names name) :
    (p.child name).location = p.location ++ [name] := by
  rw [location, parts_child, List.foldl_append, location_base, List.foldl_cons, List.foldl_nil, h.move]

theorem location_child_ne (p : Path) {a b : String} (ha : Names a) (hb : Names b) (hne : a ≠ b) :
    (p.child a).location ≠ (p.child b).location := by
  rw [p.location_child ha, p.location_child hb]
  intro heq
  exact hne (List.singleton_inj.1 (List.append_cancel_left heq))

end Path

namespace Files
variable {γ : Type} {f f' : Files γ} {p q : Path} {here there : Location} {content : γ}

theorem item?_of_read? (h : f.read? p = some content) : f.item? p = some (.file content) := by
  unfold read? at h
  split at h
  · rename_i found hitem
    rw [hitem, Option.some.inj h]
  · cases h

theorem at?_put (f : Files γ) (here there : Location) (item : Item γ) :
    (f.put here item).at? there =
      if there = [] then some .directory else if here = there then some item else f.at? there := by
  unfold at? put
  by_cases ht : there = []
  · simp [ht]
  · simp [ht, Std.HashMap.getElem?_insert]

theorem location_of_locate? (h : f.locate? p = some here) : here = p.location := by
  unfold locate? at h
  split at h
  · exact (Option.some.inj h).symm
  · cases h

/-- What a write changes: the item at a location where there is no directory. -/
theorem write?_eq_some (h : f.write? p content = some f') : f.locate? p = some p.location ∧
    f.hasDirectory p.location = false ∧ f' = f.put p.location (.file content) := by
  unfold write? at h
  cases hl : f.locate? p with
  | none => simp [hl] at h
  | some here =>
    obtain rfl := location_of_locate? hl
    simp only [hl] at h
    split at h
    · cases h
    · rename_i hd
      exact ⟨rfl, by simpa using hd, (Option.some.inj h).symm⟩

theorem hasDirectory_put (hd : f.hasDirectory here = false) (there : Location) :
    (f.put here (.file content)).hasDirectory there = f.hasDirectory there := by
  have hne : here ≠ [] := by
    rintro rfl
    simp [hasDirectory, at?] at hd
  unfold hasDirectory
  rw [at?_put]
  by_cases ht : there = []
  · simp [ht, at?]
  · by_cases hh : here = there
    · subst hh
      rw [if_neg ht, if_pos rfl]
      exact hd.symm
    · rw [if_neg ht, if_neg hh]

theorem passes_congr (h : ∀ l, f'.hasDirectory l = f.hasDirectory l) (here : Location)
    (parts : List String) : f'.passes here parts = f.passes here parts := by
  induction parts generalizing here with
  | nil => rfl
  | cons part rest ih => rw [passes, passes, h, ih]

theorem locate?_put (hd : f.hasDirectory here = false) (p : Path) :
    (f.put here (.file content)).locate? p = f.locate? p := by
  unfold locate?
  rw [passes_congr (hasDirectory_put hd)]

theorem read?_write (h : f.write? p content = some f') : f'.read? p = some content := by
  obtain ⟨hl, hd, rfl⟩ := write?_eq_some h
  have hne : p.location ≠ [] := by
    intro h0
    simp [h0, hasDirectory, at?] at hd
  simp only [read?, item?, locate?_put hd, hl, Option.bind_some, at?_put, if_neg hne, if_true]

/-- Where no file can be written there is none. -/
theorem read?_of_write?_eq_none (h : f.write? p content = none) : f.read? p = none := by
  unfold write? at h
  unfold read? item?
  cases hl : f.locate? p with
  | none => rfl
  | some here =>
    simp only [hl] at h
    split at h
    · rename_i hd
      unfold hasDirectory at hd
      split at hd
      · rename_i hat
        simp [hat]
      · cases hd
    · cases h

/-- A file that is put somewhere changes what is read there only. -/
theorem read?_put_of_ne (hd : f.hasDirectory here = false) (hne : here ≠ q.location) :
    (f.put here (.file content)).read? q = f.read? q := by
  simp only [read?, item?, locate?_put hd]
  cases hq : f.locate? q with
  | none => rfl
  | some there =>
    obtain rfl := location_of_locate? hq
    simp only [Option.bind_some, at?_put, if_neg hne]
    by_cases h0 : q.location = []
    · simp [h0, at?]
    · rw [if_neg h0]

theorem read?_write_of_ne (h : f.write? p content = some f') (hne : p.location ≠ q.location) :
    f'.read? q = f.read? q := by
  obtain ⟨-, hd, rfl⟩ := write?_eq_some h
  exact read?_put_of_ne hd hne

end Files
end RoadRouting.Store
