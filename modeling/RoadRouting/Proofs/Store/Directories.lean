import Mathlib.Data.List.DropRight
import RoadRouting.Proofs.Lists
import RoadRouting.Proofs.Store.Writing

/-!
# Making directories

A path that ends in a plain name leads to an entry of the directory it starts with
(`locate?_child`). Making a directory under a directory that is there adds that entry or finds it
(`makeDirectories_child`), and takes nothing away.
-/

namespace RoadRouting.Store
set_option autoImplicit false

namespace Path

theorem isUsable_child {p : Path} (hp : p.isUsable) {name : String} (h : Names name) :
    (p.child name).isUsable := by
  have hbase : ∀ part ∈ p.base, part.toList.contains '\x00' = false := by
    intro part hpart
    have hmem : part ∈ p.parts := by
      rcases p.parts_cases with hp | hp
      · rwa [hp]
      · rw [hp]
        exact List.mem_append_left _ hpart
    simpa [isUsable] using List.all_eq_true.1 hp part hmem
  unfold isUsable
  rw [parts_child, List.all_append, Bool.and_eq_true]
  refine ⟨List.all_eq_true.2 fun part hpart => by rw [hbase part hpart]; rfl, ?_⟩
  simp only [List.all_cons, List.all_nil, h.clean]
  rfl

/-- The last part of such a path is the name. -/
theorem ending?_child (p : Path) {name : String} (h : Names name) :
    (p.child name).ending? = some name := by
  rw [ending?, parts_child, List.reverse_append, List.reverse_singleton, List.singleton_append,
    List.dropWhile_cons_of_neg (by simpa using h.ne_empty)]
  rfl

end Path

namespace Files
variable {γ : Type} {f f' : Files γ} {p : Path} {here : Location} {name : String}

/-! ## Directories that are there -/

theorem isDirectory_iff : f.isDirectory p ↔
    p.isUsable ∧ f.passes [] p.parts ∧ f.hasDirectory p.location := by
  unfold isDirectory item? locate?
  by_cases h : (p.isUsable && f.passes [] p.parts) = true
  · rw [if_pos h, Option.bind_some]
    rw [Bool.and_eq_true] at h
    simp only [h, true_and]
    rfl
  · rw [if_neg h]
    rw [Bool.and_eq_true] at h
    simp only [Option.bind_none, Bool.false_eq_true, false_iff]
    exact fun hd => h ⟨hd.1, hd.2.1⟩

theorem hasDirectory_nil : f.hasDirectory [] := by simp [hasDirectory, at?]

/-- The root is always there. -/
theorem isDirectory_root (f : Files γ) : f.isDirectory ⟨[]⟩ :=
  isDirectory_iff.2 ⟨rfl, rfl, hasDirectory_nil⟩

theorem passes_append (here : Location) (xs ys : List String) : f.passes here (xs ++ ys) =
    (f.passes here xs && f.passes (xs.foldl Path.move here) ys) := by
  induction xs generalizing here with
  | nil => simp [passes]
  | cons x rest ih => simp only [List.cons_append, passes, ih, List.foldl_cons, Bool.and_assoc]

theorem passes_mono (hkeeps : ∀ l, f.hasDirectory l → f'.hasDirectory l) {here : Location}
    {parts : List String} (h : f.passes here parts) : f'.passes here parts := by
  induction parts generalizing here with
  | nil => rfl
  | cons x rest ih =>
    simp only [passes, Bool.and_eq_true] at h ⊢
    exact ⟨⟨hkeeps here h.1.1, h.1.2⟩, ih h.2⟩

theorem isDirectory_mono (hkeeps : ∀ l, f.hasDirectory l → f'.hasDirectory l) (h : f.isDirectory p) :
    f'.isDirectory p := by
  obtain ⟨husable, hpasses, hdirectory⟩ := isDirectory_iff.1 h
  exact isDirectory_iff.2 ⟨husable, passes_mono hkeeps hpasses, hkeeps _ hdirectory⟩

theorem hasDirectory_put_directory (f : Files γ) (here l : Location) :
    (f.put here .directory).hasDirectory l = (decide (here = l) || f.hasDirectory l) := by
  unfold hasDirectory
  rw [at?_put]
  by_cases h0 : l = []
  · simp [h0, at?]
  · by_cases h1 : here = l
    · simp [h0, h1]
    · simp [h0, h1]

/-- One can pass along what stands before the name of an entry of a directory. -/
theorem passes_base (h : f.isDirectory p) : f.passes [] p.base := by
  have hpasses := (isDirectory_iff.1 h).2.1
  rcases p.parts_cases with hp | hp
  · rwa [hp] at hpasses
  · rw [hp, passes_append, Bool.and_eq_true] at hpasses
    exact hpasses.1

/-- The path of an entry of a directory leads there, whatever is there. -/
theorem locate?_child (h : f.isDirectory p) (hn : Path.Names name) :
    f.locate? (p.child name) = some (p.location ++ [name]) := by
  obtain ⟨husable, -, hdirectory⟩ := isDirectory_iff.1 h
  have hpasses : f.passes [] (p.child name).parts := by
    rw [Path.parts_child, passes_append, Path.location_base, Bool.and_eq_true]
    refine ⟨passes_base h, ?_⟩
    simp only [passes, hdirectory, hn.short, Bool.and_self]
  rw [locate?, if_pos (by simp [Path.isUsable_child husable hn, hpasses]), Path.location_child p hn]

/-- A path that leads to an entry of a directory passes the directory. -/
theorem isDirectory_of_locate?_child {l : Location} (h : f.locate? (p.child name) = some l) :
    f.isDirectory p := by
  unfold locate? at h
  split at h
  · rename_i hboth
    rw [Bool.and_eq_true, Path.isUsable, Path.parts_child, List.all_append, passes_append,
      Path.location_base, Bool.and_eq_true, Bool.and_eq_true] at hboth
    obtain ⟨⟨husable, -⟩, hpasses, hlast⟩ := hboth
    simp only [passes, Bool.and_eq_true] at hlast
    rw [isDirectory_iff, Path.isUsable]
    rcases p.parts_cases with hp | hp
    · rw [hp]
      exact ⟨husable, hpasses, hlast.1.1⟩
    · -- The slash at the end leads nowhere else.
      rw [hp, List.all_append, husable, passes_append, hpasses, Path.location_base]
      simp [passes, hlast.1.1, Path.isName]
  · cases h

theorem item?_child (h : f.isDirectory p) (hn : Path.Names name) :
    f.item? (p.child name) = f.at? (p.location ++ [name]) := by
  rw [item?, locate?_child h hn, Option.bind_some]

theorem isDirectory_child (h : f.isDirectory p) (hn : Path.Names name) :
    f.isDirectory (p.child name) = f.hasDirectory (p.location ++ [name]) := by
  rw [isDirectory, item?_child h hn]
  rfl

/-! ## Making them -/

theorem make_append (here : Location) (xs ys : List String) : f.make here (xs ++ ys) =
    if (f.make here xs).1 then (f.make here xs).2.make (xs.foldl Path.move here) ys
    else (false, (f.make here xs).2) := by
  induction xs generalizing f here with
  | nil => simp [make]
  | cons x rest ih =>
    simp only [List.cons_append, List.foldl_cons]
    cases hat : f.at? (Path.move here x) with
    | none =>
      by_cases hx : Path.isName x
      · simp only [make, hat, hx, if_true, ih]
      · simp [make, hat, hx]
    | some item =>
      cases item with
      | directory => simp only [make, hat, ih]
      | file c => simp [make, hat]

/-- Nothing is made where all is there. -/
theorem make_of_passes {parts : List String} (h : f.passes here parts)
    (hd : f.hasDirectory (parts.foldl Path.move here)) : f.make here parts = (true, f) := by
  induction parts generalizing here with
  | nil => rfl
  | cons x rest ih =>
    simp only [passes, Bool.and_eq_true] at h
    have hthere : f.at? (Path.move here x) = some .directory := by
      have hdirectory : f.hasDirectory (Path.move here x) := by
        cases rest with
        | nil => exact hd
        | cons y rest =>
          simp only [passes, Bool.and_eq_true] at h
          exact h.2.1.1
      unfold hasDirectory at hdirectory
      split at hdirectory
      · assumption
      · cases hdirectory
    simp only [make, hthere]
    exact ih h.2 hd

/-- Making directories takes no directory away and touches no file. -/
theorem make_keeps (f : Files γ) (here : Location) (parts : List String) :
    (∀ l, f.hasDirectory l → (f.make here parts).2.hasDirectory l) ∧
      ∀ l c, (f.make here parts).2.at? l = some (.file c) ↔ f.at? l = some (.file c) := by
  induction parts generalizing f here with
  | nil => exact ⟨fun _ h => h, fun _ _ => .rfl⟩
  | cons x rest ih =>
    have hsame : (∀ l, f.hasDirectory l → f.hasDirectory l) ∧
        ∀ l c, f.at? l = some (.file c) ↔ f.at? l = some (.file c) :=
      ⟨fun _ h => h, fun _ _ => Iff.rfl⟩
    cases hat : f.at? (Path.move here x) with
    | none =>
      by_cases hx : Path.isName x
      · simp only [make, hat, hx, if_true]
        obtain ⟨hdirectories, hfiles⟩ := ih (f.put (Path.move here x) .directory) (Path.move here x)
        refine ⟨fun l hl => hdirectories l ?_, fun l c => (hfiles l c).trans ?_⟩
        · rw [hasDirectory_put_directory, hl, Bool.or_true]
        · rw [at?_put]
          split_ifs with h0 h1
          · simp [h0, at?]
          · simp [← h1, hat]
          · exact Iff.rfl
      · have hstop : f.make here (x :: rest) = (false, f) := by simp [make, hat, hx]
        rw [hstop]
        exact hsame
    | some item =>
      cases item with
      | directory =>
        simp only [make, hat]
        exact ih f (Path.move here x)
      | file c =>
        have hstop : f.make here (x :: rest) = (false, f) := by simp [make, hat]
        rw [hstop]
        exact hsame

/-- One can pass along the directories that were made. -/
theorem passes_make {parts : List String} (h : f.hasDirectory here)
    (hshort : ∀ x ∈ parts, Path.isName x) (hm : f.make here parts = (true, f')) :
    f'.passes here parts ∧ f'.hasDirectory (parts.foldl Path.move here) := by
  induction parts generalizing f here with
  | nil =>
    cases hm
    exact ⟨rfl, h⟩
  | cons x rest ih =>
    have hkeeps : ∀ l, f.hasDirectory l → f'.hasDirectory l := by
      have hall := (make_keeps f here (x :: rest)).1
      rwa [hm] at hall
    have hx := hshort x List.mem_cons_self
    have hstep : ∃ g : Files γ, g.hasDirectory (Path.move here x) ∧
        g.make (Path.move here x) rest = (true, f') := by
      cases hat : f.at? (Path.move here x) with
      | none =>
        simp only [make, hat, hx, if_true] at hm
        exact ⟨_, by simp [hasDirectory, at?_put], hm⟩
      | some item =>
        cases item with
        | directory =>
          simp only [make, hat] at hm
          exact ⟨f, by simp [hasDirectory, hat], hm⟩
        | file c =>
          simp only [make, hat, Prod.mk.injEq, Bool.false_eq_true, false_and] at hm
    obtain ⟨g, hg, hm'⟩ := hstep
    obtain ⟨hrest, hlast⟩ := ih hg (fun y hy => hshort y (List.mem_cons_of_mem _ hy)) hm'
    refine ⟨?_, hlast⟩
    simp only [passes, hkeeps here h, hx, hrest, Bool.and_self]

theorem hasDirectory_of_passes {xs ys : List String} (h : f.passes [] (xs ++ ys))
    (hd : f.hasDirectory ((xs ++ ys).foldl Path.move [])) : f.hasDirectory (xs.foldl Path.move []) := by
  cases ys with
  | nil => simpa using hd
  | cons y rest =>
    rw [passes_append, Bool.and_eq_true] at h
    simp only [passes, Bool.and_eq_true] at h
    exact h.2.1.1

/-- The path of a directory passes the one above it. -/
theorem passes_parent (h : f.isDirectory p) :
    f.passes [] p.parent.parts ∧ f.hasDirectory (p.parent.parts.foldl Path.move []) := by
  obtain ⟨-, hpasses, hdirectory⟩ := isDirectory_iff.1 h
  obtain ⟨rest, hrest⟩ : p.parent.parts <+: p.parts :=
    (List.rdropWhile_prefix _ _).trans ((List.dropLast_prefix _).trans (List.rdropWhile_prefix _ _))
  have hlocation : p.location = (p.parent.parts ++ rest).foldl Path.move [] := by
    rw [hrest]
    rfl
  rw [← hrest] at hpasses
  rw [hlocation] at hdirectory
  refine ⟨?_, hasDirectory_of_passes hpasses hdirectory⟩
  rw [passes_append, Bool.and_eq_true] at hpasses
  exact hpasses.1

/-- A directory that is there is not made again. -/
theorem makeDirectories_of_isDirectory (h : f.isDirectory p) : f.makeDirectories p = (true, f) := by
  obtain ⟨husable, hpasses, hdirectory⟩ := isDirectory_iff.1 h
  unfold makeDirectories
  rw [husable]
  by_cases hdot : p.ending? = some "."
  · obtain ⟨hparent, habove⟩ := passes_parent h
    simp [hdot, make_of_passes hparent habove, h]
  · simp [hdot, make_of_passes hpasses hdirectory]

/-- One cannot pass to the end of directories that could not be made. -/
theorem make_false {parts : List String} (hm : f.make here parts = (false, f'))
    (h : f'.passes here parts) : f'.hasDirectory (parts.foldl Path.move here) = false := by
  induction parts generalizing f here with
  | nil => cases hm
  | cons x rest ih =>
    simp only [passes, Bool.and_eq_true] at h
    simp only [make] at hm
    cases hat : f.at? (Path.move here x) with
    | none =>
      simp only [hat, h.1.2, if_true] at hm
      exact ih hm h.2
    | some item =>
      cases item with
      | directory =>
        simp only [hat] at hm
        exact ih hm h.2
      | file c =>
        simp only [hat, Prod.mk.injEq, true_and] at hm
        subst hm
        have hfile : f.hasDirectory (Path.move here x) = false := by simp [hasDirectory, hat]
        cases rest with
        | nil => exact hfile
        | cons y rest => simp [passes, hfile] at h

/-- A directory that could not be made is not there. -/
theorem makeDirectories_false (hm : f.makeDirectories p = (false, f')) : f'.isDirectory p = false := by
  by_contra hthere
  rw [Bool.not_eq_false] at hthere
  obtain ⟨husable, hpasses, hdirectory⟩ := isDirectory_iff.1 hthere
  unfold makeDirectories at hm
  rw [husable] at hm
  by_cases hdot : p.ending? = some "."
  · obtain ⟨hparent, habove⟩ := passes_parent hthere
    rcases hmake : f.make [] p.parent.parts with ⟨ok, g⟩
    simp only [hdot, hmake, Bool.not_true, Bool.false_eq_true, if_false, if_true, Prod.mk.injEq] at hm
    obtain ⟨hok, rfl⟩ := hm
    rw [hthere, Bool.and_true] at hok
    rw [hok] at hmake
    rw [make_false hmake hparent] at habove
    cases habove
  · simp only [hdot, Bool.not_true, Bool.false_eq_true, if_false] at hm
    have hnone := make_false hm hpasses
    rw [Path.location] at hdirectory
    rw [hnone] at hdirectory
    cases hdirectory

theorem read?_child_of_not_isDirectory (h : f.isDirectory p = false) (name : String) :
    f.read? (p.child name) = none := by
  cases hl : f.locate? (p.child name) with
  | none => simp [read?, item?, hl]
  | some l =>
    rw [isDirectory_of_locate?_child hl] at h
    cases h

/-- To make an entry of a directory is to make the directory and then the entry. -/
theorem makeDirectories_child_eq (hu : p.isUsable) (hn : Path.Names name)
    (hm : f.make [] p.base = (true, f')) :
    f.makeDirectories (p.child name) = f'.make p.location [name] := by
  have hending : (p.child name).ending? ≠ some "." := by
    rw [Path.ending?_child p hn]
    rintro ⟨⟩
    exact absurd hn.idle (by decide)
  unfold makeDirectories
  rw [Path.isUsable_child hu hn, if_neg hending, Path.parts_child, make_append, hm, Path.location_base]
  rfl

theorem make_base (h : f.isDirectory p) : f.make [] p.base = (true, f) := by
  refine make_of_passes (passes_base h) ?_
  rw [Path.location_base]
  exact (isDirectory_iff.1 h).2.2

/-- The directory of a path that can be made is there then, and making an entry of it comes to the
same before and after. -/
theorem makeDirectories_child_of_make (hu : p.isUsable) (hshort : ∀ x ∈ p.parts, Path.isName x)
    (hm : f.make [] p.parts = (true, f')) (hn : Path.Names name) :
    f'.isDirectory p ∧ f.makeDirectories (p.child name) = f'.makeDirectories (p.child name) := by
  obtain ⟨hpasses, hdirectory⟩ := passes_make hasDirectory_nil hshort hm
  have hp : f'.isDirectory p := isDirectory_iff.2 ⟨hu, hpasses, hdirectory⟩
  have hbase : f.make [] p.base = (true, f') := by
    rcases p.parts_cases with heq | heq
    · rwa [heq] at hm
    · -- The slash at the end makes nothing.
      rw [heq, make_append] at hm
      rcases hb : f.make [] p.base with ⟨_ | _, g⟩
      · simp [hb] at hm
      · simp only [hb, if_true] at hm
        have hg := (passes_make hasDirectory_nil (fun x hx => hshort x (by simp [heq, hx])) hb).2
        have hslash : g.make (p.base.foldl Path.move []) [""] = (true, g) :=
          make_of_passes (by simp [passes, hg, Path.isName]) hg
        rw [hslash] at hm
        rw [(Prod.mk.inj hm).2]
  exact ⟨hp, by rw [makeDirectories_child_eq hu hn hbase, makeDirectories_child_eq hu hn (make_base hp)]⟩

/-- An entry of a directory is made if it is not there. -/
theorem makeDirectories_child (h : f.isDirectory p) (hn : Path.Names name)
    (hfile : ∀ c, f.at? (p.location ++ [name]) ≠ some (.file c)) :
    ∃ f', f.makeDirectories (p.child name) = (true, f') ∧ f'.isDirectory (p.child name) ∧
      (f' = f ∨ f' = f.put (p.location ++ [name]) .directory) := by
  rw [makeDirectories_child_eq (isDirectory_iff.1 h).1 hn (make_base h)]
  simp only [make, hn.move]
  cases hat : f.at? (p.location ++ [name]) with
  | none =>
    have hkeeps : ∀ l, f.hasDirectory l →
        (f.put (p.location ++ [name]) .directory).hasDirectory l := by
      intro l hl
      rw [hasDirectory_put_directory, hl, Bool.or_true]
    refine ⟨f.put (p.location ++ [name]) .directory, by simp [hn.short], ?_, .inr rfl⟩
    rw [isDirectory_child (isDirectory_mono hkeeps h) hn, hasDirectory_put_directory]
    simp
  | some item =>
    cases item with
    | directory =>
      refine ⟨f, rfl, ?_, .inl rfl⟩
      rw [isDirectory_child h hn, hasDirectory, hat]
    | file c => exact absurd hat (hfile c)

/-- A file can be written where there is no directory. -/
theorem write?_child (h : f.isDirectory p) (hn : Path.Names name)
    (hd : f.hasDirectory (p.location ++ [name]) = false) (content : γ) :
    f.write? (p.child name) content = some (f.put (p.location ++ [name]) (.file content)) := by
  unfold write?
  simp only [locate?_child h hn, hd, Bool.false_eq_true, if_false]

/-! ## Names of entries -/

/-- A directory lists what is found in it. -/
theorem mem_names_iff : name ∈ f.names p ↔ f.isDirectory p ∧ (f.at? (p.location ++ [name])).isSome := by
  have hentry (here : Location) :
      (if here.dropLast = p.location then here.getLast? else none) = some name ↔
        here = p.location ++ [name] := by
    constructor
    · intro h
      split at h
      · rename_i hp
        obtain ⟨front, rfl⟩ := List.getLast?_eq_some_iff.1 h
        rw [← hp, List.dropLast_concat]
      · cases h
    · rintro rfl
      simp
  unfold names
  by_cases hd : f.isDirectory p
  · simp only [hd, if_true, true_and]
    rw [List.mem_mergeSort, List.mem_filterMap]
    simp only [hentry, Std.HashMap.mem_keys, exists_eq_right]
    rw [at?, if_neg (by simp), Std.HashMap.isSome_getElem?_iff_mem]
  · simp [hd]

theorem isFile_iff : f.isFile p ↔ ∃ content, f.item? p = some (.file content) := by
  unfold isFile read?
  split
  · rename_i hitem
    simp [hitem]
  · rename_i hnone
    simpa using hnone

theorem names_of_isFile (hn : Path.Names name) (h : f.isFile (p.child name)) : name ∈ f.names p := by
  have hd : f.isDirectory p := by
    cases hl : f.locate? (p.child name) with
    | none => simp [isFile, read?, item?, hl] at h
    | some here => exact isDirectory_of_locate?_child hl
  refine mem_names_iff.2 ⟨hd, ?_⟩
  obtain ⟨content, hitem⟩ := isFile_iff.1 h
  rw [← item?_child hd hn, hitem]
  rfl

/-- A file that is put into another directory does not change the names in this one. -/
theorem names_put (hd : f.hasDirectory here = false) (hne : here.dropLast ≠ p.location) (content : γ) :
    (f.put here (.file content)).names p = f.names p := by
  have hdirectory : (f.put here (.file content)).isDirectory p = f.isDirectory p := by
    rw [Bool.eq_iff_iff, isDirectory_iff, isDirectory_iff, passes_congr (hasDirectory_put hd),
      hasDirectory_put hd]
  have hothers : ((f.put here (.file content)).items.keys.filter (· ≠ here)).Perm
      (f.items.keys.filter (· ≠ here)) := by
    refine (List.perm_ext_iff_of_nodup (Std.HashMap.nodup_keys.filter _)
      (Std.HashMap.nodup_keys.filter _)).2 fun l => ?_
    rw [List.mem_filter, List.mem_filter, Std.HashMap.mem_keys, Std.HashMap.mem_keys, put,
      Std.HashMap.mem_insert, beq_iff_eq, decide_eq_true_eq]
    constructor
    · rintro ⟨h | h, hl⟩
      · exact absurd h.symm hl
      · exact ⟨h, hl⟩
    · rintro ⟨h, hl⟩
      exact ⟨.inr h, hl⟩
  -- The file's own key gives no name.
  have hskip (keys : List Location) :
      keys.filterMap (fun l => if l.dropLast = p.location then l.getLast? else none) =
        (keys.filter (· ≠ here)).filterMap fun l =>
          if l.dropLast = p.location then l.getLast? else none := by
    rw [List.filterMap_filter]
    refine List.filterMap_congr fun l _ => ?_
    by_cases hl : l = here
    · simp [hl, hne]
    · simp [hl]
  unfold names
  rw [hdirectory]
  split
  · simp only
    rw [hskip, hskip f.items.keys]
    exact sort_eq_of_perm (hothers.filterMap _)
  · rfl

end Files
end RoadRouting.Store
