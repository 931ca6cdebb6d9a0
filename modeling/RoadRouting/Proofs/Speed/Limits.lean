import RoadRouting.Proofs.Decimal.Alphabet
import RoadRouting.Proofs.Lists
import RoadRouting.Speed.Limit

/-!
# Which limits are understood

A limit is understood if it splits into a number and one of the units, or none (`Split`). There is at most one way
to split it: units have letters that no number has, and none of them ends in another one. For the same reason a
limit with two units is not understood, nor is one with two numbers that are not parts of one number, or with no
number at all (`Understood`).
-/

namespace RoadRouting.Speed
set_option autoImplicit false
open Decimal (IsNumber isNumeral)

/-! ## Units -/

/-- What may follow the number of a limit, with its value in kilometres per hour. -/
def endings : List (List Char × Float) := units ++ [([], 1.0)]

variable {text number rest : List Char} {u v ending : List Char × Float} {value x : Float} {raw other : String}

theorem mem_endings : ending ∈ endings ↔ ending ∈ units ∨ ending = ([], 1.0) := by
  rw [endings, List.mem_append, List.mem_singleton]

/-- No character of a unit is a blank, or in a number. -/
theorem foreign_of_mem_unit (hu : u ∈ units) {c : Char} (hc : c ∈ u.1) :
    isNumeral c = false ∧ Text.isBlank c = false := by
  have hall : units.all fun u => u.1.all fun c => !isNumeral c && !Text.isBlank c := by decide +kernel
  have hunit := List.all_eq_true.1 (List.all_eq_true.1 hall u hu) c hc
  simpa using hunit

/-- Each unit is per hour. -/
theorem count_unit (hu : u ∈ units) : u.1.count 'h' = 1 := by
  have hall : units.all fun u => u.1.count 'h' == 1 := by decide +kernel
  simpa using List.all_eq_true.1 hall u hu

theorem mem_unit (hu : u ∈ units) : 'h' ∈ u.1 := by
  rw [← List.count_pos_iff, count_unit hu]
  exact Nat.one_pos

theorem unit_ne_nil (hu : u ∈ units) : u.1 ≠ [] := List.ne_nil_of_mem (mem_unit hu)

/-- No unit ends in another one. -/
theorem unit_eq_of_suffix (hu : u ∈ units) (hv : v ∈ units) (h : u.1 <:+ v.1) : u = v := by
  simp only [units, List.mem_cons, List.not_mem_nil, or_false] at hu hv
  rcases hu with rfl | rfl | rfl | rfl <;> rcases hv with rfl | rfl | rfl | rfl <;>
    first | rfl | exact absurd h (by decide)

theorem unit_unique (hu : u ∈ units) (hv : v ∈ units) (hsuffix : u.1 <:+ text) (hsuffix' : v.1 <:+ text) :
    u = v := by
  rcases List.suffix_or_suffix_of_suffix hsuffix hsuffix' with h | h
  · exact unit_eq_of_suffix hu hv h
  · exact (unit_eq_of_suffix hv hu h).symm

theorem stripEnding?_eq_some {e : List Char} : stripEnding? e text = some rest ↔ text = rest ++ e := by
  unfold stripEnding?
  constructor
  · intro h
    split at h
    · rename_i hsuffix
      obtain ⟨before, rfl⟩ := List.isSuffixOf_iff_suffix.1 hsuffix
      simp at h
      rw [h]
    · cases h
  · rintro rfl
    simp

theorem splitUnit_eq (text : List Char) : splitUnit text =
    (units.findSome? fun v => (stripEnding? v.1 text).map (·, v.2)).getD (text, 1.0) := rfl

/-- The unit at the end of a text is found. -/
theorem splitUnit_append (hu : u ∈ units) : splitUnit (number ++ u.1) = (number, u.2) := by
  have hfound : (stripEnding? u.1 (number ++ u.1)).map (·, u.2) = some (number, u.2) := by
    rw [stripEnding?_eq_some.2 rfl]
    rfl
  rw [splitUnit_eq]
  cases hsome : units.findSome? fun v => (stripEnding? v.1 (number ++ u.1)).map (·, v.2) with
  | none =>
    rw [List.findSome?_eq_none_iff.1 hsome u hu] at hfound
    cases hfound
  | some result =>
    obtain ⟨v, hv, hresult⟩ := List.exists_of_findSome?_eq_some hsome
    obtain ⟨before, hstrip, -⟩ := Option.map_eq_some_iff.1 hresult
    have huv : u = v := unit_unique hu hv ⟨number, rfl⟩ ⟨before, (stripEnding?_eq_some.1 hstrip).symm⟩
    rw [← huv, hfound, Option.some.injEq] at hresult
    exact hresult.symm

/-- A text that ends in no unit is taken whole. -/
theorem splitUnit_of_none (h : ∀ u ∈ units, ¬ u.1 <:+ text) : splitUnit text = (text, 1.0) := by
  have hnone : (units.findSome? fun v => (stripEnding? v.1 text).map (·, v.2)) = none := by
    rw [List.findSome?_eq_none_iff]
    intro u hu
    cases hstrip : stripEnding? u.1 text with
    | none => rfl
    | some before => exact absurd ⟨before, (stripEnding?_eq_some.1 hstrip).symm⟩ (h u hu)
  rw [splitUnit_eq, hnone, Option.getD_none]

/-- A text is a number part and an ending. -/
theorem exists_splitUnit (text : List Char) :
    ∃ ending ∈ endings, ∃ number, text = number ++ ending.1 ∧ splitUnit text = (number, ending.2) := by
  by_cases h : ∃ u ∈ units, u.1 <:+ text
  · obtain ⟨u, hu, number, rfl⟩ := h
    exact ⟨u, mem_endings.2 (.inl hu), number, rfl, splitUnit_append hu⟩
  · push Not at h
    exact ⟨([], 1.0), mem_endings.2 (.inr rfl), text, (List.append_nil text).symm, splitUnit_of_none h⟩

/-- A text with a unit is no number. -/
theorem not_isNumber_of_unit (hu : u ∈ units) (h : ∀ c ∈ u.1, c ∈ text) : ¬ IsNumber text := fun hnumber =>
  hnumber.not_mem (foreign_of_mem_unit hu (mem_unit hu)).1 (h 'h' (mem_unit hu))

/-- What is left of a unit when a text is trimmed is the whole unit. -/
theorem not_isNumber_trim (hu : u ∈ units) (before : List Char) :
    ¬ IsNumber (Text.trim (before ++ u.1)) := by
  apply not_isNumber_of_unit hu
  intro c hc
  exact Text.mem_trim (List.mem_append_right before hc) (foreign_of_mem_unit hu hc).2

/-! ## Splits -/

/-- A way to take a text for a number with an ending. -/
structure Split (text number : List Char) (ending : List Char × Float) (x : Float) : Prop where
  ending_mem : ending ∈ endings
  text_eq : text = number ++ ending.1
  number_eq : Decimal.read? (Text.trim number) = some x

theorem Split.splitUnit_eq (h : Split text number ending x) : splitUnit text = (number, ending.2) := by
  obtain ⟨hending, rfl, hnumber⟩ := h
  rcases mem_endings.1 hending with hu | rfl
  · exact splitUnit_append hu
  · -- a number that is to be taken whole does not end in a unit
    rw [List.append_nil]
    refine splitUnit_of_none fun u hu ⟨before, heq⟩ => ?_
    rw [← heq] at hnumber
    exact not_isNumber_trim hu before (Option.isSome_of_eq_some hnumber)

/-- There is one way at most. -/
theorem Split.unique {number' : List Char} {ending' : List Char × Float} {x' : Float}
    (h : Split text number ending x) (h' : Split text number' ending' x') :
    number = number' ∧ ending = ending' ∧ x = x' := by
  have hboth := h.splitUnit_eq.symm.trans h'.splitUnit_eq
  obtain ⟨rfl, -⟩ := Prod.mk.inj hboth
  have hname : ending.1 = ending'.1 := List.append_cancel_left (h.text_eq.symm.trans h'.text_eq)
  refine ⟨rfl, ?_, Option.some.inj (h.number_eq.symm.trans h'.number_eq)⟩
  rcases mem_endings.1 h.ending_mem with hu | rfl <;> rcases mem_endings.1 h'.ending_mem with hv | rfl
  · exact unit_eq_of_suffix hu hv (hname ▸ List.suffix_refl _)
  · exact absurd hname (unit_ne_nil hu)
  · exact absurd hname.symm (unit_ne_nil hv)
  · rfl

/-! ## Limits -/

/-- A limit in small letters. -/
def smallLetters (raw : String) : List Char := raw.toList.map Char.toLower

/-- The same without the blanks around it. -/
def plainText (raw : String) : List Char := (Text.trim raw.toList).map Char.toLower

theorem plainText_eq : plainText raw = Text.trim (smallLetters raw) := Text.trim_map_toLower.symm

theorem ofLimit?_of_splitUnit (h : splitUnit (plainText raw) = (number, value)) : ofLimit? raw =
    (Decimal.read? (Text.trim number)).bind fun x => if isPlausible (x * value) then some (x * value) else none := by
  unfold ofLimit?
  rw [plainText] at h
  rw [h]
  rfl

theorem ofLimit?_congr (h : plainText raw = plainText other) : ofLimit? raw = ofLimit? other := by
  obtain ⟨ending, -, number, -, hsplit⟩ := exists_splitUnit (plainText raw)
  rw [ofLimit?_of_splitUnit hsplit, ofLimit?_of_splitUnit (h ▸ hsplit)]

theorem isPlausible_iff : isPlausible x ↔ x.isFinite ∧ slowest ≤ x := by
  rw [isPlausible, Bool.and_eq_true, decide_eq_true_eq]

theorem ofLimit?_eq_some_iff {kmh : Float} : ofLimit? raw = some kmh ↔ ∃ number ending x,
    Split (plainText raw) number ending x ∧ kmh = x * ending.2 ∧ kmh.isFinite ∧ slowest ≤ kmh := by
  constructor
  · intro h
    obtain ⟨ending, hending, number, htext, hsplit⟩ := exists_splitUnit (plainText raw)
    rw [ofLimit?_of_splitUnit hsplit, Option.bind_eq_some_iff] at h
    obtain ⟨x, hx, h⟩ := h
    split at h
    · rename_i hplausible
      cases h
      exact ⟨number, ending, x, ⟨hending, htext, hx⟩, rfl, isPlausible_iff.1 hplausible⟩
    · cases h
  · rintro ⟨number, ending, x, hsplit, rfl, hplausible⟩
    rw [ofLimit?_of_splitUnit hsplit.splitUnit_eq, hsplit.number_eq, Option.bind_some,
      if_pos (isPlausible_iff.2 hplausible)]

/-! ## Blanks and letter case -/

section Blanks
variable {before after blanks : List Char}

theorem blanks_toLower (h : ∀ c ∈ blanks, Text.isBlank c) : ∀ c ∈ blanks.map Char.toLower, Text.isBlank c := by
  intro c hc
  obtain ⟨d, hd, rfl⟩ := List.mem_map.1 hc
  rw [Text.isBlank_toLower]
  exact h d hd

/-- Blanks around a limit do not matter. -/
theorem ofLimit?_surrounded (hbefore : ∀ c ∈ before, Text.isBlank c) (hafter : ∀ c ∈ after, Text.isBlank c) :
    ofLimit? (String.ofList (before ++ raw.toList ++ after)) = ofLimit? raw := by
  apply ofLimit?_congr
  rw [plainText, plainText, String.toList_ofList, Text.trim_append_blanks hafter,
    Text.trim_blanks_append hbefore]

theorem ofLimit?_smallLetters (h : smallLetters other = smallLetters raw) : ofLimit? other = ofLimit? raw := by
  apply ofLimit?_congr
  rw [plainText_eq, plainText_eq, h]

/-- A limit that ends in a unit is what stands in front of it, in that unit. -/
theorem splitUnit_trim_append (hu : u ∈ units) (number : List Char) :
    splitUnit (Text.trim (number ++ u.1)) = (number.dropWhile Text.isBlank, u.2) := by
  rw [Text.trim_append_word (unit_ne_nil hu) fun c hc => (foreign_of_mem_unit hu hc).2]
  exact splitUnit_append hu

/-- Blanks in front of the unit do not matter. -/
theorem ofLimit?_spaced {unit : List Char} (hblanks : ∀ c ∈ blanks, Text.isBlank c)
    (hafter : ∀ c ∈ after, Text.isBlank c) (hu : u ∈ units) (hunit : unit.map Char.toLower = u.1) :
    ofLimit? (String.ofList (number ++ blanks ++ unit ++ after)) =
      ofLimit? (String.ofList (number ++ unit ++ after)) := by
  have hplain (cs : List Char) : plainText (String.ofList (cs ++ unit ++ after)) =
      Text.trim (cs.map Char.toLower ++ u.1) := by
    rw [plainText, String.toList_ofList, Text.trim_append_blanks hafter, ← Text.trim_map_toLower,
      List.map_append, hunit]
  have hsplit (cs : List Char) := (congrArg splitUnit (hplain cs)).trans (splitUnit_trim_append hu _)
  rw [ofLimit?_of_splitUnit (hsplit _), ofLimit?_of_splitUnit (hsplit _), Text.trim_dropWhile,
    Text.trim_dropWhile, List.map_append, Text.trim_append_blanks (blanks_toLower hblanks)]

end Blanks

/-! ## What is refused -/

/-- A text has two units. -/
def TwoUnits (text : List Char) : Prop :=
  ∃ u ∈ units, ∃ v ∈ units, ∃ before gap after, text = before ++ u.1 ++ gap ++ v.1 ++ after

/-- A text has two numbers, one behind the other, that are not both part of one number in it. -/
def TwoNumbers (text : List Char) : Prop :=
  ∃ before first gap second after, text = before ++ first ++ gap ++ second ++ after ∧
    IsNumber first ∧ IsNumber second ∧
    ∀ l r, l <:+ before → r <+: after → ¬ IsNumber (l ++ first ++ gap ++ second ++ r)

/-- Two numbers with something foreign between them are not part of one. -/
theorem TwoNumbers.of_foreign {before first gap second after : List Char} {c : Char} (hfirst : IsNumber first)
    (hsecond : IsNumber second) (hc : c ∈ gap) (hforeign : isNumeral c = false) :
    TwoNumbers (before ++ first ++ gap ++ second ++ after) := by
  refine ⟨before, first, gap, second, after, rfl, hfirst, hsecond, fun l r _ _ hnumber => ?_⟩
  exact hnumber.not_mem hforeign (by simp [hc])

/-- A text is a number between two ends that have no character of a number, and one unit at most. -/
structure Framed (text before number after : List Char) : Prop where
  text_eq : text = before ++ number ++ after
  isNumber : IsNumber number
  foreign : ∀ c ∈ before ++ after, isNumeral c = false
  hours : (before ++ after).count 'h' ≤ 1

section Framed
variable {before after blanks : List Char}

theorem count_of_blanks (h : ∀ c ∈ blanks, Text.isBlank c) : blanks.count 'h' = 0 := by
  rw [List.count_eq_zero]
  intro hmem
  exact absurd (h 'h' hmem) (by decide)

/-- A limit that is understood has one number, and blanks and at most one unit around it. -/
theorem exists_framed {kmh : Float} (h : ofLimit? raw = some kmh) :
    ∃ before number after, Framed (smallLetters raw) before number after := by
  obtain ⟨number, ending, x, hsplit, -⟩ := ofLimit?_eq_some_iff.1 h
  -- there are blanks around the whole, and around the number in front of its unit
  obtain ⟨front, back, hfront, hback, hraw⟩ := Text.exists_trim (smallLetters raw)
  obtain ⟨indent, gap, hindent, hgap, hnumber⟩ := Text.exists_trim number
  have hblank {blanks : List Char} (h : ∀ c ∈ blanks, Text.isBlank c) : ∀ c ∈ blanks, isNumeral c = false :=
    fun c hc => Decimal.isNumeral_of_isBlank (h c hc)
  have hending : (∀ c ∈ ending.1, isNumeral c = false) ∧ ending.1.count 'h' ≤ 1 := by
    rcases mem_endings.1 hsplit.ending_mem with hu | rfl
    · exact ⟨fun c hc => (foreign_of_mem_unit hu hc).1, (count_unit hu).le⟩
    · exact ⟨nofun, Nat.zero_le _⟩
  refine ⟨front ++ indent, Text.trim number, gap ++ ending.1 ++ back, ?_, ?_, ?_, ?_⟩
  · rw [hraw, ← plainText_eq, hsplit.text_eq]
    conv_lhs => rw [hnumber]
    simp only [List.append_assoc]
  · exact Option.isSome_of_eq_some hsplit.number_eq
  · simp only [List.forall_mem_append]
    exact ⟨⟨hblank hfront, hblank hindent⟩, ⟨hblank hgap, hending.1⟩, hblank hback⟩
  · simp only [List.count_append, count_of_blanks hfront, count_of_blanks hback, count_of_blanks hindent,
      count_of_blanks hgap]
    have hone := hending.2
    omega

theorem ofLimit?_eq_none (h : ∀ before number after, ¬ Framed (smallLetters raw) before number after) :
    ofLimit? raw = none := by
  rw [Option.eq_none_iff_forall_ne_some]
  intro kmh hkmh
  obtain ⟨before, number, after, hframed⟩ := exists_framed hkmh
  exact h before number after hframed

/-- A number in the text is part of the one that is framed. -/
theorem Framed.exists_around (h : Framed text before number after) {left part right : List Char}
    (htext : text = left ++ part ++ right) (hpart : IsNumber part) :
    ∃ l r, left = before ++ l ∧ right = r ++ after ∧ number = l ++ part ++ r := by
  have houtside {c : Char} (hc : c ∈ part) : c ∉ before ++ after := fun hmem =>
    hpart.not_mem (h.foreign c hmem) hc
  exact exists_between (h.text_eq.symm.trans htext) hpart.ne_nil
    (fun c hc hmem => houtside hc (List.mem_append_left _ hmem))
    fun c hc hmem => houtside hc (List.mem_append_right _ hmem)

theorem Framed.not_twoNumbers (h : Framed text before number after) : ¬ TwoNumbers text := by
  rintro ⟨left, first, gap, second, right, htext, hfirst, hsecond, hnone⟩
  have hgrouped : text = left ++ first ++ (gap ++ second ++ right) := by
    rw [htext]
    simp only [List.append_assoc]
  obtain ⟨l, -, hleft, -, -⟩ := h.exists_around hgrouped hfirst
  obtain ⟨l', r, hbefore, hright, hnumber⟩ := h.exists_around htext hsecond
  have hl' : l' = l ++ first ++ gap := by
    rw [hleft, List.append_assoc, List.append_assoc, List.append_cancel_left_eq] at hbefore
    rw [← hbefore, List.append_assoc]
  refine hnone l r ⟨before, hleft.symm⟩ ⟨after, hright.symm⟩ ?_
  rw [← hl', ← hnumber]
  exact h.isNumber

theorem Framed.not_twoUnits (h : Framed text before number after) : ¬ TwoUnits text := by
  rintro ⟨u, hu, v, hv, left, gap, right, htext⟩
  have hnumber : number.count 'h' = 0 :=
    List.count_eq_zero.2 (h.isNumber.not_mem (foreign_of_mem_unit hu (mem_unit hu)).1)
  have hcount := congrArg (List.count 'h') (h.text_eq.symm.trans htext)
  have hhours := h.hours
  simp only [List.count_append, hnumber, count_unit hu, count_unit hv] at hcount hhours
  omega

end Framed

/-- Which limits are understood, and what they mean. -/
structure Understood (raw : String) : Prop where
  /-- A limit is its number times the value of its unit, if that is plausible. -/
  means : ∀ kmh, ofLimit? raw = some kmh ↔ ∃ number ending x,
    Split (plainText raw) number ending x ∧ kmh = x * ending.2 ∧ kmh.isFinite ∧ slowest ≤ kmh
  unique : ∀ number number' ending ending' x x', Split (plainText raw) number ending x →
    Split (plainText raw) number' ending' x' → number = number' ∧ ending = ending' ∧ x = x'
  surrounded : ∀ before after : List Char, (∀ c ∈ before, Text.isBlank c) → (∀ c ∈ after, Text.isBlank c) →
    ofLimit? (String.ofList (before ++ raw.toList ++ after)) = ofLimit? raw
  anyCase : ∀ other, smallLetters other = smallLetters raw → ofLimit? other = ofLimit? raw
  spaced : ∀ number blanks unit after : List Char, raw.toList = number ++ unit ++ after →
    (∃ u ∈ units, unit.map Char.toLower = u.1) → (∀ c ∈ blanks, Text.isBlank c) →
    (∀ c ∈ after, Text.isBlank c) →
    ofLimit? (String.ofList (number ++ blanks ++ unit ++ after)) = ofLimit? raw
  twoUnits : TwoUnits (smallLetters raw) → ofLimit? raw = none
  twoNumbers : TwoNumbers (smallLetters raw) → ofLimit? raw = none
  noNumber : (∀ part, part <:+: smallLetters raw → ¬ IsNumber part) → ofLimit? raw = none

/-- A limit is understood exactly if it is a number with one unit or none, and means a plausible speed. Neither the
empty text nor one that ends in a unit is a number. -/
theorem limits_understood : (¬ IsNumber [] ∧ ∀ u ∈ units, ∀ text, ¬ IsNumber (text ++ u.1)) ∧
    ∀ raw, Understood raw := by
  refine ⟨⟨nofun, fun u hu text => ?_⟩, fun raw => ?_⟩
  · apply not_isNumber_of_unit hu
    intro c hc
    exact List.mem_append_right text hc
  · refine ⟨fun kmh => ofLimit?_eq_some_iff, fun _ _ _ _ _ _ => Split.unique, fun _ _ => ofLimit?_surrounded,
      fun _ => ofLimit?_smallLetters, ?_, fun h => ?_, fun h => ?_, fun h => ?_⟩
    · rintro number blanks unit after hraw ⟨u, hu, hunit⟩ hblanks hafter
      rw [ofLimit?_spaced hblanks hafter hu hunit, ← hraw, String.ofList_toList]
    · exact ofLimit?_eq_none fun _ _ _ hframed => hframed.not_twoUnits h
    · exact ofLimit?_eq_none fun _ _ _ hframed => hframed.not_twoNumbers h
    · apply ofLimit?_eq_none
      intro before number after hframed
      exact h number ⟨before, after, hframed.text_eq.symm⟩ hframed.isNumber

/-- A limit in two spellings, and three that are refused. -/
theorem limits_understood_forty :
    (∃ kmh, ofLimit? "40mph" = some kmh ∧ ofLimit? "\t40 MPH " = some kmh) ∧
    ofLimit? "40 km/h mph" = none ∧ ofLimit? "50;70" = none ∧ ofLimit? "km/h" = none := by
  obtain ⟨-, hall⟩ := limits_understood
  refine ⟨?_, ?_, ?_, ?_⟩
  · obtain ⟨kmh, hkmh⟩ := Option.isSome_iff_exists.1 (by decide +kernel : (ofLimit? "40mph").isSome)
    have hspaced := (hall "40mph").spaced ['4', '0'] [' '] ['m', 'p', 'h'] [] rfl
      ⟨(['m', 'p', 'h'], kmPerMile), List.mem_cons_self, rfl⟩ (List.forall_mem_singleton.2 rfl) nofun
    have hsurrounded := (hall (String.ofList (['4', '0'] ++ [' '] ++ ['m', 'p', 'h'] ++ []))).surrounded
      ['\t'] [' '] (List.forall_mem_singleton.2 rfl) (List.forall_mem_singleton.2 rfl)
    refine ⟨kmh, hkmh, ?_⟩
    rw [← hkmh, ← hspaced, ← hsurrounded]
    exact (hall _).anyCase _ (by decide +kernel)
  · exact (hall _).twoUnits ⟨_, List.mem_cons_of_mem _ List.mem_cons_self, _, List.mem_cons_self,
      ['4', '0', ' '], [' '], [], by decide +kernel⟩
  · have hforeign : TwoNumbers ([] ++ ['5', '0'] ++ [';'] ++ ['7', '0'] ++ []) :=
      .of_foreign rfl rfl List.mem_cons_self (by decide)
    exact (hall _).twoNumbers hforeign
  · refine (hall _).noNumber fun part hpart hnumber => ?_
    obtain ⟨c, hc⟩ := List.exists_mem_of_ne_nil _ hnumber.ne_nil
    have hforeign : (smallLetters "km/h").all fun c => !isNumeral c := by decide +kernel
    have hnone : isNumeral c = false := by
      simpa using List.all_eq_true.1 hforeign c (hpart.subset hc)
    exact hnumber.not_mem hnone hc

end RoadRouting.Speed
