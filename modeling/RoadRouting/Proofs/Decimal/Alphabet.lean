import RoadRouting.Decimal.Read
import RoadRouting.Proofs.Text.Trim

/-!
# The characters of numbers

Numbers are written with digits, signs, a point, the letter of the exponent and the letters of the words for
infinity and for what is no number (`IsNumber.isNumeral`). None of these is a blank, and a number has at least
one of them. So whatever else a text holds stands outside of the numbers in it.
-/

namespace RoadRouting.Decimal
set_option autoImplicit false

/-- The characters of numbers that are no digits, in small letters. -/
def marks : List Char := ['+', '-', '.', 'e', 'i', 'n', 'f', 't', 'y', 'a']

/-- Whether a number can have the character. -/
def isNumeral (c : Char) : Bool := c.isDigit || marks.contains c.toLower

variable {cs : List Char} {c : Char}

theorem isNumeral_of_isDigit (h : c.isDigit) : isNumeral c := by
  rw [isNumeral, h, Bool.true_or]

/-- No blank is in a number. -/
theorem isNumeral_of_isBlank (h : Text.isBlank c) : isNumeral c = false := by
  rw [isNumeral, Bool.or_eq_false_iff]
  constructor
  · rw [Bool.eq_false_iff, ne_eq, Char.isDigit_iff_toNat]
    rw [Text.isBlank_iff] at h
    show ¬ (48 ≤ c.toNat ∧ c.toNat ≤ 57)
    omega
  · have hmarks : marks.all fun d => !Text.isBlank d := by decide
    rw [Bool.eq_false_iff, ne_eq, List.contains_iff_mem]
    intro hmem
    have hkept := List.all_eq_true.1 hmarks _ hmem
    rw [Text.isBlank_toLower, h] at hkept
    cases hkept

/-- A sign may stand in front of a number. -/
theorem exists_sign (cs : List Char) : ∃ sign, cs = sign ++ (takeSign cs).2 ∧ ∀ c ∈ sign, isNumeral c := by
  unfold takeSign
  split
  · exact ⟨['-'], rfl, List.forall_mem_singleton.2 rfl⟩
  · exact ⟨['+'], rfl, List.forall_mem_singleton.2 rfl⟩
  · exact ⟨[], rfl, nofun⟩

theorem isNumeral_of_exponent? (h : (exponent? cs).isSome) : ∀ c ∈ cs, isNumeral c := by
  unfold exponent? at h
  split at h
  · nofun
  · rename_i e rest
    split at h
    · rename_i he
      obtain ⟨sign, hrest, hsign⟩ := exists_sign rest
      simp only at h
      split at h
      · cases h
      · rename_i hdigits
        rw [Bool.or_eq_true, not_or, Bool.not_eq_true', Bool.not_eq_false] at hdigits
        have hall := List.all_eq_true.1 hdigits.2
        have hletter : isNumeral e := by
          rcases he with rfl | rfl <;> rfl
        rw [hrest]
        refine List.forall_mem_cons.2 ⟨hletter, List.forall_mem_append.2 ⟨hsign, fun c hc => ?_⟩⟩
        exact isNumeral_of_isDigit (hall c hc)
    · cases h

/-- Behind its first digits a number has a point with more digits, or neither, and then its exponent. -/
theorem exists_tail {negative : Bool} (h : (unsigned? negative cs).isSome) : ∃ fraction tail,
    cs.dropWhile Char.isDigit = fraction ++ tail ∧ (∀ c ∈ fraction, isNumeral c) ∧
      (exponent? tail).isSome := by
  have htail {tail : List Char} {p : Prop} [Decidable p] {f : Int → Numeral}
      (h : (if p then none else do return f (← exponent? tail)).isSome) : (exponent? tail).isSome := by
    split at h
    · cases h
    · cases he : exponent? tail with
      | none => simp [he] at h
      | some e => rfl
  unfold unsigned? at h
  simp only at h
  split at h
  · rename_i more hmore
    refine ⟨'.' :: more.takeWhile Char.isDigit, more.dropWhile Char.isDigit, ?_, ?_, htail h⟩
    · rw [hmore, List.cons_append, List.takeWhile_append_dropWhile]
    · exact List.forall_mem_cons.2 ⟨rfl, fun c hc => isNumeral_of_isDigit (List.mem_takeWhile_imp hc)⟩
  · exact ⟨[], cs.dropWhile Char.isDigit, rfl, nofun, htail h⟩

theorem isNumeral_of_unsigned? {negative : Bool} (h : (unsigned? negative cs).isSome) :
    ∀ c ∈ cs, isNumeral c := by
  obtain ⟨fraction, tail, hrest, hfraction, htail⟩ := exists_tail h
  have hwhole : ∀ c ∈ cs.takeWhile Char.isDigit, isNumeral c := fun c hc =>
    isNumeral_of_isDigit (List.mem_takeWhile_imp hc)
  rw [← List.takeWhile_append_dropWhile (p := Char.isDigit) (l := cs), hrest]
  exact List.forall_mem_append.2 ⟨hwhole, List.forall_mem_append.2 ⟨hfraction, isNumeral_of_exponent? htail⟩⟩

theorem isNumeral_of_word? (h : (word? (cs.map Char.toLower)).isSome) : ∀ c ∈ cs, isNumeral c := by
  have hletters : ∀ word ∈ [['i', 'n', 'f'], ['i', 'n', 'f', 'i', 'n', 'i', 't', 'y'], ['n', 'a', 'n']],
      word.all marks.contains := by decide
  have hword : cs.map Char.toLower ∈
      [['i', 'n', 'f'], ['i', 'n', 'f', 'i', 'n', 'i', 't', 'y'], ['n', 'a', 'n']] := by
    unfold word? at h
    split at h
    · rename_i hinf
      rcases hinf with heq | heq <;> simp [heq]
    · split at h
      · rename_i heq
        simp [heq]
      · cases h
  intro c hc
  rw [isNumeral, List.all_eq_true.1 (hletters _ hword) _ (List.mem_map_of_mem hc), Bool.or_true]

/-- A text can be read as a number. -/
def IsNumber (cs : List Char) : Prop := (read? cs).isSome

/-- A number has no characters but those of numbers. -/
theorem IsNumber.isNumeral (h : IsNumber cs) : ∀ c ∈ cs, isNumeral c := by
  obtain ⟨sign, hcs, hsign⟩ := exists_sign cs
  have hbody : ∀ c ∈ (takeSign cs).2, Decimal.isNumeral c := by
    unfold IsNumber read? at h
    simp only at h
    split at h
    · rename_i hword
      exact isNumeral_of_word? (Option.isSome_of_eq_some hword)
    · rw [Option.isSome_map] at h
      exact isNumeral_of_unsigned? h
  rw [hcs]
  exact List.forall_mem_append.2 ⟨hsign, hbody⟩

theorem IsNumber.not_mem (h : IsNumber cs) (hc : Decimal.isNumeral c = false) : c ∉ cs := by
  intro hmem
  rw [h.isNumeral c hmem] at hc
  cases hc

/-- There is no number without characters. -/
theorem IsNumber.ne_nil (h : IsNumber cs) : cs ≠ [] := by
  rintro rfl
  cases h

end RoadRouting.Decimal
