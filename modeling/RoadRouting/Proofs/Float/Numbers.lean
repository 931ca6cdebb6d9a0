import RoadRouting.Proofs.Float.Whole

/-!
# Floats that are numbers

What is packed from a number is a number (`WithSign.toNat_pack`). So arithmetic gives one, unless two
infinities are subtracted, a zero is multiplied by an infinity or divided by a zero, or an infinity is
divided by one.
-/

namespace RoadRouting.Binary64
set_option autoImplicit false
open Float.Model (Format UnpackedFloat)
open Float.Model.UnpackedFloat

/-- A number with a sign. -/
inductive WithSign (s : Sign) : UnpackedFloat → Prop
  | infinity : WithSign s (.infinity s)
  | zero : WithSign s (.zero s)
  | finite (m : Nat) (e : Int) (hm : 0 < m) : WithSign s (.finite s m e hm)

theorem exists_withSign {u : UnpackedFloat} (h : u.isNaN = false) : ∃ s, WithSign s u := by
  cases u with
  | notANumber => cases h
  | infinity s => exact ⟨s, .infinity⟩
  | zero s => exact ⟨s, .zero⟩
  | finite s m e hm => exact ⟨s, .finite m e hm⟩

theorem isNaN_of_bits {x : Float} {s : Sign} {v : Nat} (hv : v ≤ infinityBits)
    (h : bits x = signBit s + v) : x.isNaN = false := by
  by_contra hnan
  rw [bits_of_isNaN (Bool.eq_true_of_not_eq_false hnan)] at h
  unfold infinityBits at h hv
  cases s <;> simp only [signBit] at h <;> omega

namespace WithSign
variable {s : Sign} {u : UnpackedFloat}

/-- A number is packed with its sign, and with no more than an infinity. -/
theorem toNat_pack (h : WithSign s u) :
    ∃ n ≤ infinityBits, (UnpackedFloat.pack Format.binary64 u).toNat = signBit s + n := by
  have hinfinity : (packedInfinity Format.binary64 s).toNat = signBit s + infinityBits :=
    toNat_packComponents s (-1#11) 0#52
  cases h with
  | infinity => exact ⟨infinityBits, le_refl _, hinfinity⟩
  | zero => exact ⟨0, Nat.zero_le _, toNat_packComponents s 0#11 0#52⟩
  | finite m e hm =>
    have hmantissa : (BitVec.ofNat 52 m).toNat < 2 ^ 52 := (BitVec.ofNat 52 m).isLt
    have hwidth : 2 ^ Format.binary64.exponentBits = 2048 := rfl
    unfold UnpackedFloat.pack
    dsimp only
    split
    · exact ⟨infinityBits, le_refl _, hinfinity⟩
    · rename_i hexponent
      split
      · refine ⟨_, ?_, toNat_packComponents s _ _⟩
        rw [hwidth] at hexponent
        rw [BitVec.toNat_ofNat, Nat.mod_eq_of_lt (by omega)]
        unfold infinityBits
        omega
      · refine ⟨_, ?_, toNat_packComponents s 0#11 _⟩
        rw [show (0#11).toNat = 0 from rfl]
        unfold infinityBits
        omega

theorem roundWithAccuracy (f : Format) (s : Sign) (m : Nat) (e : Int) (a : Accuracy) :
    WithSign s (roundWithAccuracy f s m e a) := by
  rcases roundWithAccuracy_cases f s m e a with h | ⟨m', e', hm', h⟩
  · rw [h]
    exact .zero
  · rw [h]
    exact .finite m' e' hm'

/-- The square of a number has no minus sign. -/
theorem mul_self (f : Format) (h : WithSign s u) : WithSign .positive (UnpackedFloat.mul f u u) := by
  have hs : s * s = .positive := by cases s <;> rfl
  have hsquare : WithSign (s * s) (UnpackedFloat.mul f u u) := by
    cases h with
    | infinity => exact .infinity
    | zero => exact .zero
    | finite m e hm => exact .roundWithAccuracy _ _ _ _ _
  rwa [hs] at hsquare

/-- A number divided by one that is neither zero nor infinite is a number. -/
theorem div_finite (f : Format) (h : WithSign s u) (s' : Sign) (m' : Nat) (e' : Int) (hm' : 0 < m') :
    WithSign (s / s') (UnpackedFloat.div f u (.finite s' m' e' hm')) := by
  cases h with
  | infinity => exact .infinity
  | zero => exact .zero
  | finite m e hm => exact .roundWithAccuracy _ _ _ _ _

theorem neg (h : WithSign s u) : WithSign (-s) u.neg := by
  cases h with
  | infinity => exact .infinity
  | zero => exact .zero
  | finite m e hm => exact .finite m e hm

end WithSign

theorem exists_withSign_normalize (f : Format) (m e : Int) (s : Sign) :
    ∃ s', WithSign s' (UnpackedFloat.normalize f m e s) := by
  unfold UnpackedFloat.normalize
  split
  · exact ⟨_, .roundWithAccuracy _ _ _ _ _⟩
  · exact ⟨_, .zero⟩
  · exact ⟨_, .roundWithAccuracy _ _ _ _ _⟩

/-- A finite float less a number is a number. -/
theorem exists_withSign_sub (f : Format) {u v : UnpackedFloat} (hu : u.isFinite = true)
    (hv : v.isNaN = false) : ∃ s, WithSign s (UnpackedFloat.sub f u v) := by
  cases u with
  | notANumber => cases hu
  | infinity s => cases hu
  | zero s =>
    cases v with
    | notANumber => cases hv
    | infinity s' => exact ⟨_, .infinity⟩
    | zero s' => cases s <;> cases s' <;> exact ⟨_, .zero⟩
    | finite s' m' e' hm' => exact ⟨_, .finite _ _ _⟩
  | finite s m e hm =>
    cases v with
    | notANumber => cases hv
    | infinity s' => exact ⟨_, .infinity⟩
    | zero s' => exact ⟨_, .finite m e hm⟩
    | finite s' m' e' hm' => exact exists_withSign_normalize f _ _ _

section Floats
variable {x y : Float}

/-- A finite float less a number is a number. -/
theorem isNaN_sub (hx : x.isFinite = true) (hy : y.isNaN = false) : (x - y).isNaN = false := by
  have hx : x.toModel.unpack.isFinite = true := hx
  have hy : y.toModel.unpack.isNaN = false := hy
  obtain ⟨s, hs⟩ := exists_withSign_sub Format.binary64 hx hy
  obtain ⟨n, hn, hbits⟩ := hs.toNat_pack
  exact isNaN_of_bits hn hbits

/-- The square of a number has no minus sign. -/
theorem isPositive_mul_self (hx : x.isNaN = false) : IsPositive (x * x) := by
  have hx : x.toModel.unpack.isNaN = false := hx
  obtain ⟨s, hs⟩ := exists_withSign hx
  obtain ⟨n, hn, hbits⟩ := (hs.mul_self Format.binary64).toNat_pack
  have hbits : bits (x * x) = 0 + n := hbits
  unfold IsPositive
  omega

/-- A number divided by a positive float that is not infinite is a number. -/
theorem isNaN_div (hx : x.isNaN = false) (hy : IsPositive y) (hpos : 0 < bits y)
    (hfinite : bits y < infinityBits) : (x / y).isNaN = false := by
  have hx : x.toModel.unpack.isNaN = false := hx
  have hshow := (shows y).positive hy
  have hbits := bits_div_eq x y
  obtain ⟨s, hs⟩ := exists_withSign hx
  generalize bits y = b at hshow hpos hfinite
  generalize y.toModel.unpack = u at hshow hbits
  cases hshow with
  | infinity => exact absurd hfinite (lt_irrefl _)
  | zero => exact absurd hpos (lt_irrefl _)
  | finite hm hc hlt =>
    obtain ⟨n, hn, hpack⟩ := (hs.div_finite Format.binary64 .positive _ _ hm).toNat_pack
    exact isNaN_of_bits hn (hbits.trans hpack)

theorem isNaN_neg (hx : x.isNaN = false) : (-x).isNaN = false := by
  have hx : x.toModel.unpack.isNaN = false := hx
  obtain ⟨s, hs⟩ := exists_withSign hx
  obtain ⟨n, hn, hpack⟩ := hs.neg.toNat_pack
  exact isNaN_of_bits hn hpack

/-- Nothing is above infinity. -/
theorem not_infinity_lt (x : Float) : ¬ 1.0 / 0.0 < x := by
  rw [lt_iff]
  rintro ⟨-, hx, hlt⟩
  have hbits : signed (bits (1.0 / 0.0)) = infinityBits := by decide +kernel
  have hle : signed (bits x) ≤ infinityBits := by
    have hx : x.toModel.unpack.isNaN = false := hx
    have hshow := shows x
    have hsign (s : Sign) {v : Nat} (hv : v ≤ infinityBits) : signed (signBit s + v) ≤ infinityBits := by
      rw [signed_signBit s hv]
      cases s <;> simp only [Sign.apply] <;> omega
    generalize bits x = n at hshow ⊢
    generalize x.toModel.unpack = u at hx hshow
    cases hshow with
    | notANumber => cases hx
    | infinity s => exact hsign s (le_refl _)
    | zero s => exact hsign s (Nat.zero_le _)
    | finite s _ _ hfinite => exact hsign s hfinite.le
  omega

/-- A whole number of 64 bits becomes a number. -/
theorem isNaN_ofInt (n : Int64) : (Float.ofInt n.toInt).isNaN = false := by
  have hnat (m : Nat) (hm : m < 2 ^ 64) : (Float.ofNat m).isNaN = false := by
    rcases Nat.eq_zero_or_pos m with rfl | hpos
    · decide +kernel
    · have hbits : bits (Float.ofNat m) = rounded (unitsOf m) := bits_toFloat hpos hm
      have hpositive : IsPositive (Float.ofNat m) := by
        unfold IsPositive
        rw [hbits]
        exact Nat.min_le_left _ _
      exact hpositive.isNaN
  have hlt := n.toInt_lt
  have hle := n.le_toInt
  generalize n.toInt = i at hlt hle
  cases i with
  | ofNat m =>
    have hcast : Int.ofNat m = (m : Int) := rfl
    exact hnat m (by omega)
  | negSucc m => exact isNaN_neg (hnat (m + 1) (by omega))

end Floats
end RoadRouting.Binary64
