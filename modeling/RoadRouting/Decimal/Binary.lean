/-!
# What a floating-point number denotes

A 64-bit float is a NaN, an infinity, or a sign with a mantissa and a power of two. `Binary.ofFloat`
reads these parts off the bits; everything that writes a number works on them in exact natural
arithmetic.
-/

namespace RoadRouting.Decimal
set_option autoImplicit false

/-- The value of a 64-bit float: `finite n m q` is `m · 2 ^ q`, negated when `n`. -/
inductive Binary where
  | nan
  | infinite (negative : Bool)
  | finite (negative : Bool) (mantissa : Nat) (exponent : Int)
  deriving Repr, DecidableEq

/-- Splits the bits into sign, exponent and fraction; subnormals have no hidden bit. -/
def Binary.ofFloat (x : Float) : Binary :=
  let bits := x.toBits.toNat
  let negative := decide (1 <<< 63 ≤ bits)
  let biased := bits >>> 52 % 1 <<< 11
  let fraction := bits % 1 <<< 52
  if biased = 2047 then
    if fraction = 0 then .infinite negative else .nan
  else if biased = 0 then
    .finite negative fraction (-1074)
  else
    .finite negative (1 <<< 52 + fraction) (Int.ofNat biased - 1075)

/-- `m · 2 ^ q` as a fraction of natural numbers. -/
def scaled (m : Nat) (q : Int) : Nat × Nat :=
  match q with
  | .ofNat k => (m <<< k, 1)
  | .negSucc k => (m, 1 <<< (k + 1))

/-- The integer nearest to `num / den`; a half goes to the even neighbour. -/
def roundDiv (num den : Nat) : Nat :=
  let q := num / den
  let r := num % den
  if 2 * r < den then q
  else if den < 2 * r then q + 1
  else if q % 2 = 0 then q
  else q + 1

/-- Rounding moves the quotient by half a unit at most. -/
theorem roundDiv_within {num den : Nat} (h : 0 < den) :
    2 * num ≤ 2 * (roundDiv num den * den) + den ∧ 2 * (roundDiv num den * den) ≤ 2 * num + den := by
  have hdm := Nat.div_add_mod num den
  have hlt := Nat.mod_lt num h
  have hc : den * (num / den) = num / den * den := Nat.mul_comm ..
  unfold roundDiv
  simp only
  split
  · omega
  · split
    · rw [Nat.add_mul]; omega
    · split
      · omega
      · rw [Nat.add_mul]; omega

end RoadRouting.Decimal
