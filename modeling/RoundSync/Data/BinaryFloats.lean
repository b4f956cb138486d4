import Mathlib.Data.Nat.Log
import Mathlib.Tactic.Ring

/-!
# Floats and doubles

The data of the two binary formats as sign, biased exponent and fraction, and the
conversions between them: widening is exact, narrowing rounds to the nearest float
and in a tie to the even one.  What was widened is narrowed back.
-/

namespace RoundSync.Data

/-- A datum of a binary format. -/
structure Binary (fractionBits exponentBits : Nat) where
  negative : Bool
  exponent : Nat
  fraction : Nat
  exponent_lt : exponent < 2 ^ exponentBits
  fraction_lt : fraction < 2 ^ fractionBits
  deriving DecidableEq

abbrev Single := Binary 23 8

abbrev Double := Binary 52 11

/-- Neither an infinity nor a NaN. -/
def Binary.Finite {fractionBits exponentBits : Nat} (x : Binary fractionBits exponentBits) : Prop :=
  x.exponent ≠ 2 ^ exponentBits - 1

instance {fractionBits exponentBits : Nat} (x : Binary fractionBits exponentBits) :
    Decidable x.Finite :=
  inferInstanceAs (Decidable (x.exponent ≠ 2 ^ exponentBits - 1))

/-! ## Bits -/

namespace Single

def ofBits (bits : UInt32) : Single where
  negative := decide (2 ^ 31 ≤ bits.toNat)
  exponent := bits.toNat / 2 ^ 23 % 2 ^ 8
  fraction := bits.toNat % 2 ^ 23
  exponent_lt := Nat.mod_lt _ (by decide)
  fraction_lt := Nat.mod_lt _ (by decide)

def toBits (x : Single) : UInt32 :=
  UInt32.ofNat ((if x.negative then 2 ^ 31 else 0) + x.exponent * 2 ^ 23 + x.fraction)

theorem toBits_ofBits (bits : UInt32) : toBits (ofBits bits) = bits := by
  have small := bits.toNat_lt
  have same : (if (ofBits bits).negative then 2 ^ 31 else 0) + (ofBits bits).exponent * 2 ^ 23 +
      (ofBits bits).fraction = bits.toNat := by
    simp only [ofBits, decide_eq_true_eq]
    split <;> omega
  rw [toBits, same, UInt32.ofNat_toNat]

end Single

/-! ## Rounding -/

/-- The nearest integer to `n / 2 ^ shift`, in a tie the even one. -/
def roundHalfEven (n shift : Nat) : Nat :=
  let quotient := n / 2 ^ shift
  let rest := 2 * (n % 2 ^ shift)
  if 2 ^ shift < rest ∨ (rest = 2 ^ shift ∧ quotient % 2 = 1) then quotient + 1 else quotient

theorem roundHalfEven_mul (n shift : Nat) : roundHalfEven (n * 2 ^ shift) shift = n := by
  have positive : 0 < 2 ^ shift := Nat.two_pow_pos shift
  rw [roundHalfEven, Nat.mul_mod_left, Nat.mul_div_cancel n positive]
  apply if_neg
  omega

/-! ## Conversions -/

/-- The significand of a subnormal number without its leading bit fits the longer
fraction. -/
theorem normalized_lt {fraction : Nat} (nonzero : fraction ≠ 0) (small : fraction < 2 ^ 23) :
    (fraction - 2 ^ Nat.log2 fraction) * 2 ^ (52 - Nat.log2 fraction) < 2 ^ 52 := by
  have low : 2 ^ Nat.log2 fraction ≤ fraction := Nat.log2_self_le nonzero
  have high : fraction < 2 ^ (Nat.log2 fraction + 1) := Nat.lt_log2_self
  have few : Nat.log2 fraction < 23 := (Nat.log2_lt nonzero).mpr small
  calc
    (fraction - 2 ^ Nat.log2 fraction) * 2 ^ (52 - Nat.log2 fraction) <
        2 ^ Nat.log2 fraction * 2 ^ (52 - Nat.log2 fraction) := by
      apply Nat.mul_lt_mul_of_pos_right _ (Nat.two_pow_pos _)
      rw [Nat.pow_succ] at high
      omega
    _ = 2 ^ 52 := by
      rw [← Nat.pow_add]
      congr 1
      omega

/-- The conversion of a float to a double. -/
def widen (x : Single) : Double :=
  if x.exponent = 255 then
    ⟨x.negative, 2047, x.fraction * 2 ^ 29, by decide, by have := x.fraction_lt; omega⟩
  else if zero : x.exponent = 0 then
    if nonzero : x.fraction ≠ 0 then
      ⟨x.negative, Nat.log2 x.fraction + 874,
        (x.fraction - 2 ^ Nat.log2 x.fraction) * 2 ^ (52 - Nat.log2 x.fraction),
        by have := (Nat.log2_lt nonzero).mpr x.fraction_lt; omega,
        normalized_lt nonzero x.fraction_lt⟩
    else ⟨x.negative, 0, 0, by decide, by decide⟩
  else
    ⟨x.negative, x.exponent + 896, x.fraction * 2 ^ 29, by have := x.exponent_lt; omega,
      by have := x.fraction_lt; omega⟩

/-- The bits below the sign of the float that is nearest. -/
def narrowMagnitude (exponent fraction : Nat) : Nat :=
  if exponent = 2047 then 255 * 2 ^ 23 + if fraction = 0 then 0 else 2 ^ 22
  else if exponent = 0 then 0
  else
    min (255 * 2 ^ 23) ((max exponent 897 - 897) * 2 ^ 23 +
      roundHalfEven (2 ^ 52 + fraction) (max 29 (926 - exponent)))

theorem narrowMagnitude_lt (exponent fraction : Nat) : narrowMagnitude exponent fraction < 2 ^ 31 := by
  unfold narrowMagnitude
  split_ifs <;> omega

/-- The conversion of a double to a float. -/
def narrow (x : Double) : Single where
  negative := x.negative
  exponent := narrowMagnitude x.exponent x.fraction / 2 ^ 23
  fraction := narrowMagnitude x.exponent x.fraction % 2 ^ 23
  exponent_lt := by have := narrowMagnitude_lt x.exponent x.fraction; omega
  fraction_lt := Nat.mod_lt _ (by decide)

theorem finite_widen {x : Single} (finite : x.Finite) : (widen x).Finite := by
  have small := x.exponent_lt
  unfold Binary.Finite at finite ⊢
  unfold widen
  split_ifs with special zero nonzero
  · exact absurd special finite
  · have few := (Nat.log2_lt nonzero).mpr x.fraction_lt
    simp only
    omega
  · simp
  · simp only
    omega

/-- The bits of a float are found again from its double. -/
theorem narrowMagnitude_widen {x : Single} (finite : x.Finite) :
    narrowMagnitude (widen x).exponent (widen x).fraction = x.exponent * 2 ^ 23 + x.fraction := by
  have exponentSmall := x.exponent_lt
  have fractionSmall := x.fraction_lt
  unfold Binary.Finite at finite
  unfold widen
  split_ifs with special zero nonzero
  · exact absurd special finite
  · -- the leading bit comes back, and the shift undoes the normalization
    have few := (Nat.log2_lt nonzero).mpr x.fraction_lt
    have low : 2 ^ Nat.log2 x.fraction ≤ x.fraction := Nat.log2_self_le nonzero
    have whole : 2 ^ 52 + (x.fraction - 2 ^ Nat.log2 x.fraction) * 2 ^ (52 - Nat.log2 x.fraction) =
        x.fraction * 2 ^ (52 - Nat.log2 x.fraction) := by
      have split : 2 ^ 52 = 2 ^ Nat.log2 x.fraction * 2 ^ (52 - Nat.log2 x.fraction) := by
        rw [← Nat.pow_add]
        congr 1
        omega
      rw [split, ← Nat.add_mul, Nat.add_sub_cancel' low]
    have shift : max 29 (926 - (Nat.log2 x.fraction + 874)) = 52 - Nat.log2 x.fraction := by
      omega
    simp only [narrowMagnitude]
    rw [if_neg (by omega), if_neg (by omega), shift, whole, roundHalfEven_mul]
    omega
  · rw [zero, not_not.mp nonzero]
    rfl
  · have whole : 2 ^ 52 + x.fraction * 2 ^ 29 = (2 ^ 23 + x.fraction) * 2 ^ 29 := by
      ring
    have shift : max 29 (926 - (x.exponent + 896)) = 29 := by
      omega
    simp only [narrowMagnitude]
    rw [if_neg (by omega), if_neg (by omega), shift, whole, roundHalfEven_mul]
    omega

/-- A finite float is read back from its double. -/
theorem narrow_widen {x : Single} (finite : x.Finite) : narrow (widen x) = x := by
  have magnitude := narrowMagnitude_widen finite
  have fractionSmall := x.fraction_lt
  have sign : (widen x).negative = x.negative := by
    unfold widen
    split_ifs <;> rfl
  unfold narrow
  obtain ⟨negative, exponent, fraction, _, _⟩ := x
  simp only [Binary.mk.injEq]
  refine ⟨sign, ?_, ?_⟩
  · rw [magnitude]
    simp only
    omega
  · rw [magnitude]
    simp only
    omega

end RoundSync.Data
