import Mathlib
import WorkerPool.Lib.Json

/-!
# Binary64 numbers

The finite non-negative numbers of the format as multiples of the smallest of them, the
rounding of a rational to the nearest one, and the bit pattern of the result.
-/

namespace Float64

/-- `num / den` to the nearest integer, a tie to the even one. -/
def nearestInt (num den : Nat) : Nat :=
  let q := num / den
  let r := num % den
  if 2 * r < den then q else if den < 2 * r then q + 1 else q + q % 2

/-- One, counted in the smallest positive number. -/
def unit : Nat := 2 ^ 1074

/-- The number nearest to `num / den`, counted in the smallest positive number. -/
def nearest (num den : Nat) : Nat :=
  let ulp := 2 ^ ((num * unit / den).log2 - 52)
  nearestInt (num * unit) (den * ulp) * ulp

/-- The bit pattern of a multiple of the smallest positive number, infinity from
`2 ^ 1024` on. -/
def bits (n : Nat) : Nat :=
  if n < 2 ^ 52 then n
  else
    let shift := n.log2 - 52
    if 2046 ≤ shift then 2047 * 2 ^ 52 else (shift + 1) * 2 ^ 52 + (n / 2 ^ shift - 2 ^ 52)

/-- What `float` reads from decimal digits scaled by a power of ten. -/
def ofDecimal (negative : Bool) (digits : Nat) (exponent : Int) : UInt64 :=
  let magnitude :=
    if 0 ≤ exponent then nearest (digits * 10 ^ exponent.toNat) 1
    else nearest digits (10 ^ (-exponent).toNat)
  UInt64.ofNat ((if negative then 2 ^ 63 else 0) + bits magnitude)

/-- A number rounded to so many decimals, and from there to the nearest number again. -/
def roundTo (decimals n : Nat) : Nat :=
  nearest (nearestInt (n * 10 ^ decimals) unit) (10 ^ decimals)

/-- The pattern of `1.0`. -/
def one : UInt64 := 0x3FF0000000000000

def isFinite (b : UInt64) : Bool := b.toNat / 2 ^ 52 % 2 ^ 11 ≠ 2047

example : ofDecimal false 10 (-1) = one := by decide +kernel

example : Json.floatInt? (ofDecimal true 25 (-1)) = none := by decide +kernel

/-- A mantissa of 53 bits, its first bit set, is a power of two in one way only. -/
theorem mantissa_of_power {m e k : Nat} (bound : m < 2 ^ 52)
    (h : (2 ^ 52 + m) * 2 ^ e = 2 ^ (52 + k)) : m = 0 ∧ e = k := by
  have below : e ≤ 52 + k := by
    by_contra above
    have larger : 2 ^ (52 + k) < 2 ^ e := Nat.pow_lt_pow_right (by omega) (by omega)
    have : 1 * 2 ^ e ≤ (2 ^ 52 + m) * 2 ^ e := Nat.mul_le_mul_right _ (by omega)
    omega
  have split : 2 ^ (52 + k) = 2 ^ (52 + k - e) * 2 ^ e := by
    rw [← Nat.pow_add]
    congr 1
    omega
  rw [split] at h
  have same : 2 ^ 52 + m = 2 ^ (52 + k - e) := Nat.eq_of_mul_eq_mul_right (Nat.two_pow_pos e) h
  have lower : 52 ≤ 52 + k - e := by
    by_contra short
    have : 2 ^ (52 + k - e) < 2 ^ 52 := Nat.pow_lt_pow_right (by omega) (by omega)
    omega
  have upper : 52 + k - e ≤ 52 := by
    by_contra long
    have : 2 ^ 53 ≤ 2 ^ (52 + k - e) := Nat.pow_le_pow_right (by omega) (by omega)
    omega
  have exact : 52 + k - e = 52 := by omega
  rw [exact] at same
  omega

/-- Of all bit patterns only one is the number `1`. -/
theorem eq_one_of_floatInt? {b : UInt64} (h : Json.floatInt? b = some 1) : b = one := by
  have size := b.toNat_lt
  unfold Json.floatInt? at h
  obtain ⟨k, place⟩ : ∃ k, 1075 = 52 + k := ⟨1023, rfl⟩
  rw [place] at h
  generalize scale : (2 : Nat) ^ (52 + k) = top at h
  extract_lets negative exponent mantissa scaled at h
  split at h
  case isTrue => exact absurd h (by simp)
  split at h
  case isFalse => exact absurd h (by simp)
  case isTrue finite whole =>
    have value := Option.some.inj h
    obtain ⟨q, quotient⟩ : ∃ q, scaled / top = q := ⟨_, rfl⟩
    rw [quotient] at value
    have sign : ¬ negative := by
      intro below
      rw [if_pos below] at value
      omega
    rw [if_neg sign] at value
    have single : q = 1 := by omega
    have exact : scaled = top := by
      have := Nat.div_add_mod scaled top
      rw [quotient, single, whole] at this
      omega
    have bound : mantissa < 2 ^ 52 := Nat.mod_lt _ (by omega)
    by_cases subnormal : exponent = 0
    · have small : scaled = mantissa * 2 := if_pos subnormal
      have larger : 2 ^ 53 ≤ top := by
        rw [← scale]
        exact Nat.pow_le_pow_right (by omega) (by omega)
      omega
    · have normal : scaled = (2 ^ 52 + mantissa) * 2 ^ exponent := if_neg subnormal
      obtain ⟨low, top⟩ := mantissa_of_power bound (normal.symm.trans (exact.trans scale.symm))
      have pattern : b.toNat = 1023 * 2 ^ 52 := by omega
      exact UInt64.toNat_inj.mp (by rw [pattern]; rfl)

end Float64
