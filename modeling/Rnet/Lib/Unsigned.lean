import Mathlib

/-!
# Unsigned arithmetic of a fixed width

Numbers below `2 ^ w` with a sum and a difference that wrap around, and the way of a number
through a signed type of `v` bits and back to `w` bits.
-/
namespace Unsigned

variable {w v a b : Nat}

def add (w a b : Nat) : Nat := (a + b) % 2 ^ w

def sub (w a b : Nat) : Nat := (a + (2 ^ w - b)) % 2 ^ w

/-- The number is cast to a signed type of `v` bits, and the result to `w` bits. -/
def throughSigned (w v a : Nat) : Nat := ((BitVec.ofNat v a).signExtend w).toNat

theorem add_of_lt (noWrap : a + b < 2 ^ w) : add w a b = a + b := Nat.mod_eq_of_lt noWrap

theorem sub_of_le (below : a < 2 ^ w) (le : b ≤ a) : sub w a b = a - b := by
  have turn : a + (2 ^ w - b) = a - b + 2 ^ w := by omega
  rw [sub, turn, Nat.add_mod_right, Nat.mod_eq_of_lt (by omega)]

theorem throughSigned_of_low (narrow : v ≤ w) (low : 2 * (a % 2 ^ v) < 2 ^ v) :
    throughSigned w v a = a % 2 ^ v := by
  have le : (2 : Nat) ^ v ≤ 2 ^ w := Nat.pow_le_pow_right (by decide) narrow
  have positive : (BitVec.ofNat v a).msb = false := by
    rw [BitVec.msb_eq_false_iff_two_mul_lt, BitVec.toNat_ofNat]
    exact low
  rw [throughSigned, BitVec.toNat_signExtend, positive, BitVec.toNat_setWidth, BitVec.toNat_ofNat]
  simp only [Bool.false_eq_true, if_false, Nat.add_zero]
  exact Nat.mod_eq_of_lt (by omega)

/-- A number whose bit `v - 1` is set turns negative, and with `w` bits very large. -/
theorem throughSigned_of_high (narrow : v ≤ w) (high : 2 ^ v ≤ 2 * (a % 2 ^ v)) :
    throughSigned w v a = 2 ^ w - (2 ^ v - a % 2 ^ v) := by
  have le : (2 : Nat) ^ v ≤ 2 ^ w := Nat.pow_le_pow_right (by decide) narrow
  have less : a % 2 ^ v < 2 ^ v := Nat.mod_lt _ (Nat.two_pow_pos v)
  have negative : (BitVec.ofNat v a).msb = true := by
    rw [BitVec.msb_eq_true_iff_two_mul_ge, BitVec.toNat_ofNat]
    exact high
  rw [throughSigned, BitVec.toNat_signExtend, negative, BitVec.toNat_setWidth, BitVec.toNat_ofNat,
    if_pos rfl, Nat.mod_eq_of_lt (by omega)]
  omega

end Unsigned
