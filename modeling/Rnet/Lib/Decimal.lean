import Rnet.Lib.Numeral

/-!
# Decimal numbers as text

What `%d` prints for a positive number.
-/
namespace Decimal

/-- The decimal digits of a positive number, the highest one first. -/
def decimal (n : Nat) : List Char := (Nat.digits 10 n).reverse.map Nat.digitChar

/-- The digit that a character stands for. -/
def value (c : Char) : Nat := c.toNat - '0'.toNat

theorem value_digitChar {d : Nat} (digit : d < 10) : value (Nat.digitChar d) = d := by
  rw [value, Nat.toNat_digitChar_of_lt_ten digit]
  exact Nat.add_sub_cancel_left 48 d

theorem map_value_decimal (n : Nat) : (decimal n).map value = (Nat.digits 10 n).reverse := by
  apply Numeral.map_value_glyph (b := 10) fun d digit => value_digitChar digit
  exact fun d member => Nat.digits_lt_base (by decide) (List.mem_reverse.mp member)

theorem decimal_injective : Function.Injective decimal := by
  intro m n same
  have digits := congrArg (List.map value) same
  rw [map_value_decimal, map_value_decimal, List.reverse_inj] at digits
  exact Nat.digits_inj_iff.mp digits

theorem length_decimal_le {n k : Nat} (small : n < 10 ^ k) : (decimal n).length ≤ k := by
  rw [decimal, List.length_map, List.length_reverse]
  exact (Nat.digits_length_le_iff (by decide) n).mpr small

example : decimal 2048 = ['2', '0', '4', '8'] := by decide

end Decimal
