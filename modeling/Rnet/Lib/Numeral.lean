import Mathlib

/-!
# Numerals

The digits of a number in a base, as a loop that divides finds them: the lowest one first, and one
digit for zero. `IsNumeral` says what a canonical numeral is, the highest digit first.
-/
namespace Numeral

variable {b n : Nat}

/-- The digits of `n`, the lowest one first. -/
def places (b n : Nat) : List Nat := if n = 0 then [0] else Nat.digits b n

/-- The digits, the highest one first, are those of `n`, with no zero in front. -/
structure IsNumeral (b n : Nat) (digits : List Nat) : Prop where
  small : ∀ d ∈ digits, d < b
  value : Nat.ofDigits b digits.reverse = n
  nonempty : digits ≠ []
  canonical : digits.head? = some 0 → digits = [0]

/-- One turn of the loop. -/
theorem places_eq (base : 1 < b) (n : Nat) :
    places b n = n % b :: if n / b = 0 then [] else places b (n / b) := by
  by_cases zero : n = 0
  · simp [places, zero]
  · rw [places, if_neg zero, Nat.digits_def' base (Nat.pos_of_ne_zero zero)]
    by_cases last : n / b = 0
    · rw [if_pos last, last, Nat.digits_zero]
    · rw [if_neg last, places, if_neg last]

theorem places_lt (base : 1 < b) (n : Nat) : ∀ d ∈ places b n, d < b := by
  intro d member
  unfold places at member
  split at member
  · rw [List.mem_singleton.mp member]
    omega
  · exact Nat.digits_lt_base base member

theorem ofDigits_places (b n : Nat) : Nat.ofDigits b (places b n) = n := by
  unfold places
  split
  next zero => simp [zero]
  next => exact Nat.ofDigits_digits b n

theorem length_places_le {k : Nat} (base : 1 < b) (positive : 0 < k) (small : n < b ^ k) : (places b n).length ≤ k := by
  unfold places
  split
  · exact positive
  · exact (Nat.digits_length_le_iff base n).mpr small

theorem isNumeral_places (base : 1 < b) (n : Nat) : IsNumeral b n (places b n).reverse where
  small := by
    intro d member
    exact places_lt base n d (List.mem_reverse.mp member)
  value := by
    rw [List.reverse_reverse]
    exact ofDigits_places b n
  nonempty := by
    rw [places_eq base]
    simp
  canonical := by
    intro head
    rw [List.head?_reverse] at head
    unfold places at head ⊢
    split at head
    next zero =>
      rw [if_pos zero]
      rfl
    next positive =>
      -- the highest digit of a positive number is not zero
      have filled : Nat.digits b n ≠ [] := Nat.digits_ne_nil_iff_ne_zero.mpr positive
      rw [List.getLast?_eq_getLast_of_ne_nil filled] at head
      exact absurd (Option.some.inj head) (Nat.getLast_digit_ne_zero b positive)

/-- Digits that are shown by `glyph` are read back by `value`. -/
theorem map_value_glyph {α : Type} {glyph : Nat → α} {value : α → Nat} {digits : List Nat}
    (known : ∀ d < b, value (glyph d) = d) (small : ∀ d ∈ digits, d < b) : (digits.map glyph).map value = digits := by
  have back (d : Nat) (member : d ∈ digits) : (value ∘ glyph) d = id d := known d (small d member)
  rw [List.map_map, List.map_congr_left back, List.map_id]

/-- Reading a numeral digit by digit, the highest one first. -/
def read (b : Nat) (digits : List Nat) : Nat := digits.foldl (fun value d => value * b + d) 0

theorem read_eq_ofDigits (b : Nat) (digits : List Nat) : read b digits = Nat.ofDigits b digits.reverse := by
  -- the last digit is read last and weighs least
  induction digits using List.reverseRecOn with
  | nil => rfl
  | append_singleton digits d ih =>
    rw [read, List.foldl_append, List.reverse_append]
    simp only [List.foldl_cons, List.foldl_nil, List.reverse_singleton, List.singleton_append, Nat.ofDigits_cons]
    rw [← ih, read]
    ring

theorem IsNumeral.read_eq {digits : List Nat} (numeral : IsNumeral b n digits) : read b digits = n := by
  rw [read_eq_ofDigits]
  exact numeral.value

end Numeral
