import Rnet.Lib.Check
import Rnet.Lib.Memory
import Rnet.Lib.Numeral
import Rnet.File.ConnBuffer

/-!
# Integers as text

`Convert` and `ConvertHex` of `LogStream.cc`: digits are taken off by truncating division, looked up
in a table, stored lowest first and reversed in place. The table of `Convert` goes from `-9` to `9`,
so that the remainders of a negative number are looked up as they are. The values of every integer
type of the source are integers; no operation of the loop leaves the type.
-/
namespace Rnet.Log

open Check Memory Numeral Rnet.File

inductive TextFault where
  /-- An index outside the table of digits. -/
  | digit
  /-- A byte is stored outside the array. -/
  | store
  deriving DecidableEq, Repr

/-- `*p = c`. -/
def put (mem : List Byte) (p : Nat) (c : Byte) : Comp TextFault (List Byte) := do
  ensure .store (p < mem.length)
  return mem.set p c

/-- `std::reverse( first, last )`. -/
def reverse (mem : List Byte) (first last : Nat) : List Byte := store mem first (slice mem first last).reverse

/-- The characters for the digits of a base; `zero` is the index of that for zero. -/
structure DigitTable where
  chars : List Byte
  zero : Nat
  base : Nat
  base_gt : 1 < base

def digits : DigitTable where
  chars := ['9', '8', '7', '6', '5', '4', '3', '2', '1', '0', '1', '2', '3', '4', '5', '6', '7', '8', '9'].map
    Char.toUInt8
  zero := 9
  base := 10
  base_gt := by decide

def digitsHex : DigitTable where
  chars := ['0', '1', '2', '3', '4', '5', '6', '7', '8', '9', 'A', 'B', 'C', 'D', 'E', 'F'].map Char.toUInt8
  zero := 0
  base := 16
  base_gt := by decide

/-- `zero[ lsd ]`. -/
def DigitTable.char? (table : DigitTable) (lsd : Int) : Option Byte :=
  if 0 ≤ table.zero + lsd then table.chars[(table.zero + lsd).toNat]? else none

/-- The `do` loop of `Convert` and `ConvertHex`: the memory and `p` after it. -/
def convertLoop (table : DigitTable) (mem : List Byte) (p : Nat) (i : Int) : Comp TextFault (List Byte × Nat) := do
  let c ← demand .digit (table.char? (i.tmod table.base))
  let mem ← put mem p c
  if i.tdiv table.base ≠ 0 then convertLoop table mem (p + 1) (i.tdiv table.base) else return (mem, p + 1)
termination_by i.natAbs
decreasing_by
  rename_i more
  have positive : 0 < i.natAbs := by
    apply Int.natAbs_pos.mpr
    rintro rfl
    simp at more
  rw [Int.natAbs_tdiv, Int.natAbs_natCast]
  exact Nat.div_lt_self positive table.base_gt

/-- The memory and the length returned. -/
def convert (mem : List Byte) (buf : Nat) (value : Int) : Comp TextFault (List Byte × Nat) := do
  let (mem, p) ← convertLoop digits mem buf value
  -- the sign goes behind the digits, which are the wrong way round
  let (mem, p) ← if value < 0 then do
      let mem ← put mem p '-'.toUInt8
      pure (mem, p + 1)
    else pure (mem, p)
  let mem ← put mem p 0
  return (reverse mem buf p, p - buf)

def convertHex (mem : List Byte) (buf : Nat) (value : Nat) : Comp TextFault (List Byte × Nat) := do
  let (mem, p) ← convertLoop digitsHex mem buf value
  let mem ← put mem p 0
  return (reverse mem buf p, p - buf)

/-! ### The loop -/

theorem put_eq {mem : List Byte} {p : Nat} (inside : p < mem.length) (c : Byte) :
    put mem p c = .ok (mem.set p c) := by
  rw [put, ensure, if_pos inside]
  rfl

/-- The table shows the digits of `i` as `glyph` has them, for a negative number on its other side. -/
def DigitTable.Shows (table : DigitTable) (glyph : Nat → Byte) (i : Int) : Prop :=
  ∀ d < table.base, table.char? d = some (glyph d) ∧ (i < 0 → table.char? (-d) = some (glyph d))

theorem tmod_eq (i : Int) (b : Nat) :
    i.tmod b = if i < 0 then -((i.natAbs % b : Nat) : Int) else ((i.natAbs % b : Nat) : Int) := by
  obtain ⟨n, rfl | rfl⟩ := i.eq_nat_or_neg
  · rw [if_neg (by omega), Int.natAbs_natCast]
    rfl
  · rw [Int.neg_tmod, Int.natAbs_neg, Int.natAbs_natCast]
    split
    · rfl
    next =>
      obtain rfl : n = 0 := by omega
      simp

theorem DigitTable.Shows.char?_tmod {table : DigitTable} {glyph : Nat → Byte} {i : Int} (glyphs : table.Shows glyph i) :
    table.char? (i.tmod table.base) = some (glyph (i.natAbs % table.base)) := by
  have less : i.natAbs % table.base < table.base := Nat.mod_lt _ (Nat.lt_trans Nat.zero_lt_one table.base_gt)
  rw [tmod_eq]
  split
  next negative => exact (glyphs _ less).2 negative
  next => exact (glyphs _ less).1

theorem DigitTable.Shows.tdiv {table : DigitTable} {glyph : Nat → Byte} {i : Int} (glyphs : table.Shows glyph i) :
    table.Shows glyph (i.tdiv table.base) := by
  intro d less
  refine ⟨(glyphs d less).1, fun negative => (glyphs d less).2 ?_⟩
  by_contra positive
  have quotient : 0 ≤ i.tdiv table.base := Int.tdiv_nonneg (by omega) (by omega)
  omega

/-- The loop stores the digits, the lowest one first. -/
theorem convertLoop_eq {table : DigitTable} {glyph : Nat → Byte} {i : Int} (glyphs : table.Shows glyph i)
    (mem : List Byte) (p : Nat) (room : p + (places table.base i.natAbs).length ≤ mem.length) :
    convertLoop table mem p i = .ok (store mem p ((places table.base i.natAbs).map glyph),
      p + (places table.base i.natAbs).length) := by
  -- on the absolute value: truncating division makes it smaller on both sides of zero
  induction size : i.natAbs using Nat.strong_induction_on generalizing i mem p with
  | _ n ih =>
    subst size
    have quotient : (i.tdiv table.base).natAbs = i.natAbs / table.base := by
      rw [Int.natAbs_tdiv, Int.natAbs_natCast]
      rfl
    have step := places_eq table.base_gt i.natAbs
    rw [step] at room ⊢
    have inside : p < mem.length := by
      simp only [List.length_cons] at room
      omega
    rw [convertLoop, glyphs.char?_tmod, demand]
    change (put mem p _ >>= fun mem => ite _ _ _) = _
    rw [put_eq inside]
    change ite _ _ _ = _
    -- the source tests the quotient, `places` its absolute value
    by_cases last : i.natAbs / table.base = 0
    · have done : i.tdiv table.base = 0 := Int.natAbs_eq_zero.mp (quotient.trans last)
      rw [if_neg (not_not.mpr done), if_pos last]
      rfl
    · have more : i.tdiv table.base ≠ 0 := by
        intro zero
        rw [zero] at quotient
        exact last quotient.symm
      have positive : i.natAbs ≠ 0 := by
        intro zero
        simp [zero] at last
      have smaller : (i.tdiv table.base).natAbs < i.natAbs := by
        rw [quotient]
        exact Nat.div_lt_self (Nat.pos_of_ne_zero positive) table.base_gt
      have later := ih _ smaller glyphs.tdiv (mem.set p (glyph (i.natAbs % table.base))) (p + 1)
        (by
          rw [quotient, List.length_set]
          simp only [if_neg last, List.length_cons] at room
          omega) rfl
      rw [if_pos more, if_neg last, later, quotient, List.map_cons, List.length_cons, store]
      congr 2
      omega

/-! ### The text -/

def decimalDigit (d : Nat) : Byte := UInt8.ofNat (48 + d)

def hexDigit (d : Nat) : Byte := UInt8.ofNat (if d < 10 then 48 + d else 55 + d)

def sign (value : Int) : List Byte := if value < 0 then ['-'.toUInt8] else []

def decimalText (value : Int) : List Byte := sign value ++ (places 10 value.natAbs).reverse.map decimalDigit

def hexText (value : Nat) : List Byte := (places 16 value).reverse.map hexDigit

theorem digits_shows (i : Int) : digits.Shows decimalDigit i := by
  have table : ∀ d : Nat, d < 10 →
      digits.char? d = some (decimalDigit d) ∧ digits.char? (-d) = some (decimalDigit d) := by
    decide
  intro d less
  exact ⟨(table d less).1, fun _ => (table d less).2⟩

theorem digitsHex_shows (i : Nat) : digitsHex.Shows hexDigit i := by
  have table : ∀ d : Nat, d < 16 → digitsHex.char? d = some (hexDigit d) := by decide
  intro d less
  exact ⟨table d less, fun negative => absurd negative (by omega)⟩

/-- The next byte behind those stored from `buf` on. -/
theorem put_store {mem : List Byte} {buf : Nat} {text : List Byte} (room : buf + text.length < mem.length)
    (c : Byte) : put (store mem buf text) (buf + text.length) c = .ok (store mem buf (text ++ [c])) := by
  rw [put_eq (by rw [store_length]; exact room), store_append]
  rfl

theorem reverse_store {mem : List Byte} {buf : Nat} {text rest : List Byte}
    (room : buf + (text ++ rest).length ≤ mem.length) :
    reverse (store mem buf (text ++ rest)) buf (buf + text.length) = store mem buf (text.reverse ++ rest) := by
  rw [reverse, slice_store_append mem buf text rest room,
    store_store mem buf text text.reverse rest List.length_reverse room]

/-- The NUL and the reversal at the end of both functions. -/
theorem finish_eq (mem : List Byte) (buf : Nat) (text : List Byte) (room : buf + text.length < mem.length) :
    (do
      let mem ← put (store mem buf text) (buf + text.length) 0
      return (reverse mem buf (buf + text.length), buf + text.length - buf) : Comp TextFault (List Byte × Nat)) =
      .ok (store mem buf (text.reverse ++ [0]), text.length) := by
  rw [put_store room]
  change Except.ok (_, _) = _
  rw [reverse_store (by simp; omega), Nat.add_sub_cancel_left]

theorem decimalText_eq (value : Int) :
    decimalText value = ((places 10 value.natAbs).map decimalDigit ++ sign value).reverse := by
  have single : (sign value).reverse = sign value := by
    unfold sign
    split <;> rfl
  rw [decimalText, List.reverse_append, single, List.map_reverse]

theorem convert_eq {mem : List Byte} {buf : Nat} {value : Int}
    (room : buf + (decimalText value).length < mem.length) :
    convert mem buf value = .ok (store mem buf (decimalText value ++ [0]), (decimalText value).length) := by
  rw [decimalText_eq, List.length_reverse] at room ⊢
  have loop : convertLoop digits mem buf value =
      .ok (store mem buf ((places 10 value.natAbs).map decimalDigit),
        buf + ((places 10 value.natAbs).map decimalDigit).length) := by
    simp only [List.length_append, List.length_map] at room ⊢
    exact convertLoop_eq (digits_shows value) mem buf (by simp only [digits]; omega)
  have finish := finish_eq mem buf ((places 10 value.natAbs).map decimalDigit ++ sign value) room
  rw [convert, loop]
  -- with the sign there is one byte more to put before the NUL
  by_cases negative : value < 0
  · rw [sign, if_pos negative] at room finish ⊢
    change ite (value < 0) _ _ = _
    rw [List.length_append, List.length_singleton] at room
    rw [if_pos negative, put_store (by omega)]
    rw [List.length_append, List.length_singleton] at finish ⊢
    exact finish
  · rw [sign, if_neg negative, List.append_nil] at finish ⊢
    change ite (value < 0) _ _ = _
    rw [if_neg negative]
    exact finish

theorem convertHex_eq {mem : List Byte} {buf : Nat} {value : Nat}
    (room : buf + (hexText value).length < mem.length) :
    convertHex mem buf value = .ok (store mem buf (hexText value ++ [0]), (hexText value).length) := by
  rw [hexText, List.map_reverse, List.length_reverse] at room ⊢
  have loop : convertLoop digitsHex mem buf value =
      .ok (store mem buf ((places 16 value).map hexDigit), buf + ((places 16 value).map hexDigit).length) := by
    rw [List.length_map] at room ⊢
    exact convertLoop_eq (digitsHex_shows value) mem buf (Nat.le_of_lt room)
  rw [convertHex, loop]
  exact finish_eq mem buf _ room

/-! ### Reading the text -/

/-- The text is a `-` for a negative value, and the digits of a numeral. -/
def IsDecimal (value : Int) (text : List Byte) : Prop :=
  ∃ ds, IsNumeral 10 value.natAbs ds ∧ text = sign value ++ ds.map decimalDigit

def IsUpperHex (value : Nat) (text : List Byte) : Prop := ∃ ds, IsNumeral 16 value ds ∧ text = ds.map hexDigit

def parseDecimal (text : List Byte) : Int :=
  let digits (text : List Byte) : Nat := read 10 (text.map fun c => c.toNat - 48)
  if text.head? = some '-'.toUInt8 then -digits text.tail else digits text

def parseHex (text : List Byte) : Nat :=
  read 16 (text.map fun c => if c.toNat < 58 then c.toNat - 48 else c.toNat - 55)

theorem IsDecimal.parse {value : Int} {text : List Byte} (decimal : IsDecimal value text) :
    parseDecimal text = value := by
  obtain ⟨ds, numeral, rfl⟩ := decimal
  have known : ∀ d < 10, (decimalDigit d).toNat - 48 = d := by decide
  have digits : (ds.map decimalDigit).map (fun c => c.toNat - 48) = ds := map_value_glyph known numeral.small
  by_cases negative : value < 0
  · rw [sign, if_pos negative, parseDecimal]
    simp only [List.singleton_append, List.head?_cons, List.tail_cons, if_true, digits, numeral.read_eq]
    omega
  · -- a digit is not taken for the sign
    have unsigned : (ds.map decimalDigit).head? ≠ some '-'.toUInt8 := by
      have other : ∀ d < 10, decimalDigit d ≠ '-'.toUInt8 := by decide
      obtain ⟨d, rest, rfl⟩ := List.exists_cons_of_ne_nil numeral.nonempty
      intro same
      exact other d (numeral.small d List.mem_cons_self) (Option.some.inj same)
    rw [sign, if_neg negative, List.nil_append, parseDecimal]
    simp only [if_neg unsigned, digits, numeral.read_eq]
    omega

theorem IsUpperHex.parse {value : Nat} {text : List Byte} (hex : IsUpperHex value text) :
    parseHex text = value := by
  obtain ⟨ds, numeral, rfl⟩ := hex
  have known : ∀ d < 16,
      (if (hexDigit d).toNat < 58 then (hexDigit d).toNat - 48 else (hexDigit d).toNat - 55) = d := by
    decide
  rw [parseHex, map_value_glyph known numeral.small, numeral.read_eq]

theorem isDecimal_decimalText (value : Int) : IsDecimal value (decimalText value) :=
  ⟨_, isNumeral_places (by decide) _, rfl⟩

theorem isUpperHex_hexText (value : Nat) : IsUpperHex value (hexText value) :=
  ⟨_, isNumeral_places (by decide) _, rfl⟩

/-- The bounds for a text of 20 characters, the sign included. -/
structure InRange (value : Int) : Prop where
  low : -10 ^ 19 < value
  high : value < 10 ^ 20

/-- The values of all integer types of the source lie between them. -/
theorem inRange_toInt {w : Nat} (narrow : w ≤ 64) (v : BitVec w) : InRange v.toInt := by
  have width : (2 : Int) ^ w ≤ 2 ^ 64 := pow_le_pow_right₀ (by decide) narrow
  have low := v.le_two_mul_toInt
  have high := v.two_mul_toInt_lt
  constructor
  · omega
  · omega

theorem inRange_toNat {w : Nat} (narrow : w ≤ 64) (v : BitVec w) : InRange v.toNat := by
  have width : (2 : Nat) ^ w ≤ 2 ^ 64 := Nat.pow_le_pow_right (by decide) narrow
  have high := v.isLt
  constructor
  · omega
  · omega

theorem length_decimalText_le {value : Int} (range : InRange value) : (decimalText value).length ≤ 20 := by
  obtain ⟨low, high⟩ := range
  rw [decimalText, sign, List.length_append, List.length_map, List.length_reverse]
  split
  next negative =>
    have digits : (places 10 value.natAbs).length ≤ 19 := length_places_le (by decide) (by decide) (by omega)
    rw [List.length_singleton]
    omega
  next positive =>
    have digits : (places 10 value.natAbs).length ≤ 20 := length_places_le (by decide) (by decide) (by omega)
    rw [List.length_nil]
    omega

theorem length_hexText_le {value : Nat} (small : value < 2 ^ 64) : (hexText value).length ≤ 16 := by
  rw [hexText, List.length_map, List.length_reverse]
  exact length_places_le (by decide) (by decide) (by omega)

/-- Wherever there is room, the call stores one text with a NUL behind it and nothing else, and returns
the length of the text. -/
def Writes (call : List Byte → Nat → Comp TextFault (List Byte × Nat)) (limit : Nat) (Is : List Byte → Prop) :
    Prop :=
  ∃ text, Is text ∧ text.length ≤ limit ∧ ∀ mem buf, buf + text.length < mem.length →
    call mem buf = .ok (store mem buf (text ++ [0]), text.length)

theorem convert_writes {value : Int} (range : InRange value) :
    Writes (fun mem buf => convert mem buf value) 20
      (fun text => IsDecimal value text ∧ parseDecimal text = value) :=
  ⟨decimalText value, ⟨isDecimal_decimalText value, (isDecimal_decimalText value).parse⟩,
    length_decimalText_le range, fun _ _ room => convert_eq room⟩

/-- For every value of the four types `Convert` writes the canonical decimal text, at most 20 characters,
and `ConvertHex` the canonical hexadecimal text, at most 16; the texts read back as the values. The
indices into the tables are inside. -/
theorem integers_formatted :
    (∀ v : Int32, Writes (fun mem buf => convert mem buf v.toInt) 20
      (fun text => IsDecimal v.toInt text ∧ parseDecimal text = v.toInt)) ∧
    (∀ v : UInt32, Writes (fun mem buf => convert mem buf v.toNat) 20
      (fun text => IsDecimal v.toNat text ∧ parseDecimal text = v.toNat)) ∧
    (∀ v : Int64, Writes (fun mem buf => convert mem buf v.toInt) 20
      (fun text => IsDecimal v.toInt text ∧ parseDecimal text = v.toInt)) ∧
    (∀ v : UInt64, Writes (fun mem buf => convert mem buf v.toNat) 20
      (fun text => IsDecimal v.toNat text ∧ parseDecimal text = v.toNat)) ∧
    (∀ v : UInt64, Writes (fun mem buf => convertHex mem buf v.toNat) 16
      (fun text => IsUpperHex v.toNat text ∧ parseHex text = v.toNat)) := by
  refine ⟨fun v => ?_, fun v => ?_, fun v => ?_, fun v => ?_, fun v => ?_⟩
  · exact convert_writes (inRange_toInt (by decide) v.toBitVec)
  · exact convert_writes (inRange_toNat (by decide) v.toBitVec)
  · exact convert_writes (inRange_toInt (by decide) v.toBitVec)
  · exact convert_writes (inRange_toNat (by decide) v.toBitVec)
  · exact ⟨hexText v.toNat, ⟨isUpperHex_hexText _, (isUpperHex_hexText _).parse⟩,
      length_hexText_le v.toNat_lt, fun _ _ room => convertHex_eq room⟩

example : decimalText (-9223372036854775808) =
    ['-', '9', '2', '2', '3', '3', '7', '2', '0', '3', '6', '8', '5', '4', '7', '7', '5', '8', '0', '8'].map
      Char.toUInt8 := by
  decide +kernel

end Rnet.Log
