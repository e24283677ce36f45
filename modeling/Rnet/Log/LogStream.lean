import Rnet.Lib.Run
import Rnet.File.SizedBuffer
import Rnet.Log.IntegerText

/-!
# The log stream

`rnet::log::LogStream` over the array of its `SizedBuffer< kSmallSize >`. Texts are copied by `Append`,
which tests the room for them; numbers and pointers are written behind the cursor by `Convert`,
`ConvertHex` and `snprintf`, which do not test anything, after a test for `kMaxNumericSize` bytes. Both
ways are over the whole array here, so that a store outside of it is seen.
-/
namespace Rnet.Log

open Check Memory Rnet.File

/-- What `snprintf` has printed into `kMaxNumericSize` bytes, with room for the NUL. -/
structure NumericText where
  text : List Byte
  short : text.length < 48

/-- `data_` and `cur_` of the buffer. -/
structure LogStream where
  data : List Byte
  cur : Nat
  deriving DecidableEq, Repr

/-- The bytes behind a pointer. -/
abbrev Pointer := Nat → Byte

inductive Insertion where
  | bool (v : Bool)
  | char (v : Byte)
  /-- The bytes from the pointer on, if it is not null. -/
  | cString (str : Option (List Byte))
  | ucString (str : Option (List Byte))
  | string (v : List Byte)
  | stringView (v : List Byte)
  | int16 (v : Int16)
  | uint16 (v : UInt16)
  | int32 (v : Int32)
  | uint32 (v : UInt32)
  | int64 (v : Int64)
  | uint64 (v : UInt64)
  | pointer (p : UInt64)
  | float (v : Float32)
  | double (v : Float)
  /-- `operator<<( const Buffer& )`, which ignores its operand. -/
  | buffer
  | append (data : Pointer) (len : Int32)
  | resetBuffer

/-- A signed number as a `size_t`. -/
def toSize (i : Int) : Nat := (i % 2 ^ 64).toNat

/-- The characters of a literal, a string or a view. -/
def chars (text : List Byte) : Pointer := fun i => text.getD i 0

/-- `len` bytes from a pointer on. -/
def bytes (buf : Pointer) (len : Nat) : List Byte := (List.range len).map buf

/-- What `strlen` counts. -/
def untilNul (str : List Byte) : List Byte := str.takeWhile (· ≠ 0)

namespace LogStream

def kMaxNumericSize : Nat := 48

def new : LogStream := ⟨List.replicate kSmallSize 0, 0⟩

/-- `Length()`. -/
def length (s : LogStream) : Nat := s.cur

def avail (s : LogStream) : Int := kSmallSize - s.cur

/-- `Data()[0, Length())`. -/
def content (s : LogStream) : List Byte := s.data.take s.cur

/-- `SizedBuffer::Append`. -/
def append (s : LogStream) (buf : Pointer) (len : Nat) : Comp TextFault LogStream :=
  -- `implicit_cast< size_t >( Avail() ) > len`
  if len < toSize s.avail then do
    ensure .store (s.cur + len ≤ s.data.length)
    return ⟨store s.data s.cur (bytes buf len), s.cur + len⟩
  else
    return s

def appendText (s : LogStream) (text : List Byte) : Comp TextFault LogStream := s.append (chars text) text.length

def formatInteger (s : LogStream) (v : Int) : Comp TextFault LogStream :=
  if kMaxNumericSize ≤ s.avail then do
    let (data, len) ← convert s.data s.cur v
    return ⟨data, s.cur + len⟩
  else
    return s

def formatPointer (s : LogStream) (v : Nat) : Comp TextFault LogStream :=
  if kMaxNumericSize ≤ s.avail then do
    let data ← put s.data s.cur '0'.toUInt8
    let data ← put data (s.cur + 1) 'x'.toUInt8
    let (data, len) ← convertHex data (s.cur + 2) v
    return ⟨data, s.cur + (len + 2)⟩
  else
    return s

/-- `snprintf` stores the text and a NUL. -/
def formatDouble (s : LogStream) (printed : NumericText) : Comp TextFault LogStream :=
  if kMaxNumericSize ≤ s.avail then do
    ensure .store (s.cur + (printed.text.length + 1) ≤ s.data.length)
    return ⟨store s.data s.cur (printed.text ++ [0]), s.cur + printed.text.length⟩
  else
    return s

def insertCString (s : LogStream) : Option (List Byte) → Comp TextFault LogStream
  | some str => s.appendText (untilNul str)
  | none => s.appendText (['(', 'n', 'u', 'l', 'l', ')'].map Char.toUInt8)

/-- `format` is `snprintf( .., "%.12g", v )`. -/
def step (format : Float → NumericText) (s : LogStream) : Insertion → Comp TextFault LogStream
  | .bool v => s.appendText [if v then '1'.toUInt8 else '0'.toUInt8]
  | .char v => s.appendText [v]
  | .cString str | .ucString str => s.insertCString str
  | .string v | .stringView v => s.appendText v
  | .int16 v => s.formatInteger v.toInt
  | .uint16 v => s.formatInteger v.toNat
  | .int32 v => s.formatInteger v.toInt
  | .uint32 v => s.formatInteger v.toNat
  | .int64 v => s.formatInteger v.toInt
  | .uint64 v => s.formatInteger v.toNat
  | .pointer p => s.formatPointer p.toNat
  | .float v => s.formatDouble (format v.toFloat)
  | .double v => s.formatDouble (format v)
  | .buffer => return s
  | .append data len => s.append data (toSize len.toInt)
  | .resetBuffer => return { s with cur := 0 }

end LogStream

/-! ### What the stream is to hold -/

/-- The whole text of an operand, and the `Avail()` that its test asks for. -/
structure Operand where
  text : List Byte
  room : Nat

/-- `Avail() > length`. -/
def Operand.ofText (text : List Byte) : Operand := ⟨text, text.length + 1⟩

/-- `Avail() >= kMaxNumericSize`. -/
def Operand.ofNumber (text : List Byte) : Operand := ⟨text, 48⟩

def Operand.ofCString : Option (List Byte) → Operand
  | some str => .ofText (untilNul str)
  | none => .ofText (['(', 'n', 'u', 'l', 'l', ')'].map Char.toUInt8)

def hexMark : List Byte := ['0', 'x'].map Char.toUInt8

/-- Nothing is inserted by a reset, and nothing by a buffer. -/
def Insertion.operand? (format : Float → NumericText) : Insertion → Option Operand
  | .bool v => some (.ofText [if v then '1'.toUInt8 else '0'.toUInt8])
  | .char v => some (.ofText [v])
  | .cString str | .ucString str => some (.ofCString str)
  | .string v | .stringView v => some (.ofText v)
  | .int16 v => some (.ofNumber (decimalText v.toInt))
  | .uint16 v => some (.ofNumber (decimalText v.toNat))
  | .int32 v => some (.ofNumber (decimalText v.toInt))
  | .uint32 v => some (.ofNumber (decimalText v.toNat))
  | .int64 v => some (.ofNumber (decimalText v.toInt))
  | .uint64 v => some (.ofNumber (decimalText v.toNat))
  | .pointer p => some (.ofNumber (hexMark ++ hexText p.toNat))
  | .float v => some (.ofNumber (format v.toFloat).text)
  | .double v => some (.ofNumber (format v).text)
  | .append data len => some ⟨bytes data len.toInt.toNat, toSize len.toInt + 1⟩
  | .buffer | .resetBuffer => none

/-- The texts inserted since the last reset. -/
def insert (format : Float → NumericText) (texts : List (List Byte)) (op : Insertion) : List (List Byte) :=
  match op, op.operand? format with
  | .resetBuffer, _ => []
  | _, some operand =>
    if operand.room ≤ kSmallSize - texts.flatten.length then texts ++ [operand.text] else texts
  | _, none => texts

namespace LogStream

structure Holds (s : LogStream) (texts : List (List Byte)) : Prop where
  size : s.data.length = kSmallSize
  below : s.cur < kSmallSize
  content : s.content = texts.flatten

variable {s : LogStream} {texts : List (List Byte)}

theorem new_holds : new.Holds [] where
  size := List.length_replicate
  below := by decide
  content := rfl

theorem reset_holds (holds : s.Holds texts) : Holds { s with cur := 0 } [] where
  size := holds.size
  below := by
    show 0 < kSmallSize
    decide
  content := rfl

theorem Holds.cur_eq (holds : s.Holds texts) : s.cur = texts.flatten.length := by
  have below := holds.below
  rw [← holds.content, LogStream.content, List.length_take, holds.size]
  omega

theorem Holds.toSize_avail (holds : s.Holds texts) : toSize s.avail = kSmallSize - texts.flatten.length := by
  have below := holds.below
  rw [← holds.cur_eq, toSize, avail, kSmallSize] at *
  omega

/-- A text that was stored behind the cursor, with or without a NUL behind it. -/
theorem Holds.advance (holds : s.Holds texts) (text rest : List Byte)
    (fits : s.cur + (text ++ rest).length ≤ kSmallSize) (below : s.cur + text.length < kSmallSize) :
    Holds ⟨store s.data s.cur (text ++ rest), s.cur + text.length⟩ (texts ++ [text]) where
  size := by rw [store_length, holds.size]
  below := below
  content := by
    have inside : s.cur + (text ++ rest).length ≤ s.data.length := by rw [holds.size]; exact fits
    have before := holds.content
    rw [LogStream.content, ← slice_zero] at before ⊢
    rw [← slice_append _ 0 s.cur _ (Nat.zero_le _) (Nat.le_add_right _ _), slice_store_append _ _ _ _ inside,
      slice_store_of_disjoint _ _ _ _ _ inside (Or.inl (Nat.le_refl _)), before, List.flatten_append,
      List.flatten_singleton]

/-! ### Each way of writing -/

theorem bytes_chars (text : List Byte) : bytes (chars text) text.length = text := by
  apply List.ext_getElem?
  intro i
  rcases Nat.lt_or_ge i text.length with inside | outside
  · simp [bytes, chars, inside]
  · rw [List.getElem?_eq_none (by simpa [bytes] using outside), List.getElem?_eq_none outside]

@[simp] theorem length_bytes (buf : Pointer) (len : Nat) : (bytes buf len).length = len := by simp [bytes]

/-- The operand is appended whole where its test is passed, and left out otherwise. -/
def Inserts (texts : List (List Byte)) (operand : Operand) (call : Comp TextFault LogStream) : Prop :=
  Returns (fun after => after.Holds
    (if operand.room ≤ kSmallSize - texts.flatten.length then texts ++ [operand.text] else texts)) call

theorem append_inserts (holds : s.Holds texts) (buf : Pointer) (len : Nat) :
    Inserts texts ⟨bytes buf len, len + 1⟩ (s.append buf len) := by
  have cur := holds.cur_eq
  have size := holds.size
  rw [Inserts, append, holds.toSize_avail]
  by_cases room : len + 1 ≤ kSmallSize - texts.flatten.length
  · have less : len < kSmallSize - texts.flatten.length := room
    rw [if_pos room, if_pos less]
    simp only [returns_bind, returns_ensure, returns_pure]
    refine ⟨by omega, ?_⟩
    have advanced := holds.advance (bytes buf len) [] (by simp; omega) (by simp; omega)
    rw [List.append_nil, length_bytes] at advanced
    exact advanced
  · have more : ¬ len < kSmallSize - texts.flatten.length := room
    rw [if_neg room, if_neg more]
    exact holds

theorem appendText_inserts (holds : s.Holds texts) (text : List Byte) :
    Inserts texts (.ofText text) (s.appendText text) := by
  have inserts := append_inserts holds (chars text) text.length
  rw [bytes_chars] at inserts
  exact inserts

/-- Texts are appended to the array as `SizedBuffer.append` has it, which keeps the content only. -/
theorem appendText_sizedBuffer (holds : s.Holds texts) (b : SizedBuffer kSmallSize) (same : s.content = b.data)
    (text : List Byte) :
    Returns (fun after => after.content = (b.append text).data) (s.appendText text) := by
  have data : texts.flatten = b.data := holds.content.symm.trans same
  refine (appendText_inserts holds text).mono fun after kept => ?_
  have content := kept.content
  rw [data] at content
  by_cases room : text.length < b.avail
  · have enough : (Operand.ofText text).room ≤ kSmallSize - b.data.length := room
    rw [content, if_pos enough, b.append_data text room, List.flatten_append, List.flatten_singleton, data]
    rfl
  · have few : ¬ (Operand.ofText text).room ≤ kSmallSize - b.data.length := room
    rw [content, if_neg few, b.append_full text room, data]

theorem insertCString_inserts (holds : s.Holds texts) (str : Option (List Byte)) :
    Inserts texts (.ofCString str) (s.insertCString str) := by
  cases str with
  | none => exact appendText_inserts holds _
  | some str => exact appendText_inserts holds _

/-- A number of at most 47 characters, for whose writer there is room for 48. -/
theorem number_inserts (holds : s.Holds texts) (text : List Byte) (short : text.length < 48)
    (call : Comp TextFault LogStream)
    (writes : s.cur + 48 ≤ s.data.length →
      call = .ok ⟨store s.data s.cur (text ++ [0]), s.cur + text.length⟩) :
    Inserts texts (.ofNumber text) (if kMaxNumericSize ≤ s.avail then call else return s) := by
  have cur := holds.cur_eq
  have below := holds.below
  have size := holds.size
  -- `Avail()` is signed in the source and never negative
  have same : (kMaxNumericSize : Int) ≤ s.avail ↔ 48 ≤ kSmallSize - texts.flatten.length := by
    rw [avail, cur, kMaxNumericSize, kSmallSize] at *
    omega
  rw [Inserts, Operand.ofNumber]
  by_cases room : 48 ≤ kSmallSize - texts.flatten.length
  · rw [if_pos (same.mpr room), if_pos room, writes (by omega)]
    exact holds.advance text [0] (by simp; omega) (by omega)
  · rw [if_neg (mt same.mp room), if_neg room]
    exact holds

theorem formatInteger_inserts (holds : s.Holds texts) {v : Int} (range : InRange v) :
    Inserts texts (.ofNumber (decimalText v)) (s.formatInteger v) := by
  have length := length_decimalText_le range
  apply number_inserts holds _ (by omega)
  intro room
  rw [convert_eq (by omega)]
  rfl

theorem formatPointer_inserts (holds : s.Holds texts) {v : Nat} (small : v < 2 ^ 64) :
    Inserts texts (.ofNumber (hexMark ++ hexText v)) (s.formatPointer v) := by
  have length := length_hexText_le small
  have two : hexMark.length = 2 := rfl
  apply number_inserts holds _ (by rw [List.length_append]; omega)
  intro room
  have first : put s.data s.cur '0'.toUInt8 = .ok (store s.data s.cur ['0'.toUInt8]) := put_eq (by omega) _
  have second : put (store s.data s.cur ['0'.toUInt8]) (s.cur + 1) 'x'.toUInt8 = .ok (store s.data s.cur hexMark) :=
    put_store (by simp; omega) _
  have digits : convertHex (store s.data s.cur hexMark) (s.cur + 2) v =
      .ok (store s.data s.cur (hexMark ++ hexText v ++ [0]), (hexText v).length) := by
    rw [List.append_assoc, store_append _ _ hexMark]
    exact convertHex_eq (by rw [store_length]; omega)
  rw [first]
  change (put _ _ _ >>= _) = _
  rw [second]
  change (convertHex _ _ _ >>= _) = _
  rw [digits, List.length_append, two, Nat.add_comm 2]
  rfl

theorem formatDouble_inserts (holds : s.Holds texts) (printed : NumericText) :
    Inserts texts (.ofNumber printed.text) (s.formatDouble printed) := by
  have short := printed.short
  apply number_inserts holds _ short
  intro room
  rw [ensure, if_pos (by omega)]
  rfl

/-- A negative length is a very large one, and its operand is left out. -/
theorem appendInt_inserts (holds : s.Holds texts) (data : Pointer) (len : Int32) :
    Inserts texts ⟨bytes data len.toInt.toNat, toSize len.toInt + 1⟩ (s.append data (toSize len.toInt)) := by
  have inserts := append_inserts holds data (toSize len.toInt)
  have low := len.le_toInt
  have high := len.toInt_lt
  rw [Inserts] at inserts ⊢
  -- a length that passed the test was not negative
  by_cases room : toSize len.toInt + 1 ≤ kSmallSize - texts.flatten.length
  · have same : toSize len.toInt = len.toInt.toNat := by
      rw [kSmallSize] at room
      rw [toSize] at room ⊢
      omega
    rw [← same]
    exact inserts
  · rw [if_neg room] at inserts ⊢
    exact inserts

/-- Every insertion keeps the texts together. -/
theorem step_holds (format : Float → NumericText) (s : LogStream) (texts : List (List Byte)) (op : Insertion)
    (holds : s.Holds texts) : Returns (fun after => after.Holds (insert format texts op)) (s.step format op) := by
  cases op with
  | bool | char | string | stringView => exact appendText_inserts holds _
  | cString str | ucString str => exact insertCString_inserts holds str
  | int16 v | int32 v | int64 v => exact formatInteger_inserts holds (inRange_toInt (by decide) v.toBitVec)
  | uint16 v | uint32 v | uint64 v => exact formatInteger_inserts holds (inRange_toNat (by decide) v.toBitVec)
  | pointer p => exact formatPointer_inserts holds p.toNat_lt
  | float | double => exact formatDouble_inserts holds _
  | buffer => exact holds
  | append data len => exact appendInt_inserts holds data len
  | resetBuffer => exact reset_holds holds

/-- For every sequence of insertions and resets: no byte is stored outside the array, `Length()` stays
below its size, and what the stream holds is the texts that passed their test since the last reset, each
of them whole and one behind the other. -/
theorem stream_bounded (format : Float → NumericText) (ops : List Insertion) :
    Returns (fun s => s.length ≤ 4095 ∧ s.data.length = kSmallSize ∧
        s.avail = (kSmallSize : Int) - (ops.foldl (insert format) []).flatten.length ∧
        s.content = (ops.foldl (insert format) []).flatten)
      (Run.exec (step format) new ops) := by
  have allowed : Run.Meets (step format) (fun _ _ => True) new ops :=
    Run.meets_of_forall new ops fun _ _ _ => trivial
  have run := Run.exec_refines (fun s texts op holds _ => step_holds format s texts op holds) new [] ops new_holds
    allowed
  refine run.mono fun s holds => ?_
  refine ⟨Nat.le_of_lt_succ holds.below, holds.size, ?_, holds.content⟩
  rw [avail, holds.cur_eq]

end LogStream

end Rnet.Log
