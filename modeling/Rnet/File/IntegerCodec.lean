import Rnet.Lib.ByteOrder
import Rnet.File.BufferRefinement

/-!
# Integers in a connection buffer

`AppendIntN`, `PeekIntN`, `ReadIntN` and `PrependIntN` of `rnet::file::Buffer`, and the
conversions of `network/Endian.h` they go through. A signed number becomes an unsigned one, is
converted to network order, is taken for a signed one again and is copied byte by byte; reading
goes the same way back. The host may have either byte order.

What the fields of a message are, in the buffer, is `encode`.
-/
namespace Rnet.Network

open ByteOrder

variable (host : Host)

def hostToNetwork64 (x : BitVec (8 * 8)) : BitVec (8 * 8) := host.htobe x
def hostToNetwork32 (x : BitVec (8 * 4)) : BitVec (8 * 4) := host.htobe x
def hostToNetwork16 (x : BitVec (8 * 2)) : BitVec (8 * 2) := host.htobe x
def networkToHost64 (x : BitVec (8 * 8)) : BitVec (8 * 8) := host.betoh x
def networkToHost32 (x : BitVec (8 * 4)) : BitVec (8 * 4) := host.betoh x
def networkToHost16 (x : BitVec (8 * 2)) : BitVec (8 * 2) := host.betoh x

end Rnet.Network

namespace Rnet.File

open Check Memory Run ByteOrder Rnet.Network

inductive IntWidth where
  | int8
  | int16
  | int32
  | int64
  deriving DecidableEq, Repr

/-- `sizeof` of the type. -/
def IntWidth.bytes : IntWidth → Nat
  | .int8 => 1
  | .int16 => 2
  | .int32 => 4
  | .int64 => 8

inductive CodecAssert where
  | buffer (a : BufferAssert)
  /-- The `assert(ReadableBytes() >= sizeof ..)` of `PeekIntN`. -/
  | peek (width : IntWidth)
  deriving DecidableEq, Repr

namespace Buffer

variable (host : Host) (b : Buffer)

/-- The bytes of a signed number of `n` bytes in memory. -/
def object (n : Nat) (x : Int) : List Byte := host.store (BitVec.ofInt (8 * n) x)

/-- The signed number that `memcpy` finds in `bytes`. -/
def objectValue (n : Nat) (bytes : List Byte) : Int := (host.load n bytes).toInt

/-- `AppendIntN` with its conversion to network order. -/
def appendConverted {n : Nat} (hostToNetwork : BitVec (8 * n) → BitVec (8 * n)) (x : Int) :
    Comp CodecAssert Buffer :=
  let be := (hostToNetwork (BitVec.ofInt (8 * n) x)).toInt
  lift .buffer (b.append (object host n be))

def appendInt64 : Int → Comp CodecAssert Buffer := b.appendConverted host (hostToNetwork64 host)
def appendInt32 : Int → Comp CodecAssert Buffer := b.appendConverted host (hostToNetwork32 host)
def appendInt16 : Int → Comp CodecAssert Buffer := b.appendConverted host (hostToNetwork16 host)

/-- A byte is not converted. -/
def appendInt8 (x : Int) : Comp CodecAssert Buffer := lift .buffer (b.append (object host 1 x))

/-- `PeekIntN` with its conversion to host order. -/
def peekConverted {n : Nat} (width : IntWidth) (networkToHost : BitVec (8 * n) → BitVec (8 * n)) :
    Comp CodecAssert Int := do
  ensure (.peek width) (n ≤ b.readableBytes)
  let be := objectValue host n (slice b.buffer b.peek (b.peek + n))
  return (networkToHost (BitVec.ofInt (8 * n) be)).toInt

def peekInt64 : Comp CodecAssert Int := b.peekConverted host .int64 (networkToHost64 host)
def peekInt32 : Comp CodecAssert Int := b.peekConverted host .int32 (networkToHost32 host)
def peekInt16 : Comp CodecAssert Int := b.peekConverted host .int16 (networkToHost16 host)

def peekInt8 : Comp CodecAssert Int := do
  ensure (.peek .int8) (1 ≤ b.readableBytes)
  return objectValue host 1 (slice b.buffer b.peek (b.peek + 1))

def retrieveInt64 : Comp BufferAssert Buffer := b.retrieve 8
def retrieveInt32 : Comp BufferAssert Buffer := b.retrieve 4
def retrieveInt16 : Comp BufferAssert Buffer := b.retrieve 2
def retrieveInt8 : Comp BufferAssert Buffer := b.retrieve 1

/-- `ReadIntN`: the number that is peeked, then the retrieval of its bytes. -/
def readThen (peeked : Comp CodecAssert Int) (retrieved : Comp BufferAssert Buffer) :
    Comp CodecAssert (Buffer × Int) := do
  let result ← peeked
  let rest ← lift .buffer retrieved
  return (rest, result)

def readInt64 : Comp CodecAssert (Buffer × Int) := readThen (b.peekInt64 host) b.retrieveInt64
def readInt32 : Comp CodecAssert (Buffer × Int) := readThen (b.peekInt32 host) b.retrieveInt32
def readInt16 : Comp CodecAssert (Buffer × Int) := readThen (b.peekInt16 host) b.retrieveInt16
def readInt8 : Comp CodecAssert (Buffer × Int) := readThen (b.peekInt8 host) b.retrieveInt8

/-- `PrependIntN` with its conversion to network order. -/
def prependConverted {n : Nat} (hostToNetwork : BitVec (8 * n) → BitVec (8 * n)) (x : Int) :
    Comp CodecAssert Buffer :=
  let be := (hostToNetwork (BitVec.ofInt (8 * n) x)).toInt
  lift .buffer (b.prepend (object host n be))

def prependInt64 : Int → Comp CodecAssert Buffer := b.prependConverted host (hostToNetwork64 host)
def prependInt32 : Int → Comp CodecAssert Buffer := b.prependConverted host (hostToNetwork32 host)
def prependInt16 : Int → Comp CodecAssert Buffer := b.prependConverted host (hostToNetwork16 host)
def prependInt8 (x : Int) : Comp CodecAssert Buffer := lift .buffer (b.prepend (object host 1 x))

/-! ### Fields of a message -/

def appendInt : IntWidth → Int → Comp CodecAssert Buffer
  | .int8 => b.appendInt8 host
  | .int16 => b.appendInt16 host
  | .int32 => b.appendInt32 host
  | .int64 => b.appendInt64 host

def peekInt : IntWidth → Comp CodecAssert Int
  | .int8 => b.peekInt8 host
  | .int16 => b.peekInt16 host
  | .int32 => b.peekInt32 host
  | .int64 => b.peekInt64 host

def readInt : IntWidth → Comp CodecAssert (Buffer × Int)
  | .int8 => b.readInt8 host
  | .int16 => b.readInt16 host
  | .int32 => b.readInt32 host
  | .int64 => b.readInt64 host

def prependInt : IntWidth → Int → Comp CodecAssert Buffer
  | .int8 => b.prependInt8 host
  | .int16 => b.prependInt16 host
  | .int32 => b.prependInt32 host
  | .int64 => b.prependInt64 host

end Buffer

/-- A field of a message: any value of its type. -/
structure IntField where
  width : IntWidth
  value : Int
  fits : Fits width.bytes value

namespace Buffer

variable (host : Host)

/-- One `AppendIntN` a field. -/
def appendFields (b : Buffer) : List IntField → Comp CodecAssert Buffer
  | [] => return b
  | f :: fields => do
    let longer ← b.appendInt host f.width f.value
    appendFields longer fields

/-- One `ReadIntN` a width. -/
def readFields (b : Buffer) : List IntWidth → Comp CodecAssert (Buffer × List Int)
  | [] => return (b, [])
  | w :: widths => do
    let (rest, x) ← b.readInt host w
    let (last, xs) ← readFields rest widths
    return (last, x :: xs)

end Buffer

/-- The two's-complement bytes of a field, the most significant one first. -/
def IntField.bytes (f : IntField) : List Byte := Host.bigEndian.store (BitVec.ofInt (8 * f.width.bytes) f.value)

def encode (fields : List IntField) : List Byte := fields.flatMap IntField.bytes

/-- The number such bytes stand for. -/
def decode (w : IntWidth) (bytes : List Byte) : Int := (Host.bigEndian.load w.bytes bytes).toInt

@[simp] theorem IntField.length_bytes (f : IntField) : f.bytes.length = f.width.bytes :=
  Host.length_store Host.bigEndian _

theorem decode_bytes (f : IntField) : decode f.width f.bytes = f.value := by
  rw [decode, IntField.bytes, Host.load_store, toInt_ofInt f.fits]

namespace Buffer

variable (host : Host) {b : Buffer} {content : List Byte}

/-- The converted number lies in memory in network order, although it was a signed one in
between. -/
theorem object_htobe {n : Nat} (x : BitVec (8 * n)) :
    object host n (host.htobe x).toInt = Host.bigEndian.store x := by
  rw [object, BitVec.ofInt_toInt, Host.store_htobe]

theorem betoh_objectValue {n : Nat} {bytes : List Byte} (length : bytes.length = n) :
    host.betoh (BitVec.ofInt (8 * n) (objectValue host n bytes)) = Host.bigEndian.load n bytes := by
  rw [objectValue, BitVec.ofInt_toInt, Host.betoh_load host length]

theorem appendConverted_eq (b : Buffer) {n : Nat} (x : Int) :
    b.appendConverted host (host.htobe (n := n)) x =
      lift .buffer (b.append (Host.bigEndian.store (BitVec.ofInt (8 * n) x))) := by
  simp only [appendConverted, object_htobe]

theorem prependConverted_eq (b : Buffer) {n : Nat} (x : Int) :
    b.prependConverted host (host.htobe (n := n)) x =
      lift .buffer (b.prepend (Host.bigEndian.store (BitVec.ofInt (8 * n) x))) := by
  simp only [prependConverted, object_htobe]

theorem appendInt_eq (b : Buffer) (f : IntField) :
    b.appendInt host f.width f.value = lift .buffer (b.append f.bytes) := by
  obtain ⟨width, value, fits⟩ := f
  cases width with
  | int8 =>
    simp only [appendInt, appendInt8, object, Host.store_byte host]
    rfl
  | int16 | int32 | int64 => exact appendConverted_eq host b value

theorem prependInt_eq (b : Buffer) (f : IntField) :
    b.prependInt host f.width f.value = lift .buffer (b.prepend f.bytes) := by
  obtain ⟨width, value, fits⟩ := f
  cases width with
  | int8 =>
    simp only [prependInt, prependInt8, object, Host.store_byte host]
    rfl
  | int16 | int32 | int64 => exact prependConverted_eq host b value

/-- The bytes `PeekIntN` copies are the first of the content. -/
theorem slice_peek (r : b.Represents content) {n : Nat} (enough : n ≤ b.readableBytes) :
    slice b.buffer b.peek (b.peek + n) = content.take n := by
  have order := r.order
  simp only [readableBytes] at enough
  rw [← r.content_eq, readable, peek, slice_take _ _ _ _ (by omega)]

theorem length_take (r : b.Represents content) {n : Nat} (enough : n ≤ b.readableBytes) :
    (content.take n).length = n := by
  rw [List.length_take, r.length, Nat.min_eq_left enough]

theorem peekConverted_eq (r : b.Represents content) {n : Nat} (enough : n ≤ b.readableBytes) (w : IntWidth) :
    b.peekConverted host w (host.betoh (n := n)) = .ok (Host.bigEndian.load n (content.take n)).toInt := by
  apply Returns.eq_ok
  simp only [peekConverted, returns_bind, returns_ensure, returns_pure, slice_peek r enough,
    betoh_objectValue host (length_take r enough)]
  exact ⟨enough, trivial⟩

theorem peekInt8_eq (r : b.Represents content) (enough : 1 ≤ b.readableBytes) :
    b.peekInt8 host = .ok (Host.bigEndian.load 1 (content.take 1)).toInt := by
  apply Returns.eq_ok
  simp only [peekInt8, returns_bind, returns_ensure, returns_pure, slice_peek r enough, objectValue,
    Host.load_byte host (length_take r enough)]
  exact ⟨enough, trivial⟩

theorem peekInt_eq (r : b.Represents content) (w : IntWidth) (enough : w.bytes ≤ b.readableBytes) :
    b.peekInt host w = .ok (decode w (content.take w.bytes)) := by
  cases w with
  | int8 => exact peekInt8_eq host r enough
  | int16 => exact peekConverted_eq host r enough .int16
  | int32 => exact peekConverted_eq host r enough .int32
  | int64 => exact peekConverted_eq host r enough .int64

theorem readInt_peekInt (b : Buffer) (w : IntWidth) :
    b.readInt host w = readThen (b.peekInt host w) (b.retrieve w.bytes) := by
  cases w <;> rfl

/-- `ReadIntN` returns what `PeekIntN` returns and takes its bytes away. -/
theorem readInt_returns (r : b.Represents content) (w : IntWidth) (enough : w.bytes ≤ b.readableBytes) :
    Returns (fun res => res.1.Represents (content.drop w.bytes) ∧ res.2 = decode w (content.take w.bytes))
      (b.readInt host w) := by
  rw [readInt_peekInt, peekInt_eq host r w enough]
  simp only [readThen, returns_bind, returns_ok, returns_lift, returns_pure]
  exact (retrieve_returns r w.bytes enough).mono fun _ spec => ⟨spec.1, trivial⟩

/-- Where the content begins with the bytes of a field, `ReadIntN` returns its value. -/
theorem readInt_field {f : IntField} {rest : List Byte} (r : b.Represents (f.bytes ++ rest)) :
    Returns (fun res => res.1.Represents rest ∧ res.2 = f.value) (b.readInt host f.width) := by
  have enough : f.width.bytes ≤ b.readableBytes := by
    rw [← r.length, List.length_append, f.length_bytes]
    exact Nat.le_add_right _ _
  have front : (f.bytes ++ rest).take f.width.bytes = f.bytes := List.take_left' f.length_bytes
  have back : (f.bytes ++ rest).drop f.width.bytes = rest := List.drop_left' f.length_bytes
  have read := readInt_returns host r f.width enough
  rw [front, back, decode_bytes] at read
  exact read

theorem appendFields_returns (fields : List IntField) (r : b.Represents content) :
    Returns (fun after => after.Represents (content ++ encode fields) ∧ KeepsCheap b after)
      (b.appendFields host fields) := by
  induction fields generalizing b content with
  | nil =>
    simp only [appendFields, encode, List.flatMap_nil, List.append_nil, returns_pure]
    exact ⟨r, id⟩
  | cons f fields ih =>
    simp only [appendFields, appendInt_eq, returns_bind, returns_lift]
    refine (append_returns r f.bytes).mono fun longer spec => (ih spec.1).mono fun after rest => ?_
    have appended := rest.1
    rw [List.append_assoc] at appended
    exact ⟨appended, fun kept => rest.2 (spec.2 kept)⟩

theorem readFields_returns (fields : List IntField) {rest : List Byte}
    (r : b.Represents (encode fields ++ rest)) :
    Returns (fun res => res.1.Represents rest ∧ res.2 = fields.map IntField.value)
      (b.readFields host (fields.map IntField.width)) := by
  induction fields generalizing b with
  | nil => exact ⟨r, rfl⟩
  | cons f fields ih =>
    -- the first field is at the front, the others follow it
    have first : b.Represents (f.bytes ++ (encode fields ++ rest)) := by
      rw [← List.append_assoc]
      exact r
    simp only [List.map_cons, readFields]
    refine (readInt_field host first).bind fun read spec => (ih spec.1).bind fun last others => ?_
    exact ⟨others.1, by rw [spec.2, others.2]⟩

theorem prependInt_returns (f : IntField) (r : b.Represents content)
    (room : kCheapPrepend ≤ b.prependableBytes) :
    Returns (fun after => after.Represents (f.bytes ++ content)) (b.prependInt host f.width f.value) := by
  have fits : f.bytes.length ≤ b.prependableBytes := by
    rw [f.length_bytes]
    apply Nat.le_trans _ room
    cases f.width <;> decide
  rw [prependInt_eq, returns_lift]
  exact prepend_returns r f.bytes fits

end Buffer

/-- In a buffer reached by operations without a prepend: appending fields adds exactly their
big-endian bytes, and once the operations that follow have left these bytes at the front, reading
the same widths returns the values and takes just these bytes away. What `PeekIntN` returns is what
`ReadIntN` would return. One `PrependIntN` is legal, and is read back first. -/
theorem codec_round_trip (host : Host) (initialSize : Nat) (ops : List BufferOp)
    (allowed : ∀ b, Buffer.new initialSize = .ok b →
      Meets Session.step (fun s op => op.Allowed s) ⟨b, []⟩ ops)
    (noPrepend : ops.any BufferOp.isPrepend = false) (fields : List IntField) :
    Returns (fun s =>
      Returns (fun b => b.readable = s.buffer.readable ++ encode fields ∧
        ∀ later rest, Meets Session.step (fun s op => op.Allowed s) ⟨b, s.taken⟩ later →
          (later.foldl Text.step ⟨b.readable, s.taken, false⟩).content = encode fields ++ rest →
          Returns (fun u =>
            Returns (fun r => r.2 = fields.map IntField.value ∧ r.1.readable = rest)
              (u.buffer.readFields host (fields.map IntField.width)))
            (exec Session.step ⟨b, s.taken⟩ later))
        (s.buffer.appendFields host fields) ∧
      (∀ w : IntWidth, w.bytes ≤ s.buffer.readableBytes →
        ∃ x rest, s.buffer.peekInt host w = .ok x ∧ s.buffer.readInt host w = .ok (rest, x)) ∧
      ∀ f : IntField,
        Returns (fun b => b.readable = f.bytes ++ s.buffer.readable ∧
          Returns (fun r => r.2 = f.value ∧ r.1.readable = s.buffer.readable) (b.readInt host f.width))
          (s.buffer.prependInt host f.width f.value))
      (session initialSize ops) := by
  refine (session_simulates initialSize ops allowed).mono ?_
  intro s sim
  have reached : s.buffer.Represents s.buffer.readable := sim.represents.toWf.represents
  refine ⟨?_, fun w enough => ?_, fun f => ?_⟩
  · refine (Buffer.appendFields_returns host fields reached).mono fun b ⟨appended, kept⟩ => ?_
    refine ⟨appended.content_eq, fun later rest permitted front => ?_⟩
    have start : Simulates ⟨b, s.taken⟩ ⟨b.readable, s.taken, false⟩ :=
      ⟨appended.toWf.represents, rfl, fun _ => kept (sim.room noPrepend)⟩
    refine (exec_refines step_simulates _ _ later start permitted).mono fun u after => ?_
    have front : u.buffer.Represents (encode fields ++ rest) := front ▸ after.represents
    exact (Buffer.readFields_returns host fields front).mono fun r read => ⟨read.2, read.1.content_eq⟩
  · have peeked := Buffer.peekInt_eq host reached w enough
    obtain ⟨⟨after, x⟩, read, _, same⟩ := (Buffer.readInt_returns host reached w enough).exists
    obtain rfl : x = decode w (s.buffer.readable.take w.bytes) := same
    exact ⟨_, after, peeked, read⟩
  · refine (Buffer.prependInt_returns host f reached (sim.room noPrepend)).mono fun b prepended => ?_
    refine ⟨prepended.content_eq, (Buffer.readInt_field host prepended).mono fun r read => ?_⟩
    exact ⟨read.2, read.1.content_eq⟩

/-- One field of each width, three of them negative. -/
def mixedFields : List IntField :=
  [⟨.int16, -2, by decide⟩, ⟨.int32, 70000, by decide⟩, ⟨.int8, -128, by decide⟩, ⟨.int64, -5, by decide⟩]

/-- The buffer grows when the fields are appended; the bytes before them are retrieved, and the
rest moves to the front when one more is appended. -/
theorem codec_round_trip_mixed :
    ∃ s b u r, session 4 [.append [1, 2, 3]] = .ok s ∧
      s.buffer.appendFields .littleEndian mixedFields = .ok b ∧
      b.readable = [1, 2, 3, 0xff, 0xfe, 0, 1, 0x11, 0x70, 0x80, 0xff, 0xff, 0xff, 0xff, 0xff, 0xff, 0xff, 0xfb] ∧
      exec Session.step ⟨b, s.taken⟩ [.retrieve 3, .append [9]] = .ok u ∧
      u.buffer.readFields .littleEndian [.int16, .int32, .int8, .int64] = .ok r ∧
      r.2 = [-2, 70000, -128, -5] ∧ r.1.readable = [9] := by
  have allowed : ∀ b, Buffer.new 4 = .ok b →
      Meets Session.step (fun s op => op.Allowed s) ⟨b, []⟩ [.append [1, 2, 3]] := by
    intro b constructed
    cases constructed
    decide
  obtain ⟨s, first, fields, _⟩ :=
    (codec_round_trip .littleEndian 4 [.append [1, 2, 3]] allowed rfl mixedFields).exists
  obtain ⟨b, second, content, later⟩ := fields.exists
  have start : s = ⟨⟨[0, 0, 0, 0, 0, 0, 0, 0, 1, 2, 3, 0], 8, 11⟩, []⟩ := by
    apply Except.ok.inj
    rw [← first]
    decide +kernel
  subst start
  have appended : b = ⟨[0, 0, 0, 0, 0, 0, 0, 0, 1, 2, 3, 0xff, 0xfe, 0, 1, 0x11, 0x70, 0x80, 0xff, 0xff, 0xff,
      0xff, 0xff, 0xff, 0xff, 0xfb], 8, 26⟩ := by
    apply Except.ok.inj
    rw [← second]
    decide +kernel
  subst appended
  obtain ⟨u, third, reads⟩ := (later [.retrieve 3, .append [9]] [9] (by decide) (by decide +kernel)).exists
  obtain ⟨r, fourth, values, rest⟩ := reads.exists
  exact ⟨_, _, u, r, first, second, by decide, third, fourth, values, rest⟩

end Rnet.File
