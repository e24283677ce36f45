import Rnet.Lib.Unsigned
import Rnet.File.BufferRefinement

/-!
# The buffer with the sizes of the machine

`ConnBuffer` computes with natural numbers. Here are the functions that make room again, with
`size_t` as it is: sums and differences wrap around at `2 ^ 64`, and `vector::resize` throws for a
size that no vector of bytes can have. Where nothing wraps, they are those of `ConnBuffer` or throw.
-/
namespace Rnet.File

open Check Memory Unsigned

/-- How a call ends that may throw, and the buffer it leaves. -/
inductive Ending where
  | returned (b : Buffer)
  | thrown (b : Buffer)
  deriving DecidableEq, Repr

def Ending.buffer : Ending → Buffer
  | returned b | thrown b => b

inductive SizeFault where
  | assert (a : BufferAssert)
  /-- `std::copy` reads behind the bytes it is given. -/
  | copyReads
  /-- `std::copy` writes behind the vector. -/
  | copyWrites
  deriving DecidableEq, Repr

/-- A pointer into a vector and a length. -/
structure StringView where
  data : Nat
  size : Nat
  deriving DecidableEq, Repr

/-- The bytes a view of the vector `mem` stands for. -/
def StringView.text (str : StringView) (mem : List Byte) : List Byte := slice mem str.data (str.data + str.size)

namespace Buffer64

open Buffer (kCheapPrepend kInitialSize)

/-- `vector<char>::max_size()`. -/
def kMaxSize : Nat := 2 ^ 63 - 1

def readableBytes (b : Buffer) : Nat := sub 64 b.writerIndex b.readerIndex
def writableBytes (b : Buffer) : Nat := sub 64 b.buffer.length b.writerIndex
def prependableBytes (b : Buffer) : Nat := b.readerIndex

/-- `buffer_.resize( n )`, which also makes a vector smaller. -/
def resize (b : Buffer) (n : Nat) : Ending :=
  if kMaxSize < n then
    .thrown b
  else
    .returned { b with buffer := b.buffer.take n ++ List.replicate (n - b.buffer.length) 0 }

def makeSpace (b : Buffer) (len : Nat) : Comp BufferAssert Ending :=
  -- both sides of the test may have wrapped, and so may the new size
  if add 64 (writableBytes b) (prependableBytes b) < add 64 len kCheapPrepend then
    return resize b (add 64 b.writerIndex len)
  else do
    ensure .makeSpaceReader (kCheapPrepend < b.readerIndex)
    let readable := readableBytes b
    let moved : Buffer :=
      { buffer := copyForward b.buffer b.readerIndex kCheapPrepend readable
        readerIndex := kCheapPrepend
        writerIndex := add 64 kCheapPrepend readable }
    ensure .makeSpaceReadable (readable = readableBytes moved)
    return .returned moved

def ensureWritableBytes (b : Buffer) (len : Nat) : Comp BufferAssert Ending := do
  let made ← if writableBytes b < len then makeSpace b len else pure (.returned b)
  match made with
  | .thrown b => return .thrown b
  | .returned roomy =>
    -- the difference behind the assert wraps as well, where the vector ends before the writer index
    ensure .ensureWritableBytes (len ≤ writableBytes roomy)
    return .returned roomy

def hasWritten (b : Buffer) (len : Nat) : Comp BufferAssert Buffer := do
  ensure .hasWritten (len ≤ writableBytes b)
  return { b with writerIndex := add 64 b.writerIndex len }

/-- `static_cast< int >( ReadableBytes() )`, which the constructor of the view takes as a `size_t`. -/
def toStringView (b : Buffer) : StringView := ⟨b.peek, throughSigned 64 32 (readableBytes b)⟩

/-- `Append( str )` for a view of the vector `mem`. -/
def append (b : Buffer) (mem : List Byte) (str : StringView) : Comp SizeFault Ending := do
  match ← lift .assert (ensureWritableBytes b str.size) with
  | .thrown b => return .thrown b
  | .returned roomy =>
    ensure .copyReads (str.data + str.size ≤ mem.length)
    ensure .copyWrites (roomy.beginWrite + str.size ≤ roomy.buffer.length)
    let written := roomy.writeAtBeginWrite (str.text mem)
    let after ← lift .assert (hasWritten written str.size)
    return .returned after

/-- `other` is destroyed in the end, with the bytes that were in the buffer. -/
def shrink (b : Buffer) (reserve : Nat) : Comp SizeFault Ending := do
  let other ← lift .assert (Buffer.new kInitialSize)
  match ← lift .assert (ensureWritableBytes other (add 64 (readableBytes b) reserve)) with
  | .thrown _ => return .thrown b
  | .returned other =>
    -- `Append` makes room once more, for the length the view says
    match ← append other b.buffer (toStringView b) with
    | .thrown _ => return .thrown b
    | .returned other => return .returned (b.swap other).1

/-! ### Sizes that do not wrap -/

/-- What a buffer keeps whose vector is one. -/
structure Fits (b : Buffer) : Prop extends b.Wf where
  size : b.buffer.length ≤ kMaxSize

variable {b : Buffer} {len : Nat}

theorem Fits.lt (fits : Fits b) : b.buffer.length < 2 ^ 64 := Nat.lt_of_le_of_lt fits.size (by decide)

theorem Fits.readableBytes_eq (fits : Fits b) : readableBytes b = b.readableBytes :=
  sub_of_le (Nat.lt_of_le_of_lt fits.bound fits.lt) fits.order

theorem Fits.writableBytes_eq (fits : Fits b) : writableBytes b = b.writableBytes :=
  sub_of_le fits.lt fits.bound

/-- The room before and behind the content is less than the vector. -/
theorem Fits.room_eq (fits : Fits b) :
    add 64 (writableBytes b) (prependableBytes b) = b.writableBytes + b.prependableBytes := by
  have order := fits.order
  have bound := fits.bound
  have below := fits.lt
  rw [fits.writableBytes_eq]
  apply add_of_lt
  simp only [Buffer.writableBytes, prependableBytes]
  omega

/-- Where the sums of `MakeSpace` do not wrap, it throws or does what it does with natural numbers. -/
theorem makeSpace_eq (fits : Fits b) (short : b.writableBytes < len) (mark : len + kCheapPrepend < 2 ^ 64)
    (target : b.writerIndex + len < 2 ^ 64) :
    makeSpace b len = .ok (.thrown b) ∧ kMaxSize < b.writerIndex + len ∨
      makeSpace b len = b.makeSpace len >>= fun after => pure (.returned after) := by
  have order := fits.order
  have bound := fits.bound
  have below := fits.lt
  rw [makeSpace, Buffer.makeSpace, fits.room_eq, add_of_lt mark, add_of_lt target]
  by_cases grow : b.writableBytes + b.prependableBytes < len + kCheapPrepend
  · rw [if_pos grow, if_pos grow, resize]
    by_cases large : kMaxSize < b.writerIndex + len
    · rw [if_pos large]
      exact Or.inl ⟨rfl, large⟩
    · -- the vector grows, so none of its bytes is cut off
      simp only [Buffer.writableBytes] at short
      have whole : b.buffer.take (b.writerIndex + len) = b.buffer := List.take_of_length_le (by omega)
      rw [if_neg large, whole]
      exact Or.inr rfl
  · rw [if_neg grow, if_neg grow, fits.readableBytes_eq]
    have writer : add 64 kCheapPrepend b.readableBytes = kCheapPrepend + b.readableBytes := by
      apply add_of_lt
      simp only [Buffer.writableBytes, Buffer.prependableBytes, Buffer.readableBytes, kCheapPrepend] at *
      omega
    have readable : sub 64 (kCheapPrepend + b.readableBytes) kCheapPrepend =
        kCheapPrepend + b.readableBytes - kCheapPrepend := by
      apply sub_of_le _ (Nat.le_add_right _ _)
      simp only [Buffer.writableBytes, Buffer.prependableBytes, Buffer.readableBytes, kCheapPrepend] at *
      omega
    right
    simp only [readableBytes, writer, readable, bind_assoc, pure_bind]
    rfl

/-- A vector never gets smaller. -/
theorem makeSpace_length (b : Buffer) (len : Nat) :
    Yields (fun after => b.buffer.length ≤ after.buffer.length) (b.makeSpace len) := by
  unfold Buffer.makeSpace
  split
  · simp [Buffer.resize]
  · simp only [yields_bind, yields_ensure, yields_pure, copyForward_length]
    exact fun _ _ => Nat.le_refl _

/-- Nor larger than a vector can be, also where a sum has wrapped. -/
theorem makeSpace_size (size : b.buffer.length ≤ kMaxSize) (len : Nat) :
    Yields (fun made => made.buffer.buffer.length ≤ kMaxSize) (makeSpace b len) := by
  unfold makeSpace
  split
  · rw [yields_pure, resize]
    split
    · exact size
    next small =>
      simp only [Ending.buffer, List.length_append, List.length_take, List.length_replicate]
      omega
  · simp only [yields_bind, yields_ensure, yields_pure, Ending.buffer, copyForward_length]
    exact fun _ _ => size

/-- What the caller of `EnsureWritableBytes` relies on. -/
def Roomy (b : Buffer) (len : Nat) : Ending → Prop
  | .returned after =>
    after.readerIndex ≤ after.writerIndex ∧ after.writerIndex ≤ after.buffer.length ∧
      len ≤ after.buffer.length - after.writerIndex ∧ after.readable = b.readable ∧
      b.buffer.length ≤ after.buffer.length
  | .thrown after => after = b

theorem makeSpace_roomy (fits : Fits b) (short : b.writableBytes < len) (mark : len + kCheapPrepend < 2 ^ 64)
    (target : b.writerIndex + len < 2 ^ 64) : Returns (Roomy b len) (makeSpace b len) := by
  rcases makeSpace_eq fits short mark target with ⟨thrown, -⟩ | same
  · rw [thrown]
    rfl
  · rw [same]
    obtain ⟨after, made, represents, room, -⟩ := (Buffer.makeSpace_returns fits.represents len short).exists
    have grown : b.buffer.length ≤ after.buffer.length := makeSpace_length b len after made
    rw [made]
    exact ⟨represents.order, represents.bound, room, represents.content_eq, grown⟩

theorem ensureWritableBytes_of_room (fits : Fits b) (room : len ≤ b.writableBytes) :
    ensureWritableBytes b len = .ok (.returned b) := by
  apply Returns.eq_ok
  rw [ensureWritableBytes, fits.writableBytes_eq, if_neg (Nat.not_lt_of_le room)]
  simp only [returns_bind, returns_ensure, returns_pure, fits.writableBytes_eq]
  exact ⟨room, trivial⟩

theorem ensureWritableBytes_of_made {after : Buffer} (fits : Fits b) (short : b.writableBytes < len)
    (made : makeSpace b len = .ok (.returned after)) (below : after.buffer.length ≤ kMaxSize)
    (bound : after.writerIndex ≤ after.buffer.length) (room : len ≤ after.writableBytes) :
    ensureWritableBytes b len = .ok (.returned after) := by
  have writable : writableBytes after = after.writableBytes :=
    sub_of_le (Nat.lt_of_le_of_lt below (by decide)) bound
  apply Returns.eq_ok
  rw [ensureWritableBytes, fits.writableBytes_eq, if_pos short, made]
  simp only [returns_bind, returns_ok, returns_ensure, returns_pure, writable]
  exact ⟨room, trivial⟩

/-- For every length whose sums do not wrap, `EnsureWritableBytes` returns with the room or throws and
leaves the buffer alone. No assert fails, and the vector does not get smaller. -/
theorem ensureWritableBytes_roomy (fits : Fits b) (mark : len + kCheapPrepend < 2 ^ 64)
    (target : b.writerIndex + len < 2 ^ 64) :
    Returns (Roomy b len) (ensureWritableBytes b len) := by
  by_cases short : b.writableBytes < len
  · obtain ⟨made, makes, roomy⟩ := (makeSpace_roomy fits short mark target).exists
    have size := makeSpace_size fits.size len made makes
    -- after `resize` has thrown the assert is not reached
    cases made with
    | thrown after =>
      rw [ensureWritableBytes, fits.writableBytes_eq, if_pos short, makes]
      exact roomy
    | returned after =>
      rw [ensureWritableBytes_of_made fits short makes size roomy.2.1 roomy.2.2.1]
      exact roomy
  · have room : len ≤ b.writableBytes := Nat.le_of_not_lt short
    rw [ensureWritableBytes_of_room fits room]
    exact ⟨fits.order, fits.bound, room, rfl, Nat.le_refl _⟩

/-- A buffer that the operations of `ConnBuffer` lead to, with a vector that is one. -/
theorem fits_of_session {initialSize : Nat} {ops : List BufferOp} {s : Session}
    (allowed : ∀ b, Buffer.new initialSize = .ok b →
      Run.Meets Session.step (fun s op => op.Allowed s) ⟨b, []⟩ ops)
    (reached : session initialSize ops = .ok s) (size : s.buffer.buffer.length ≤ kMaxSize) : Fits s.buffer := by
  have simulates := (session_simulates initialSize ops allowed).safe.result reached
  exact { simulates.represents.toWf with size := size }

/-- Room for sixteen bytes, all of it used. -/
def filled : List BufferOp := [.append (List.replicate 16 1)]

def filledAndRead : List BufferOp := filled ++ [.retrieve 4]

/-- `vector::resize` is handed a size that no vector can have only where no sum has wrapped: a wrapped
size is below the writer index, and a wrapped mark below the room. -/
theorem makeSpace_thrown {after : Buffer} (fits : Fits b) (word : len < 2 ^ 64)
    (thrown : makeSpace b len = .ok (.thrown after)) :
    len + kCheapPrepend < 2 ^ 64 ∧ b.writerIndex + len < 2 ^ 64 := by
  have cheap := fits.cheap
  have order := fits.order
  have bound := fits.bound
  have size := fits.size
  have target : kMaxSize < add 64 b.writerIndex len ∧
      b.writableBytes + b.prependableBytes < add 64 len kCheapPrepend := by
    rw [makeSpace, fits.room_eq] at thrown
    split at thrown
    next grow =>
      refine ⟨?_, grow⟩
      by_contra small
      rw [resize, if_neg small] at thrown
      cases thrown
    next =>
      obtain ⟨_, -, rest⟩ := bind_eq_ok.mp thrown
      obtain ⟨_, -, rest⟩ := bind_eq_ok.mp rest
      cases rest
  simp only [add, kMaxSize, kCheapPrepend, Buffer.writableBytes, Buffer.prependableBytes] at *
  omega

/-- What `EnsureWritableBytes` ends with is what `MakeSpace` has made. -/
theorem makeSpace_of_ended {ending : Ending} (fits : Fits b) (short : b.writableBytes < len)
    (ended : ensureWritableBytes b len = .ok ending) : makeSpace b len = .ok ending := by
  rw [ensureWritableBytes, fits.writableBytes_eq, if_pos short] at ended
  obtain ⟨made, makes, rest⟩ := bind_eq_ok.mp ended
  rw [makes]
  cases made with
  | thrown after => exact rest
  | returned after =>
    obtain ⟨_, -, returned⟩ := bind_eq_ok.mp rest
    exact returned

/-- For every buffer and every 64-bit length, `EnsureWritableBytes` returns with the room or throws and
leaves the buffer alone, without a failed assert and without a smaller vector, exactly where neither of
the sums of `MakeSpace` wraps. -/
theorem ensureWritableBytes_roomy_iff (b : Buffer) (fits : Fits b) (len : Nat) (word : len < 2 ^ 64) :
    Returns (Roomy b len) (ensureWritableBytes b len) ↔
      len + kCheapPrepend < 2 ^ 64 ∧ b.writerIndex + len < 2 ^ 64 := by
  have bound := fits.bound
  have size := fits.size
  refine ⟨fun returns => ?_, fun sums => ensureWritableBytes_roomy fits sums.1 sums.2⟩
  obtain ⟨ending, ended, roomy⟩ := returns.exists
  by_cases short : b.writableBytes < len
  · have made := makeSpace_of_ended fits short ended
    cases ending with
    | thrown after => exact makeSpace_thrown fits word made
    | returned after =>
      -- the vector has the room, and no vector is large enough for a length whose sums wrap
      have large : after.buffer.length ≤ kMaxSize := makeSpace_size size len _ made
      have room := roomy.2.2.1
      simp only [kMaxSize, kCheapPrepend] at *
      omega
  · simp only [Buffer.writableBytes, kMaxSize, kCheapPrepend] at *
    omega

theorem ensureWritableBytes_roomy_iff_filled :
    ∃ s, session 16 filled = .ok s ∧
      Returns (Roomy s.buffer (2 ^ 40)) (ensureWritableBytes s.buffer (2 ^ 40)) := by
  have small : (session 16 filled).toOption.map (fun s => (s.buffer.buffer.length, s.buffer.writerIndex)) =
      some (24, 24) := by decide +kernel
  obtain ⟨s, reached, ended⟩ := returned_of_map small
  simp only [Prod.mk.injEq] at ended
  have allowed (b : Buffer) (constructed : Buffer.new 16 = .ok b) :
      Run.Meets Session.step (fun s op => op.Allowed s) ⟨b, []⟩ filled := by
    cases constructed
    decide +kernel
  have fits := fits_of_session allowed reached (by rw [ended.1]; decide)
  have sums : 2 ^ 40 + kCheapPrepend < 2 ^ 64 ∧ s.buffer.writerIndex + 2 ^ 40 < 2 ^ 64 := by
    rw [ended.2]
    decide
  exact ⟨s, reached, (ensureWritableBytes_roomy_iff s.buffer fits (2 ^ 40) (by decide)).mpr sums⟩

/-- Three lengths near `2 ^ 64`. The sum that is the new size wraps, and the vector shrinks below the
writer index; the assert behind it wraps as well and holds. Or the sum that is the mark wraps, and the
buffer is compacted: the first assert fails where there is nothing to move, the last one otherwise. -/
theorem ensureWritableBytes_wraps :
    (∃ s after, session 16 filled = .ok s ∧
      ensureWritableBytes s.buffer (2 ^ 64 - 16) = .ok (.returned after) ∧
      after.buffer.length < after.writerIndex ∧ after.buffer.length < s.buffer.buffer.length) ∧
    (∃ s, session 16 [] = .ok s ∧
      ensureWritableBytes s.buffer (2 ^ 64 - 1) = .error (.fault .makeSpaceReader)) ∧
    (∃ s, session 16 filledAndRead = .ok s ∧
      ensureWritableBytes s.buffer (2 ^ 64 - 1) = .error (.fault .ensureWritableBytes)) := by
  refine ⟨?_, ?_, ?_⟩
  · have shrinks : (session 16 filled).toOption.map (fun s =>
        (s.buffer.buffer.length, (ensureWritableBytes s.buffer (2 ^ 64 - 16)).toOption.map fun made =>
          (made, made.buffer.buffer.length, made.buffer.writerIndex))) =
        some (24, some (.returned ⟨List.replicate 8 0, 8, 24⟩, 8, 24)) := by decide +kernel
    obtain ⟨s, reached, ended⟩ := returned_of_map shrinks
    simp only [Prod.mk.injEq] at ended
    obtain ⟨made, makes, same⟩ := returned_of_map ended.2
    simp only [Prod.mk.injEq] at same
    refine ⟨s, ⟨List.replicate 8 0, 8, 24⟩, reached, by rw [makes, same.1], by decide, ?_⟩
    rw [ended.1]
    decide
  · refine ⟨⟨⟨List.replicate 24 0, 8, 8⟩, []⟩, rfl, ?_⟩
    apply error_of_halt?
    decide +kernel
  · have fails : (session 16 filledAndRead).toOption.map (fun s =>
        halt? (ensureWritableBytes s.buffer (2 ^ 64 - 1))) = some (some (.fault .ensureWritableBytes)) := by
      decide +kernel
    obtain ⟨s, reached, halts⟩ := returned_of_map fails
    exact ⟨s, reached, error_of_halt? halts⟩

/-! ### Shrinking -/

/-- The buffer `other` of `Shrink` as it is constructed. -/
def fresh : Buffer := ⟨List.replicate (kCheapPrepend + kInitialSize) 0, kCheapPrepend, kCheapPrepend⟩

theorem fresh_writableBytes : fresh.writableBytes = kInitialSize := by
  simp [fresh, Buffer.writableBytes]

theorem new_eq_fresh : Buffer.new kInitialSize = .ok fresh := by
  apply Returns.eq_ok
  simp only [Buffer.new, returns_bind, returns_ensure, returns_pure]
  exact ⟨Nat.sub_self _, fresh_writableBytes, rfl, rfl⟩

theorem fresh_fits : Fits fresh where
  cheap := by simp [fresh]
  order := Nat.le_refl _
  bound := by simp [fresh]
  size := by
    rw [fresh, List.length_replicate]
    decide

theorem fresh_represents : fresh.Represents [] :=
  { fresh_fits.toWf with content_eq := slice_self fresh.buffer kCheapPrepend }

/-- The constructed buffer with room for `len` bytes. -/
structure Reserved (len : Nat) (other : Buffer) : Prop extends Fits other where
  reader : other.readerIndex = kCheapPrepend
  writer : other.writerIndex = kCheapPrepend
  room : len ≤ other.writableBytes

def grown (len : Nat) : Buffer :=
  ⟨Buffer.resize fresh.buffer (kCheapPrepend + len), kCheapPrepend, kCheapPrepend⟩

theorem grown_length (short : kInitialSize < len) : (grown len).buffer.length = kCheapPrepend + len := by
  simp only [grown, Buffer.resize, fresh, List.length_append, List.length_replicate]
  omega

/-- There is nothing to compact: the vector grows. -/
theorem makeSpace_fresh (short : kInitialSize < len) : fresh.makeSpace len = .ok (grown len) := by
  have grow : fresh.writableBytes + fresh.prependableBytes < len + kCheapPrepend := by
    rw [fresh_writableBytes, Buffer.prependableBytes]
    exact Nat.add_lt_add_right short kCheapPrepend
  rw [Buffer.makeSpace, if_pos grow]
  rfl

theorem ensureWritableBytes_fresh (small : len ≤ kMaxSize) :
    (∃ other, ensureWritableBytes fresh len = .ok (.returned other) ∧ Reserved len other) ∨
      ensureWritableBytes fresh len = .ok (.thrown fresh) ∧ kMaxSize < kCheapPrepend + len := by
  have below : kMaxSize + kCheapPrepend < 2 ^ 64 := by decide
  have mark : len + kCheapPrepend < 2 ^ 64 := by omega
  have target : fresh.writerIndex + len < 2 ^ 64 := by
    rw [Nat.add_comm]
    exact mark
  by_cases short : fresh.writableBytes < len
  · rcases makeSpace_eq fresh_fits short mark target with ⟨thrown, large⟩ | same
    · right
      rw [ensureWritableBytes, fresh_fits.writableBytes_eq, if_pos short, thrown]
      exact ⟨rfl, large⟩
    · left
      have more : kInitialSize < len := fresh_writableBytes ▸ short
      have length := grown_length more
      rw [makeSpace_fresh more] at same
      have size : (grown len).buffer.length ≤ kMaxSize := makeSpace_size fresh_fits.size len _ same
      have bound : kCheapPrepend ≤ (grown len).buffer.length := by omega
      have room : len ≤ (grown len).writableBytes := by
        rw [Buffer.writableBytes, length]
        exact Nat.le_of_eq (Nat.add_sub_cancel_left _ _).symm
      exact ⟨grown len, ensureWritableBytes_of_made fresh_fits short same size bound room,
        ⟨⟨⟨bound, Nat.le_refl _, bound⟩, size⟩, rfl, rfl, room⟩⟩
  · have room : len ≤ fresh.writableBytes := Nat.le_of_not_lt short
    exact Or.inl ⟨fresh, ensureWritableBytes_of_room fresh_fits room,
      { fresh_fits with reader := rfl, writer := rfl, room := room }⟩

theorem hasWritten_eq (fits : Fits b) (room : len ≤ b.writableBytes) : hasWritten b len = b.hasWritten len := by
  have bound := fits.bound
  have below := fits.lt
  simp only [Buffer.writableBytes] at room
  have writer : add 64 b.writerIndex len = b.writerIndex + len := add_of_lt (by omega)
  rw [hasWritten, Buffer.hasWritten, fits.writableBytes_eq, writer]

/-- What `Append` leaves in the buffer that has reserved room for it. -/
structure Filled (other : Buffer) (text : List Byte) (after : Buffer) : Prop extends after.Represents text where
  reader : after.readerIndex = kCheapPrepend
  writer : after.writerIndex = kCheapPrepend + text.length
  same : after.buffer.length = other.buffer.length

theorem Reserved.empty {other : Buffer} (reserved : Reserved len other) : other.Represents [] := by
  refine { reserved.toWf with content_eq := ?_ }
  rw [Buffer.readable, reserved.reader, reserved.writer, slice_self]

/-- `std::copy` writes into the room and leaves the vector as long as it was. -/
theorem Reserved.written {other : Buffer} {text : List Byte} (reserved : Reserved len other)
    (fitting : text.length ≤ other.writableBytes) : Fits (other.writeAtBeginWrite text) := by
  have size : (other.writeAtBeginWrite text).buffer.length = other.buffer.length := store_length _ _ _
  exact { (Buffer.writeAtBeginWrite_represents reserved.empty _ fitting).toWf with size := size ▸ reserved.size }

theorem append_reserved {other : Buffer} {mem : List Byte} {str : StringView} (reserved : Reserved len other)
    (inside : str.data + str.size ≤ mem.length) (part : str.size ≤ len) :
    ∃ after, append other mem str = .ok (.returned after) ∧ Filled other (str.text mem) after := by
  have room : str.size ≤ other.writableBytes := Nat.le_trans part reserved.room
  have length : (str.text mem).length = str.size := by
    rw [StringView.text, slice_length _ _ _ inside, Nat.add_sub_cancel_left]
  have fitting : (str.text mem).length ≤ other.writableBytes := length ▸ room
  let written := other.writeAtBeginWrite (str.text mem)
  have size : written.buffer.length = other.buffer.length := store_length _ _ _
  have kept : Fits written := reserved.written fitting
  have free : str.size ≤ written.writableBytes := by
    rw [Buffer.writableBytes, size]
    exact room
  have wrote : written.hasWritten str.size = .ok { written with writerIndex := other.writerIndex + str.size } := by
    apply Returns.eq_ok
    simp only [Buffer.hasWritten, returns_bind, returns_ensure, returns_pure]
    exact ⟨free, rfl⟩
  -- `HasWritten` takes in all that was copied, so the content is the whole text
  have represents :=
    Buffer.writeHasWritten_returns reserved.empty (str.text mem) fitting str.size (Nat.le_of_eq length.symm)
  rw [wrote, List.nil_append, List.take_of_length_le (Nat.le_of_eq length)] at represents
  have bound := reserved.bound
  have within : other.beginWrite + str.size ≤ other.buffer.length := by
    simp only [Buffer.writableBytes, Buffer.beginWrite] at room ⊢
    omega
  refine ⟨_, ?_, { represents.1 with reader := reserved.reader, writer := ?_, same := size }⟩
  · apply Returns.eq_ok
    simp only [append, ensureWritableBytes_of_room reserved.toFits room, returns_bind, returns_lift, returns_ok,
      returns_ensure, returns_pure]
    refine ⟨inside, within, ?_⟩
    rw [hasWritten_eq kept free, wrote]
    rfl
  · rw [length]
    exact congrArg (· + str.size) reserved.writer

/-- The view of a content whose length is, modulo `2 ^ 32`, an `int`. -/
theorem toStringView_of_low (fits : Fits b) (low : b.readableBytes % 2 ^ 32 < 2 ^ 31) :
    toStringView b = ⟨b.readerIndex, b.readableBytes % 2 ^ 32⟩ := by
  rw [toStringView, fits.readableBytes_eq, throughSigned_of_low (by decide) (by omega)]
  rfl

/-- The view then starts with the content, and it may be shorter. -/
theorem toStringView_text (fits : Fits b) (low : b.readableBytes % 2 ^ 32 < 2 ^ 31) :
    (toStringView b).data + (toStringView b).size ≤ b.buffer.length ∧
      (toStringView b).text b.buffer = b.readable.take (b.readableBytes % 2 ^ 32) := by
  have order := fits.order
  have bound := fits.bound
  have less := Nat.mod_le b.readableBytes (2 ^ 32)
  rw [toStringView_of_low fits low]
  simp only [Buffer.readableBytes] at less ⊢
  refine ⟨by omega, ?_⟩
  rw [StringView.text, Buffer.readable, slice_take _ _ _ _ (by omega)]

/-- The buffer has the content, the reserve behind it and the usual room in front. -/
def Shrunk (content : List Byte) (reserve : Nat) (after : Buffer) : Prop :=
  after.readable = content ∧ reserve ≤ writableBytes after ∧ prependableBytes after = kCheapPrepend

theorem Fits.total_eq (fits : Fits b) {reserve : Nat} (limit : b.readableBytes + reserve ≤ kMaxSize) :
    add 64 (readableBytes b) reserve = b.readableBytes + reserve := by
  rw [fits.readableBytes_eq]
  exact add_of_lt (Nat.lt_of_le_of_lt limit (by decide))

theorem shrink_of_low (fits : Fits b) (reserve : Nat) (low : b.readableBytes % 2 ^ 32 < 2 ^ 31)
    (limit : kCheapPrepend + (b.readableBytes + reserve) ≤ kMaxSize) :
    ∃ after, shrink b reserve = .ok (.returned after) ∧
      Shrunk (b.readable.take (b.readableBytes % 2 ^ 32)) reserve after := by
  have small : b.readableBytes + reserve ≤ kMaxSize := Nat.le_trans (Nat.le_add_left _ _) limit
  have total := fits.total_eq small
  obtain ⟨inside, text⟩ := toStringView_text fits low
  rcases ensureWritableBytes_fresh small with ⟨other, made, reserved⟩ | ⟨-, large⟩
  · have part : (toStringView b).size ≤ b.readableBytes + reserve := by
      rw [toStringView_of_low fits low]
      exact Nat.le_trans (Nat.mod_le _ _) (Nat.le_add_right _ _)
    obtain ⟨after, appended, filled⟩ := append_reserved reserved inside part
    refine ⟨after, ?_, ?_⟩
    · apply Returns.eq_ok
      simp only [shrink, new_eq_fresh, total, made, appended, returns_bind, returns_lift, returns_ok, returns_pure]
      rfl
    · rw [text] at filled
      have room := reserved.room
      have writer := filled.writer
      have size := filled.same
      have kept : Fits after := { filled.toWf with size := by rw [size]; exact reserved.size }
      refine ⟨filled.content_eq, ?_, filled.reader⟩
      rw [List.length_take] at writer
      simp only [Buffer.writableBytes, reserved.writer] at room
      rw [kept.writableBytes_eq, Buffer.writableBytes]
      omega
  · exact absurd limit (Nat.not_le_of_lt large)

/-- The vector of the new buffer has the room in front as well, and may not have the size for it. -/
theorem shrink_of_large (fits : Fits b) (reserve : Nat) (limit : b.readableBytes + reserve ≤ kMaxSize)
    (large : kMaxSize < kCheapPrepend + (b.readableBytes + reserve)) : shrink b reserve = .ok (.thrown b) := by
  have total := fits.total_eq limit
  rcases ensureWritableBytes_fresh limit with ⟨other, made, reserved⟩ | ⟨thrown, -⟩
  · have size := reserved.size
    have room := reserved.room
    have bound := reserved.bound
    simp only [Buffer.writableBytes, reserved.writer] at room bound
    omega
  · apply Returns.eq_ok
    simp only [shrink, new_eq_fresh, total, thrown, returns_bind, returns_lift, returns_ok, returns_pure]

theorem toStringView_of_high (fits : Fits b) (high : 2 ^ 31 ≤ b.readableBytes % 2 ^ 32) :
    (toStringView b).size = 2 ^ 64 - (2 ^ 32 - b.readableBytes % 2 ^ 32) := by
  rw [toStringView, fits.readableBytes_eq]
  exact throughSigned_of_high (by decide) (by omega)

/-- The view stands for the content. -/
def Views (b : Buffer) : Prop :=
  (toStringView b).data + (toStringView b).size ≤ b.buffer.length ∧ (toStringView b).text b.buffer = b.readable

/-- A view whose length was cut to an `int` is too short, and one whose length turned negative does not
end inside the vector. -/
theorem views_iff (fits : Fits b) : Views b ↔ b.readableBytes < 2 ^ 31 := by
  have length : b.readable.length = b.readableBytes := fits.represents.length
  have size : b.buffer.length ≤ 2 ^ 63 - 1 := fits.size
  by_cases low : b.readableBytes % 2 ^ 32 < 2 ^ 31
  · obtain ⟨inside, text⟩ := toStringView_text fits low
    have whole : b.readable.take (b.readableBytes % 2 ^ 32) = b.readable ↔ b.readableBytes < 2 ^ 31 := by
      rw [List.take_eq_self_iff, length]
      omega
    rw [Views, text, whole]
    exact ⟨fun views => views.2, fun short => ⟨inside, short⟩⟩
  · have view := toStringView_of_high fits (Nat.le_of_not_lt low)
    constructor
    · rintro ⟨inside, -⟩
      omega
    · intro short
      omega

/-- For every buffer and every reserve with which the content fits into a vector: `ToStringView` stands
for the content and `Shrink` keeps it, with the reserve behind it and the usual room in front, exactly
where the length of the content is an `int` and a vector can have the room in front as well. -/
theorem shrink_keeps_iff (b : Buffer) (fits : Fits b) (reserve : Nat)
    (limit : readableBytes b + reserve ≤ kMaxSize) :
    (Views b ∧ ∃ after, shrink b reserve = .ok (.returned after) ∧ Shrunk b.readable reserve after) ↔
      readableBytes b < 2 ^ 31 ∧ kCheapPrepend + (readableBytes b + reserve) ≤ kMaxSize := by
  rw [fits.readableBytes_eq] at limit ⊢
  rw [views_iff fits]
  refine and_congr_right fun short => ⟨?_, fun fitting => ?_⟩
  · rintro ⟨after, shrinks, -⟩
    by_contra large
    rw [shrink_of_large fits reserve limit (Nat.lt_of_not_le large)] at shrinks
    cases shrinks
  · have same : b.readableBytes % 2 ^ 32 = b.readableBytes := Nat.mod_eq_of_lt (by omega)
    have whole : b.readable.take (b.readableBytes % 2 ^ 32) = b.readable := by
      rw [same]
      exact List.take_of_length_le (Nat.le_of_eq fits.represents.length)
    obtain ⟨after, shrinks, shrunk⟩ := shrink_of_low fits reserve (by omega) fitting
    rw [whole] at shrunk
    exact ⟨after, shrinks, shrunk⟩

theorem shrink_keeps_iff_filledAndRead :
    ∃ s, session 16 filledAndRead = .ok s ∧ Views s.buffer ∧
      ∃ after, shrink s.buffer 100 = .ok (.returned after) ∧ Shrunk (List.replicate 12 1) 100 after := by
  have small : (session 16 filledAndRead).toOption.map (fun s =>
      (s.buffer.buffer.length, readableBytes s.buffer, s.buffer.readable)) =
      some (24, 12, List.replicate 12 1) := by decide +kernel
  obtain ⟨s, reached, ended⟩ := returned_of_map small
  simp only [Prod.mk.injEq] at ended
  obtain ⟨size, readable, content⟩ := ended
  have allowed (b : Buffer) (constructed : Buffer.new 16 = .ok b) :
      Run.Meets Session.step (fun s op => op.Allowed s) ⟨b, []⟩ filledAndRead := by
    cases constructed
    decide +kernel
  have fits := fits_of_session allowed reached (by rw [size]; decide)
  have kept := (shrink_keeps_iff s.buffer fits 100 (by rw [readable]; decide)).mpr (by rw [readable]; decide)
  rw [content] at kept
  exact ⟨s, reached, kept⟩

/-! ### Contents too long for an `int` -/

/-- A length that no vector can have. -/
theorem ensureWritableBytes_huge (fits : Fits b) (huge : kMaxSize < len) (mark : len + kCheapPrepend < 2 ^ 64)
    (target : b.writerIndex + len < 2 ^ 64) : ensureWritableBytes b len = .ok (.thrown b) := by
  have order := fits.order
  have bound := fits.bound
  have size := fits.size
  have short : b.writableBytes < len := by
    rw [Buffer.writableBytes]
    omega
  have made : makeSpace b len = .ok (.thrown b) := by
    have grow : b.writableBytes + b.prependableBytes < len + kCheapPrepend := by
      simp only [Buffer.writableBytes, Buffer.prependableBytes]
      omega
    rw [makeSpace, fits.room_eq, add_of_lt mark, add_of_lt target, if_pos grow, resize, if_pos (by omega)]
    rfl
  rw [ensureWritableBytes, fits.writableBytes_eq, if_pos short, made]
  rfl

theorem append_fresh_length (data : List Byte) (more : kInitialSize < data.length) :
    Yields (fun after => after.buffer.length = kCheapPrepend + data.length) (fresh.append data) := by
  have short : fresh.writableBytes < data.length := fresh_writableBytes ▸ more
  simp only [Buffer.append, Buffer.ensureWritableBytes, if_pos short, makeSpace_fresh more, Buffer.hasWritten,
    yields_bind, yields_ok, yields_ensure, yields_pure]
  intro _ _
  simp only [Buffer.writeAtBeginWrite, store_length]
  exact grown_length more

theorem session_append_of {n : Nat} {data : List Byte} (constructed : Buffer.new n = .ok b)
    (empty : b.Represents [])
    (length : Yields (fun after => after.buffer.length = kCheapPrepend + data.length) (b.append data))
    (size : kCheapPrepend + data.length ≤ kMaxSize) :
    ∃ s, session n [.append data] = .ok s ∧ Fits s.buffer ∧ s.buffer.readable = data := by
  obtain ⟨after, appended, represents, -⟩ := (Buffer.append_returns empty data).exists
  have fits : Fits after := { represents.toWf with size := by rw [length after appended]; exact size }
  refine ⟨⟨after, []⟩, ?_, fits, represents.content_eq⟩
  apply Returns.eq_ok
  simp only [session, constructed, Run.exec, Session.step, Session.update, appended, returns_bind, returns_ok,
    returns_pure]

/-- A buffer to which a long text was appended. -/
theorem session_append (data : List Byte) (more : kInitialSize < data.length)
    (size : kCheapPrepend + data.length ≤ kMaxSize) :
    ∃ s, session kInitialSize [.append data] = .ok s ∧ Fits s.buffer ∧ s.buffer.readable = data :=
  session_append_of new_eq_fresh fresh_represents (append_fresh_length data more) size

/-- The view of a content of `2 ^ 31` bytes up to nearly `2 ^ 32` has a length that no vector can have. -/
theorem shrink_of_high (fits : Fits b) (reserve : Nat) (high : 2 ^ 31 ≤ b.readableBytes % 2 ^ 32)
    (mark : b.readableBytes % 2 ^ 32 + kCheapPrepend < 2 ^ 32)
    (limit : kCheapPrepend + (b.readableBytes + reserve) ≤ kMaxSize) : shrink b reserve = .ok (.thrown b) := by
  have small : b.readableBytes + reserve ≤ kMaxSize := Nat.le_trans (Nat.le_add_left _ _) limit
  have total := fits.total_eq small
  have view := toStringView_of_high fits high
  rcases ensureWritableBytes_fresh small with ⟨other, made, reserved⟩ | ⟨-, large⟩
  · have huge : kMaxSize < (toStringView b).size := by
      rw [view, kMaxSize]
      omega
    have thrown : ensureWritableBytes other (toStringView b).size = .ok (.thrown other) := by
      apply ensureWritableBytes_huge reserved.toFits huge
      · rw [view]
        omega
      · rw [view, reserved.writer]
        omega
    apply Returns.eq_ok
    simp only [shrink, append, new_eq_fresh, total, made, thrown, returns_bind, returns_lift, returns_ok,
      returns_pure]
  · exact absurd limit (Nat.not_le_of_lt large)

/-- `2 ^ 32` bytes are lost, and for `2 ^ 31` bytes `Shrink` throws. It throws as well for an empty
buffer with a reserve as large as a vector. -/
theorem shrink_truncates :
    (∃ s after, session kInitialSize [.append (List.replicate (2 ^ 32) 0)] = .ok s ∧
      s.buffer.readable.length = 2 ^ 32 ∧ (toStringView s.buffer).size = 0 ∧
      shrink s.buffer 0 = .ok (.returned after) ∧ after.readable = []) ∧
    (∃ s, session kInitialSize [.append (List.replicate (2 ^ 31) 0)] = .ok s ∧
      s.buffer.readable.length = 2 ^ 31 ∧ (toStringView s.buffer).size = 2 ^ 64 - 2 ^ 31 ∧
      shrink s.buffer 0 = .ok (.thrown s.buffer)) ∧
    (∃ s, session kInitialSize [] = .ok s ∧ readableBytes s.buffer + kMaxSize ≤ kMaxSize ∧
      shrink s.buffer kMaxSize = .ok (.thrown s.buffer)) := by
  refine ⟨?_, ?_, ?_⟩
  · obtain ⟨s, reached, fits, content⟩ := session_append (List.replicate (2 ^ 32) 0)
      (by rw [List.length_replicate]; decide) (by rw [List.length_replicate]; decide)
    have length : s.buffer.readable.length = 2 ^ 32 := by rw [content, List.length_replicate]
    have readable : s.buffer.readableBytes = 2 ^ 32 := fits.represents.length ▸ length
    have low : s.buffer.readableBytes % 2 ^ 32 < 2 ^ 31 := by
      rw [readable]
      decide
    -- a vector of `2 ^ 32` bytes is no problem
    obtain ⟨after, shrinks, shrunk⟩ := shrink_of_low fits 0 low (by rw [readable]; decide)
    have view : (toStringView s.buffer).size = 0 := by
      rw [toStringView_of_low fits low, readable, Nat.mod_self]
    refine ⟨s, after, reached, length, view, shrinks, ?_⟩
    have kept := shrunk.1
    rw [readable, Nat.mod_self, List.take_zero] at kept
    exact kept
  · obtain ⟨s, reached, fits, content⟩ := session_append (List.replicate (2 ^ 31) 0)
      (by rw [List.length_replicate]; decide) (by rw [List.length_replicate]; decide)
    have length : s.buffer.readable.length = 2 ^ 31 := by rw [content, List.length_replicate]
    have readable : s.buffer.readableBytes = 2 ^ 31 := fits.represents.length ▸ length
    have high : 2 ^ 31 ≤ s.buffer.readableBytes % 2 ^ 32 := by
      rw [readable]
      decide
    have view : (toStringView s.buffer).size = 2 ^ 64 - 2 ^ 31 := by
      rw [toStringView_of_high fits high]
      omega
    refine ⟨s, reached, length, view, shrink_of_high fits 0 high ?_ ?_⟩
    · rw [readable]
      decide
    · rw [readable]
      decide
  · have empty : fresh.readableBytes = 0 := Nat.sub_self kCheapPrepend
    have reached : session kInitialSize [] = .ok ⟨fresh, []⟩ := by
      apply Returns.eq_ok
      simp only [session, new_eq_fresh, Run.exec, returns_bind, returns_ok]
    refine ⟨⟨fresh, []⟩, reached, ?_, shrink_of_large fresh_fits kMaxSize ?_ ?_⟩
    · rw [fresh_fits.readableBytes_eq, empty, Nat.zero_add]
    · rw [empty, Nat.zero_add]
    · rw [empty]
      decide

end Buffer64

end Rnet.File
