import Rnet.Lib.Check
import Rnet.Lib.Memory

/-!
# The connection buffer

`rnet::file::Buffer`: a vector of bytes with a reader and a writer index. The bytes between
the two are the content; what lies before the reader index can be prepended to, what lies
behind the writer index can be appended to. A pointer into the vector is its index.

Sizes are natural numbers: nothing in this module comes near `2 ^ 64`.
-/
namespace Rnet.File

open Check Memory

abbrev Byte := UInt8

/-- The asserts of the class, each named after the function it stands in. -/
inductive BufferAssert where
  | ctorReadable
  | ctorWritable
  | ctorPrependable
  | retrieve
  | retrieveUntilPeek
  | retrieveUntilBeginWrite
  | retrieveAsString
  | ensureWritableBytes
  | hasWritten
  | unwrite
  | prepend
  | makeSpaceReader
  | makeSpaceReadable
  deriving DecidableEq, Repr

structure Buffer where
  buffer : List Byte
  readerIndex : Nat
  writerIndex : Nat
  deriving DecidableEq, Repr

namespace Buffer

def kCheapPrepend : Nat := 8
def kInitialSize : Nat := 1024

def readableBytes (b : Buffer) : Nat := b.writerIndex - b.readerIndex
def writableBytes (b : Buffer) : Nat := b.buffer.length - b.writerIndex
def prependableBytes (b : Buffer) : Nat := b.readerIndex
def peek (b : Buffer) : Nat := b.readerIndex
def beginWrite (b : Buffer) : Nat := b.writerIndex

/-- The content: `buffer_[readerIndex_, writerIndex_)`. -/
def readable (b : Buffer) : List Byte := slice b.buffer b.readerIndex b.writerIndex

def new (initialSize : Nat) : Comp BufferAssert Buffer := do
  let b : Buffer := ⟨List.replicate (kCheapPrepend + initialSize) 0, kCheapPrepend, kCheapPrepend⟩
  ensure .ctorReadable (b.readableBytes = 0)
  ensure .ctorWritable (b.writableBytes = initialSize)
  ensure .ctorPrependable (b.prependableBytes = kCheapPrepend)
  return b

def swap (b rhs : Buffer) : Buffer × Buffer := (rhs, b)

def retrieveAll (b : Buffer) : Buffer :=
  { b with readerIndex := kCheapPrepend, writerIndex := kCheapPrepend }

def retrieve (b : Buffer) (len : Nat) : Comp BufferAssert Buffer := do
  ensure .retrieve (len ≤ b.readableBytes)
  if len < b.readableBytes then
    return { b with readerIndex := b.readerIndex + len }
  else
    return b.retrieveAll

/-- `end` is an index into the vector. -/
def retrieveUntil (b : Buffer) (endPtr : Nat) : Comp BufferAssert Buffer := do
  ensure .retrieveUntilPeek (b.peek ≤ endPtr)
  ensure .retrieveUntilBeginWrite (endPtr ≤ b.beginWrite)
  b.retrieve (endPtr - b.peek)

def retrieveAsString (b : Buffer) (len : Nat) : Comp BufferAssert (Buffer × List Byte) := do
  ensure .retrieveAsString (len ≤ b.readableBytes)
  let result := slice b.buffer b.peek (b.peek + len)
  let rest ← b.retrieve len
  return (rest, result)

def retrieveAllAsString (b : Buffer) : Comp BufferAssert (Buffer × List Byte) :=
  b.retrieveAsString b.readableBytes

/-- `vector::resize` to a size that is not smaller: the new cells are zero. -/
def resize (mem : List Byte) (n : Nat) : List Byte := mem ++ List.replicate (n - mem.length) 0

def makeSpace (b : Buffer) (len : Nat) : Comp BufferAssert Buffer :=
  if b.writableBytes + b.prependableBytes < len + kCheapPrepend then
    return { b with buffer := resize b.buffer (b.writerIndex + len) }
  else do
    -- move readable data to the front, make space inside buffer
    ensure .makeSpaceReader (kCheapPrepend < b.readerIndex)
    let readable := b.readableBytes
    let moved : Buffer :=
      { buffer := copyForward b.buffer b.readerIndex kCheapPrepend readable
        readerIndex := kCheapPrepend
        writerIndex := kCheapPrepend + readable }
    ensure .makeSpaceReadable (readable = moved.readableBytes)
    return moved

def ensureWritableBytes (b : Buffer) (len : Nat) : Comp BufferAssert Buffer := do
  let roomy ← if b.writableBytes < len then b.makeSpace len else pure b
  ensure .ensureWritableBytes (len ≤ roomy.writableBytes)
  return roomy

def hasWritten (b : Buffer) (len : Nat) : Comp BufferAssert Buffer := do
  ensure .hasWritten (len ≤ b.writableBytes)
  return { b with writerIndex := b.writerIndex + len }

/-- What a caller does between `BeginWrite` and `HasWritten`. -/
def writeAtBeginWrite (b : Buffer) (data : List Byte) : Buffer :=
  { b with buffer := store b.buffer b.beginWrite data }

def append (b : Buffer) (data : List Byte) : Comp BufferAssert Buffer := do
  let roomy ← b.ensureWritableBytes data.length
  (roomy.writeAtBeginWrite data).hasWritten data.length

def unwrite (b : Buffer) (len : Nat) : Comp BufferAssert Buffer := do
  ensure .unwrite (len ≤ b.readableBytes)
  return { b with writerIndex := b.writerIndex - len }

def prepend (b : Buffer) (data : List Byte) : Comp BufferAssert Buffer := do
  ensure .prepend (data.length ≤ b.prependableBytes)
  let start := b.readerIndex - data.length
  return { b with buffer := store b.buffer start data, readerIndex := start }

/-! ### The index invariant and the abstraction -/

/-- What every reachable buffer keeps. The reader index may lie below `kCheapPrepend`: a
prepend moves it there. -/
structure Wf (b : Buffer) : Prop where
  cheap : kCheapPrepend ≤ b.buffer.length
  order : b.readerIndex ≤ b.writerIndex
  bound : b.writerIndex ≤ b.buffer.length

/-- The buffer stands for the byte string `content`. -/
structure Represents (b : Buffer) (content : List Byte) : Prop extends Wf b where
  content_eq : b.readable = content

/-- The room `AppendIntN` readers rely on is not given away. -/
def KeepsCheap (b after : Buffer) : Prop :=
  kCheapPrepend ≤ b.prependableBytes → kCheapPrepend ≤ after.prependableBytes

theorem Wf.represents {b : Buffer} (wf : b.Wf) : b.Represents b.readable := { wf with content_eq := rfl }

theorem Represents.length {b : Buffer} {content : List Byte} (r : b.Represents content) :
    content.length = b.readableBytes := by
  rw [← r.content_eq]
  exact slice_length _ _ _ r.bound

theorem new_returns (initialSize : Nat) :
    Returns (fun b => b.Represents [] ∧ kCheapPrepend ≤ b.prependableBytes) (new initialSize) := by
  simp only [new, returns_bind, returns_ensure, returns_pure, readableBytes, writableBytes,
    prependableBytes, List.length_replicate, Nat.sub_self, Nat.add_sub_cancel_left, true_and]
  refine ⟨⟨⟨?_, Nat.le_refl _, ?_⟩, by simp [readable]⟩, Nat.le_refl _⟩
  · simp only [List.length_replicate]; omega
  · simp only [List.length_replicate]; omega

theorem retrieveAll_represents {b : Buffer} (wf : b.Wf) : (b.retrieveAll).Represents [] :=
  { cheap := wf.cheap, order := Nat.le_refl _, bound := wf.cheap, content_eq := by simp [readable, retrieveAll] }

theorem retrieve_returns {b : Buffer} {content : List Byte} (r : b.Represents content) (len : Nat)
    (within : len ≤ b.readableBytes) :
    Returns (fun after => after.Represents (content.drop len) ∧ KeepsCheap b after)
      (b.retrieve len) := by
  have size := r.length
  simp only [retrieve, returns_bind, returns_ensure]
  refine ⟨within, ?_⟩
  split
  next less =>
    simp only [readableBytes] at less
    refine ⟨{ cheap := r.cheap, order := by simp only; omega, bound := r.bound, content_eq := ?_ }, ?_⟩
    · simp only [readable, ← r.content_eq, slice_drop]
    · simp only [KeepsCheap, prependableBytes]; omega
  next =>
    -- everything is retrieved: both indices go back to the front
    have all : content.drop len = [] := List.drop_eq_nil_of_le (by omega)
    rw [all]
    exact ⟨retrieveAll_represents r.toWf, fun _ => Nat.le_refl _⟩

theorem retrieveUntil_returns {b : Buffer} {content : List Byte} (r : b.Represents content)
    (endPtr : Nat) (low : b.peek ≤ endPtr) (high : endPtr ≤ b.beginWrite) :
    Returns (fun after => after.Represents (content.drop (endPtr - b.peek)) ∧ KeepsCheap b after)
      (b.retrieveUntil endPtr) := by
  simp only [retrieveUntil, returns_bind, returns_ensure]
  refine ⟨low, high, retrieve_returns r _ ?_⟩
  simp only [readableBytes, peek, beginWrite] at *
  omega

theorem retrieveAsString_returns {b : Buffer} {content : List Byte} (r : b.Represents content)
    (len : Nat) (within : len ≤ b.readableBytes) :
    Returns (fun res => res.1.Represents (content.drop len) ∧ KeepsCheap b res.1 ∧
      res.2 = content.take len) (b.retrieveAsString len) := by
  simp only [retrieveAsString, returns_bind, returns_ensure]
  refine ⟨within, (retrieve_returns r len within).mono ?_⟩
  rintro after ⟨represents, cheap⟩
  refine ⟨represents, cheap, ?_⟩
  have order := r.order
  rw [← r.content_eq]
  simp only [readableBytes, peek, readable] at within ⊢
  exact (slice_take _ _ _ _ (by omega)).symm

theorem slice_resize (mem : List Byte) (n i j : Nat) (bound : j ≤ mem.length) :
    slice (resize mem n) i j = slice mem i j := by
  apply slice_congr _ _ _ _ _ _ rfl
  intro k inside
  rw [resize, List.getElem?_append_left (by omega)]

/-- `MakeSpace` is called only where the room behind the writer index is too small. Then the
branch that compacts has a reader index beyond the mark it moves the content to. -/
theorem makeSpace_returns {b : Buffer} {content : List Byte} (r : b.Represents content) (len : Nat)
    (short : b.writableBytes < len) :
    Returns (fun after => after.Represents content ∧ len ≤ after.writableBytes ∧ KeepsCheap b after)
      (b.makeSpace len) := by
  have cheap := r.cheap
  have order := r.order
  have bound := r.bound
  simp only [writableBytes] at short
  unfold makeSpace
  split
  next grow =>
    have size : (resize b.buffer (b.writerIndex + len)).length = b.writerIndex + len := by
      simp only [resize, List.length_append, List.length_replicate]
      omega
    refine ⟨{ cheap := ?_, order := order, bound := ?_, content_eq := ?_ }, ?_, fun kept => kept⟩
    · simp only [size]; omega
    · simp only [size]; omega
    · simp only [readable, slice_resize _ _ _ _ bound, ← r.content_eq]
    · simp only [writableBytes, size]; omega
  next compact =>
    simp only [writableBytes, prependableBytes, kCheapPrepend] at compact cheap
    simp only [returns_bind, returns_ensure, returns_pure]
    refine ⟨by simp only [kCheapPrepend]; omega, by simp only [readableBytes]; omega,
      { cheap := ?_, order := ?_, bound := ?_, content_eq := ?_ }, ?_, fun _ => Nat.le_refl _⟩
    · simp only [copyForward_length]; exact r.cheap
    · simp only; omega
    · simp only [copyForward_length, readableBytes, kCheapPrepend]; omega
    · simp only [readable, readableBytes]
      rw [slice_copyForward _ _ _ _ (by simp only [kCheapPrepend]; omega) (by omega), ← r.content_eq, readable]
      congr 1
      omega
    · simp only [writableBytes, readableBytes, copyForward_length, kCheapPrepend]; omega

theorem ensureWritableBytes_returns {b : Buffer} {content : List Byte} (r : b.Represents content)
    (len : Nat) :
    Returns (fun after => after.Represents content ∧ len ≤ after.writableBytes ∧ KeepsCheap b after)
      (b.ensureWritableBytes len) := by
  unfold ensureWritableBytes
  split
  next short =>
    refine (makeSpace_returns r len short).bind ?_
    rintro after ⟨represents, room, cheap⟩
    simp only [returns_bind, returns_ensure, returns_pure]
    exact ⟨room, represents, room, cheap⟩
  next enough =>
    simp only [returns_bind, returns_ensure, returns_pure]
    have room : len ≤ b.writableBytes := by omega
    exact ⟨room, r, room, fun kept => kept⟩

/-- Writing behind the writer index does not touch the content. -/
theorem writeAtBeginWrite_represents {b : Buffer} {content : List Byte} (r : b.Represents content)
    (data : List Byte) (room : data.length ≤ b.writableBytes) :
    (b.writeAtBeginWrite data).Represents content := by
  have bound := r.bound
  simp only [writableBytes] at room
  refine { cheap := ?_, order := r.order, bound := ?_, content_eq := ?_ }
  · simp only [writeAtBeginWrite, store_length]; exact r.cheap
  · simp only [writeAtBeginWrite, store_length]; exact bound
  · simp only [writeAtBeginWrite, beginWrite, readable]
    rw [slice_store_of_disjoint _ _ _ _ _ (by omega) (Or.inl (Nat.le_refl _)), ← r.content_eq, readable]

theorem writeHasWritten_returns {b : Buffer} {content : List Byte} (r : b.Represents content)
    (data : List Byte) (room : data.length ≤ b.writableBytes) (len : Nat) (part : len ≤ data.length) :
    Returns (fun after => after.Represents (content ++ data.take len) ∧ KeepsCheap b after)
      ((b.writeAtBeginWrite data).hasWritten len) := by
  have kept := writeAtBeginWrite_represents r data room
  have order := r.order
  have bound := r.bound
  simp only [writableBytes] at room
  simp only [hasWritten, returns_bind, returns_ensure, returns_pure]
  have size : (b.writeAtBeginWrite data).buffer.length = b.buffer.length := by
    simp [writeAtBeginWrite]
  have writer : (b.writeAtBeginWrite data).writerIndex = b.writerIndex := rfl
  have reader : (b.writeAtBeginWrite data).readerIndex = b.readerIndex := rfl
  refine ⟨by simp only [writableBytes]; omega,
    { cheap := kept.cheap, order := ?_, bound := ?_, content_eq := ?_ }, fun h => h⟩
  · simp only [writer, reader]; omega
  · simp only [size, writer]; omega
  · have filled : slice (b.writeAtBeginWrite data).buffer b.writerIndex (b.writerIndex + len) =
        data.take len := by
      simp only [writeAtBeginWrite, beginWrite]
      rw [← slice_take _ _ (b.writerIndex + data.length) _ (by omega), slice_store _ _ _ (by omega)]
    have old := kept.content_eq
    simp only [readable, writer, reader] at old ⊢
    rw [← slice_append _ _ b.writerIndex _ order (by omega), old, filled]

theorem append_returns {b : Buffer} {content : List Byte} (r : b.Represents content)
    (data : List Byte) :
    Returns (fun after => after.Represents (content ++ data) ∧ KeepsCheap b after) (b.append data) := by
  refine (ensureWritableBytes_returns r data.length).bind ?_
  rintro roomy ⟨represents, room, cheap⟩
  refine (writeHasWritten_returns represents data room data.length (Nat.le_refl _)).mono ?_
  rintro after ⟨appended, kept⟩
  rw [List.take_length] at appended
  exact ⟨appended, fun h => kept (cheap h)⟩

theorem unwrite_returns {b : Buffer} {content : List Byte} (r : b.Represents content) (len : Nat)
    (within : len ≤ b.readableBytes) :
    Returns (fun after => after.Represents (content.take (content.length - len)) ∧ KeepsCheap b after)
      (b.unwrite len) := by
  have size := r.length
  have order := r.order
  have bound := r.bound
  simp only [unwrite, returns_bind, returns_ensure, returns_pure]
  refine ⟨within, ?_⟩
  simp only [readableBytes] at within size
  refine ⟨{ cheap := r.cheap, order := by simp only; omega, bound := by simp only; omega, content_eq := ?_ },
    fun h => h⟩
  rw [← r.content_eq] at size ⊢
  simp only [readable] at size ⊢
  rw [slice_take _ _ _ _ (by omega)]
  congr 1
  omega

theorem prepend_returns {b : Buffer} {content : List Byte} (r : b.Represents content)
    (data : List Byte) (room : data.length ≤ b.prependableBytes) :
    Returns (fun after => after.Represents (data ++ content)) (b.prepend data) := by
  have order := r.order
  have bound := r.bound
  simp only [prepend, returns_bind, returns_ensure, returns_pure]
  refine ⟨room, ?_⟩
  simp only [prependableBytes] at room
  refine { cheap := ?_, order := by simp only; omega, bound := ?_, content_eq := ?_ }
  · simp only [store_length]; exact r.cheap
  · simp only [store_length]; exact bound
  · have start : b.readerIndex - data.length + data.length = b.readerIndex := by omega
    simp only [readable]
    rw [← slice_append _ _ b.readerIndex _ (by omega) order,
      slice_store_of_disjoint _ _ _ b.readerIndex _ (by omega) (Or.inr (by omega)), ← r.content_eq, readable]
    congr 1
    conv_lhs => rw [← start]
    rw [Nat.add_sub_cancel]
    exact slice_store _ _ _ (by omega)

end Buffer

end Rnet.File
