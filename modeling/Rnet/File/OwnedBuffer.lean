import Rnet.File.ConnBuffer

/-!
# Buffers with their index invariant

A connection owns its two buffers and only calls their operations, so they never leave the
invariant of `Buffer`. `OwnedBuffer` carries it, and its operations are those of `Buffer` with
the content they leave as their specification.
-/
namespace Rnet

/-- The values of `errno` the library tells apart. -/
inductive Errno where
  | ewouldblock
  | epipe
  | econnreset
  | other (code : Nat)
  deriving DecidableEq, Repr

namespace File

open Check Memory

namespace Buffer

/-- `sizeof extrabuf`. -/
def kExtraBuf : Nat := 65536

/-- The length of the vectors `ReadFd` passes to `readv(2)`: the room in the buffer, and the
array on the stack where that room is smaller than the array. -/
def readCapacity (b : Buffer) : Nat :=
  b.writableBytes + if b.writableBytes < kExtraBuf then kExtraBuf else 0

/-- `ReadFd` after `readv(2)` has delivered `data`, the first vector filled first. -/
def readFd (b : Buffer) (data : List Byte) : Comp BufferAssert Buffer :=
  if data.length ≤ b.writableBytes then
    return { b.writeAtBeginWrite data with writerIndex := b.writerIndex + data.length }
  else
    -- the buffer is full up to its end, the rest lies in `extrabuf`
    let full := b.writeAtBeginWrite (data.take b.writableBytes)
    Buffer.append { full with writerIndex := full.buffer.length } (data.drop b.writableBytes)

theorem readFd_returns {b : Buffer} {content : List Byte} (r : b.Represents content)
    (data : List Byte) :
    Returns (fun after => after.Represents (content ++ data)) (b.readFd data) := by
  unfold readFd
  split
  next fits =>
    have written := writeHasWritten_returns r data fits data.length (Nat.le_refl _)
    rw [List.take_length] at written
    simp only [hasWritten, returns_bind, returns_ensure, returns_pure] at written
    exact written.2.1
  next overflow =>
    have bound := r.bound
    have room : (data.take b.writableBytes).length = b.writableBytes := by
      rw [List.length_take]
      omega
    -- filling the first vector is a write of all the room there is
    have filled := writeHasWritten_returns r (data.take b.writableBytes) (Nat.le_of_eq room)
      b.writableBytes (Nat.le_of_eq room.symm)
    simp only [hasWritten, returns_bind, returns_ensure, returns_pure, List.take_take,
      Nat.min_self] at filled
    have last : (b.writeAtBeginWrite (data.take b.writableBytes)).writerIndex + b.writableBytes =
        (b.writeAtBeginWrite (data.take b.writableBytes)).buffer.length := by
      simp only [writeAtBeginWrite, store_length, writableBytes]
      omega
    rw [last] at filled
    refine (append_returns filled.2.1 (data.drop b.writableBytes)).mono ?_
    rintro after ⟨represents, _⟩
    rwa [List.append_assoc, List.take_append_drop] at represents

end Buffer

/-- A buffer that keeps its index invariant. -/
structure OwnedBuffer where
  raw : Buffer
  wf : raw.Wf

namespace OwnedBuffer

/-- The bytes that can be read. -/
def content (b : OwnedBuffer) : List Byte := b.raw.readable

def readableBytes (b : OwnedBuffer) : Nat := b.raw.readableBytes

@[simp] theorem content_length (b : OwnedBuffer) : b.content.length = b.readableBytes :=
  b.wf.represents.length

def new (initialSize : Nat) : OwnedBuffer :=
  ⟨result (Buffer.new initialSize) (Buffer.new_returns initialSize),
    (result_spec (Buffer.new initialSize) (Buffer.new_returns initialSize)).1.toWf⟩

@[simp] theorem content_new (initialSize : Nat) : (new initialSize).content = [] :=
  (result_spec (Buffer.new initialSize) (Buffer.new_returns initialSize)).1.content_eq

def append (b : OwnedBuffer) (data : List Byte) : OwnedBuffer :=
  ⟨result (b.raw.append data) (Buffer.append_returns b.wf.represents data),
    (result_spec _ (Buffer.append_returns b.wf.represents data)).1.toWf⟩

@[simp] theorem content_append (b : OwnedBuffer) (data : List Byte) :
    (b.append data).content = b.content ++ data :=
  (result_spec _ (Buffer.append_returns b.wf.represents data)).1.content_eq

/-- The assert of `Retrieve` stays with the caller. -/
def retrieve (b : OwnedBuffer) (len : Nat) : Comp BufferAssert OwnedBuffer :=
  if within : len ≤ b.raw.readableBytes then
    .ok ⟨result (b.raw.retrieve len) (Buffer.retrieve_returns b.wf.represents len within),
      (result_spec _ (Buffer.retrieve_returns b.wf.represents len within)).1.toWf⟩
  else
    .error (.fault .retrieve)

theorem retrieve_returns (b : OwnedBuffer) (len : Nat) (within : len ≤ b.readableBytes) :
    Returns (fun after => after.content = b.content.drop len) (b.retrieve len) := by
  have inside : len ≤ b.raw.readableBytes := within
  rw [retrieve, dif_pos inside]
  exact (result_spec _ (Buffer.retrieve_returns b.wf.represents len inside)).1.content_eq

def retrieveAll (b : OwnedBuffer) : OwnedBuffer :=
  ⟨b.raw.retrieveAll, (Buffer.retrieveAll_represents b.wf).toWf⟩

/-- The buffer that is left, and the string. -/
def retrieveAllAsString (b : OwnedBuffer) : OwnedBuffer × List Byte :=
  (⟨(result _ (Buffer.retrieveAsString_returns b.wf.represents _ (Nat.le_refl _))).1,
    (result_spec _ (Buffer.retrieveAsString_returns b.wf.represents _ (Nat.le_refl _))).1.toWf⟩,
    (result _ (Buffer.retrieveAsString_returns b.wf.represents _ (Nat.le_refl _))).2)

/-- The string is the content to its end. -/
theorem retrieveAllAsString_string (b : OwnedBuffer) : b.retrieveAllAsString.2 = b.content := by
  have spec := result_spec _ (Buffer.retrieveAsString_returns b.wf.represents _ (Nat.le_refl _))
  exact spec.2.2.trans (List.take_of_length_le (Nat.le_of_eq b.wf.represents.length))

def readFd (b : OwnedBuffer) (data : List Byte) : OwnedBuffer :=
  ⟨result (b.raw.readFd data) (Buffer.readFd_returns b.wf.represents data),
    (result_spec _ (Buffer.readFd_returns b.wf.represents data)).toWf⟩

@[simp] theorem content_readFd (b : OwnedBuffer) (data : List Byte) :
    (b.readFd data).content = b.content ++ data :=
  (result_spec _ (Buffer.readFd_returns b.wf.represents data)).content_eq

end OwnedBuffer

end File

end Rnet
