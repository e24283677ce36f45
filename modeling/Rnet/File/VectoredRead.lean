import Rnet.File.BufferRefinement
import Rnet.File.OwnedBuffer

/-!
# Reading into a buffer and an array on the stack

`Buffer.readFd` is what `ReadFd` does with the bytes it was delivered. Here is `ReadFd` itself,
with the two vectors it passes to `readv(2)`: the end of the buffer, and `extrabuf` where that end
is shorter than `extrabuf`. The kernel fills the first vector before the second.
-/
namespace Rnet.File

open Check Memory

/-- What `readv(2)` returns, the bytes it has stored and the `errno` it has set. -/
structure ReadvAnswer where
  n : Int
  data : List Byte
  errno : Errno
  deriving DecidableEq, Repr

inductive ReadFault where
  | assert (a : BufferAssert)
  /-- `Append` reads behind `extrabuf`. -/
  | pastExtrabuf
  deriving DecidableEq, Repr

/-- What `ReadFd` leaves: the buffer, `*savedErrno` and the value it returns. -/
structure ReadFdResult where
  buffer : Buffer
  savedErrno : Option Errno
  n : Int
  deriving DecidableEq, Repr

namespace Vectored

open Buffer (kExtraBuf)

def iovcnt (b : Buffer) : Nat := if b.writableBytes < kExtraBuf then 2 else 1

/-- The lengths of `vec[0]` and `vec[1]`. -/
def iovLen (b : Buffer) : List Nat := [b.writableBytes, kExtraBuf]

/-- The bytes stored fit into the vectors that were passed, and `n` of them were delivered. -/
def ReadvAnswer.Possible (b : Buffer) (answer : ReadvAnswer) : Prop :=
  answer.data.length ≤ ((iovLen b).take (iovcnt b)).sum ∧ (0 ≤ answer.n → answer.n = answer.data.length)

instance (b : Buffer) (answer : ReadvAnswer) : Decidable (ReadvAnswer.Possible b answer) :=
  inferInstanceAs (Decidable (_ ∧ _))

/-- The vectors after `readv(2)`. -/
def readv (b : Buffer) (extrabuf data : List Byte) : Buffer × List Byte :=
  (b.writeAtBeginWrite (data.take b.writableBytes), store extrabuf 0 (data.drop b.writableBytes))

def readFd (b : Buffer) (extrabuf : List Byte) (savedErrno : Option Errno) (answer : ReadvAnswer) :
    Comp ReadFault ReadFdResult :=
  let writable := b.writableBytes
  let (b, extrabuf) := readv b extrabuf answer.data
  let n := answer.n
  if n < 0 then
    return ⟨b, some answer.errno, n⟩
  else if n.toNat ≤ writable then
    return ⟨{ b with writerIndex := b.writerIndex + n.toNat }, savedErrno, n⟩
  else do
    -- the buffer is full; the rest is appended from the array
    ensure .pastExtrabuf (n.toNat - writable ≤ extrabuf.length)
    let b ← lift .assert
      (Buffer.append { b with writerIndex := b.buffer.length } (slice extrabuf 0 (n.toNat - writable)))
    return ⟨b, savedErrno, n⟩

variable {b : Buffer} {extrabuf : List Byte} {answer : ReadvAnswer}

theorem sum_iovLen (b : Buffer) : ((iovLen b).take (iovcnt b)).sum = b.readCapacity := by
  rw [iovcnt, iovLen, Buffer.readCapacity]
  split <;> simp

theorem ReadvAnswer.Possible.count (possible : ReadvAnswer.Possible b answer) (read : 0 ≤ answer.n) :
    answer.n.toNat = answer.data.length := by
  have same := possible.2 read
  omega

/-- More than the room in the buffer comes only where `extrabuf` was passed, and it fits there. -/
theorem ReadvAnswer.Possible.overflow (possible : ReadvAnswer.Possible b answer)
    (more : b.writableBytes < answer.data.length) :
    iovcnt b = 2 ∧ answer.data.length - b.writableBytes ≤ kExtraBuf := by
  have fits := possible.1
  rw [sum_iovLen, Buffer.readCapacity] at fits
  split at fits
  next small => exact ⟨if_pos small, by omega⟩
  next => omega

/-- An error leaves the buffer as it is, whatever the kernel has stored behind the content. -/
theorem readFd_failed (wf : b.Wf) (savedErrno : Option Errno) (failed : answer.n < 0) :
    Returns (fun r => r.n = answer.n ∧ r.savedErrno = some answer.errno ∧
      r.buffer.readerIndex = b.readerIndex ∧ r.buffer.writerIndex = b.writerIndex ∧
      r.buffer.Represents b.readable) (readFd b extrabuf savedErrno answer) := by
  have room : (answer.data.take b.writableBytes).length ≤ b.writableBytes := List.length_take_le _ _
  simp only [readFd, readv, if_pos failed, returns_pure]
  exact ⟨trivial, trivial, rfl, rfl, Buffer.writeAtBeginWrite_represents wf.represents _ room⟩

/-- Where bytes were delivered, `ReadFd` does what `Buffer.readFd` does with them. -/
theorem readFd_delivered (possible : ReadvAnswer.Possible b answer) (size : extrabuf.length = kExtraBuf)
    (savedErrno : Option Errno) (read : 0 ≤ answer.n) :
    readFd b extrabuf savedErrno answer =
      lift .assert (b.readFd answer.data) >>= fun after => pure ⟨after, savedErrno, answer.n⟩ := by
  have count := possible.count read
  simp only [readFd, readv, if_neg (Int.not_lt.mpr read), count, Buffer.readFd]
  by_cases fits : answer.data.length ≤ b.writableBytes
  · rw [if_pos fits, if_pos fits, List.take_of_length_le fits]
    rfl
  · rw [if_neg fits, if_neg fits]
    have bound := (possible.overflow (Nat.lt_of_not_le fits)).2
    have rest : (answer.data.drop b.writableBytes).length = answer.data.length - b.writableBytes :=
      List.length_drop
    -- what `Append` reads from the array is what the kernel has put there
    have stored : slice (store extrabuf 0 (answer.data.drop b.writableBytes)) 0
        (answer.data.length - b.writableBytes) = answer.data.drop b.writableBytes := by
      have filled := slice_store extrabuf 0 (answer.data.drop b.writableBytes) (by omega)
      rw [Nat.zero_add, rest] at filled
      exact filled
    have inside : answer.data.length - b.writableBytes ≤
        (store extrabuf 0 (answer.data.drop b.writableBytes)).length := by
      rw [store_length, size]
      exact bound
    rw [stored, ensure, if_pos inside]
    rfl

/-- What `ReadFd` is to leave for an answer of the kernel. -/
structure Appends (b : Buffer) (savedErrno : Option Errno) (answer : ReadvAnswer) (r : ReadFdResult) : Prop where
  returned : r.n = answer.n
  invariant : r.buffer.Wf
  read : 0 ≤ answer.n →
    r.buffer.readable = b.readable ++ answer.data.take answer.n.toNat ∧ r.savedErrno = savedErrno
  failed : answer.n < 0 →
    r.buffer.readerIndex = b.readerIndex ∧ r.buffer.writerIndex = b.writerIndex ∧
      r.buffer.readable = b.readable ∧ r.savedErrno = some answer.errno

/-- For every buffer and every answer of `readv(2)`, `ReadFd` returns what the kernel returned. Delivered
bytes are appended in order; an error leaves the indices and the content and is saved. More than the room
in the buffer is read only where both vectors were passed, and then from inside `extrabuf`. -/
theorem readFd_appends (b : Buffer) (wf : b.Wf) (extrabuf : List Byte) (size : extrabuf.length = kExtraBuf)
    (savedErrno : Option Errno) (answer : ReadvAnswer) (possible : ReadvAnswer.Possible b answer) :
    Returns (Appends b savedErrno answer) (readFd b extrabuf savedErrno answer) ∧
      (b.writableBytes < answer.n.toNat →
        iovcnt b = 2 ∧ answer.n.toNat - b.writableBytes ≤ extrabuf.length) := by
  by_cases read : 0 ≤ answer.n
  · have count := possible.count read
    constructor
    · rw [readFd_delivered possible size savedErrno read]
      simp only [returns_bind, returns_lift, returns_pure]
      refine (Buffer.readFd_returns wf.represents answer.data).mono fun after represents => ?_
      refine ⟨rfl, represents.toWf, fun _ => ⟨?_, rfl⟩, fun failed => absurd read (Int.not_le.mpr failed)⟩
      rw [count, List.take_length]
      exact represents.content_eq
    · rw [count, size]
      exact possible.overflow
  · -- a negative result is no length, so nothing can be asked of `extrabuf`
    have failed : answer.n < 0 := Int.not_le.mp read
    constructor
    · refine (readFd_failed wf savedErrno failed).mono ?_
      rintro r ⟨returned, saved, reader, writer, represents⟩
      exact ⟨returned, represents.toWf, fun read' => absurd read' read,
        fun _ => ⟨reader, writer, represents.content_eq, saved⟩⟩
    · omega

/-- A buffer with two bytes to read and room for three more, and an answer of five bytes. -/
def tight : Buffer := ⟨[0, 0, 0, 0, 0, 0, 0, 0, 1, 2, 0, 0, 0], 8, 10⟩

def fiveBytes : ReadvAnswer := ⟨5, [3, 4, 5, 6, 7], .other 0⟩

theorem readFd_appends_tight :
    tight.writableBytes < fiveBytes.n.toNat ∧
    ∃ r, readFd tight (List.replicate kExtraBuf 0) none fiveBytes = .ok r ∧
      r.buffer.readable = [1, 2, 3, 4, 5, 6, 7] := by
  have wf : tight.Wf := ⟨by decide, by decide, by decide⟩
  have appends := readFd_appends tight wf (List.replicate kExtraBuf 0) List.length_replicate none fiveBytes
    (by decide)
  -- the array is not to be evaluated
  generalize readFd tight (List.replicate kExtraBuf 0) none fiveBytes = call at appends ⊢
  obtain ⟨r, returned, appended⟩ := appends.1.exists
  exact ⟨by decide, r, returned, (appended.read (by decide)).1⟩

end Vectored

end Rnet.File
