import Rnet.File.BufferRefinement
import Rnet.File.OwnedBuffer

/-!
# The memory of a buffer

A buffer never gives memory back by itself, and `MakeSpace` grows it only when the room before and
behind the content is too small together. So the vector is never longer than about twice the most
that was ever asked of it at once: the content, and what was to be appended to it.
-/
namespace Rnet.File

open Check Run Memory

namespace Buffer

variable {b : Buffer}

/-- The vector after room for `len` bytes more has been made. -/
def Grows (b : Buffer) (len : Nat) (after : Buffer) : Prop :=
  after.buffer.length ≤ max b.buffer.length (2 * (b.readableBytes + len) + 7)

theorem grows_of_same {len : Nat} {after : Buffer} (same : after.buffer.length = b.buffer.length) :
    b.Grows len after := by
  rw [Grows, same]
  exact Nat.le_max_left ..

/-- Where the vector grows, what lies before the content is shorter than what is to come. -/
theorem makeSpace_grows (wf : b.Wf) (len : Nat) : Yields (b.Grows len) (b.makeSpace len) := by
  have order := wf.order
  have bound := wf.bound
  unfold makeSpace
  split
  · next short =>
    refine (yields_pure ..).mpr ?_
    simp only [writableBytes, prependableBytes, kCheapPrepend] at short
    simp only [Grows, resize, List.length_append, List.length_replicate, readableBytes]
    omega
  · simp only [yields_bind, yields_ensure, yields_pure]
    exact fun _ _ => grows_of_same (copyForward_length ..)

theorem ensureWritableBytes_grows (wf : b.Wf) (len : Nat) : Yields (b.Grows len) (b.ensureWritableBytes len) := by
  unfold ensureWritableBytes
  split
  · simp only [yields_bind, yields_ensure, yields_pure]
    exact (makeSpace_grows wf len).mono fun _ grows _ => grows
  · simp only [yields_bind, yields_ensure, yields_pure]
    exact fun _ => grows_of_same rfl

theorem append_grows (wf : b.Wf) (data : List Byte) : Yields (b.Grows data.length) (b.append data) := by
  simp only [append, yields_bind]
  refine (ensureWritableBytes_grows wf data.length).mono fun roomy grows => ?_
  simp only [hasWritten, yields_bind, yields_ensure, yields_pure]
  intro _
  simpa [Grows, writeAtBeginWrite] using grows

/-- What does not fit behind the content is appended from the array on the stack. -/
theorem readFd_grows (wf : b.Wf) (data : List Byte) : Yields (b.Grows data.length) (b.readFd data) := by
  have order := wf.order
  have bound := wf.bound
  unfold readFd
  split
  · exact (yields_pure ..).mpr (grows_of_same (by simp [writeAtBeginWrite]))
  · next overflow =>
    have cheap := wf.cheap
    -- first the vector is filled to its end, then the rest is appended to that
    have full : Buffer.Wf { b.writeAtBeginWrite (data.take b.writableBytes) with
        writerIndex := (b.writeAtBeginWrite (data.take b.writableBytes)).buffer.length } := by
      refine ⟨?_, ?_, Nat.le_refl _⟩ <;> simp only [writeAtBeginWrite, store_length] <;> omega
    refine (append_grows full _).mono fun after grows => ?_
    simp only [Grows, readableBytes, writeAtBeginWrite, store_length, List.length_drop, writableBytes]
      at grows overflow ⊢
    omega

theorem retrieve_size (b : Buffer) (len : Nat) :
    Yields (fun after => after.buffer.length = b.buffer.length) (b.retrieve len) := by
  simp only [retrieve, yields_bind, yields_ensure]
  intro _
  split <;> exact (yields_pure ..).mpr rfl

theorem new_size (initialSize : Nat) :
    Yields (fun b => b.buffer.length = kCheapPrepend + initialSize) (new initialSize) := by
  simp only [new, yields_bind, yields_ensure, yields_pure, List.length_replicate, implies_true]

end Buffer

namespace OwnedBuffer

theorem new_size (initialSize : Nat) :
    (new initialSize).raw.buffer.length = Buffer.kCheapPrepend + initialSize :=
  Buffer.new_size initialSize _ (result_eq _ (Buffer.new_returns initialSize))

theorem readFd_grows (b : OwnedBuffer) (data : List Byte) :
    (b.readFd data).raw.buffer.length ≤ max b.raw.buffer.length (2 * (b.readableBytes + data.length) + 7) :=
  Buffer.readFd_grows b.wf data _ (result_eq _ (Buffer.readFd_returns b.wf.represents data))

theorem retrieve_size (b : OwnedBuffer) {len : Nat} {after : OwnedBuffer} (within : len ≤ b.readableBytes)
    (retrieved : b.retrieve len = .ok after) : after.raw.buffer.length = b.raw.buffer.length := by
  have inside : len ≤ b.raw.readableBytes := within
  rw [retrieve, dif_pos inside] at retrieved
  cases retrieved
  exact b.raw.retrieve_size len _ (result_eq _ (Buffer.retrieve_returns b.wf.represents len inside))

end OwnedBuffer

/-! ### Sessions -/

/-- What the call asks of the buffer: the content, and what is to be appended. -/
def BufferOp.demand (s : Session) : BufferOp → Nat
  | .append data => s.buffer.readableBytes + data.length
  | .ensureWritableBytes len => s.buffer.readableBytes + len
  | _ => 0

theorem step_grows {s : Session} (wf : s.buffer.Wf) (op : BufferOp) :
    Yields (fun t => t.buffer.buffer.length ≤ max s.buffer.buffer.length (2 * op.demand s + 7)) (s.step op) := by
  -- the calls that leave the length alone
  have updated {call : Comp BufferAssert Buffer} {n : Nat}
      (size : Yields (fun b => b.buffer.length = s.buffer.buffer.length) call) :
      Yields (fun t => t.buffer.buffer.length ≤ max s.buffer.buffer.length n) (s.update call) := by
    simp only [Session.update, yields_bind, yields_pure]
    exact size.mono fun b same => same.le.trans (Nat.le_max_left ..)
  have taken {len n : Nat} :
      Yields (fun t => t.buffer.buffer.length ≤ max s.buffer.buffer.length n)
        (s.take (s.buffer.retrieveAsString len)) := by
    simp only [Session.take, Buffer.retrieveAsString, yields_bind, yields_ensure, yields_pure]
    exact fun _ => (s.buffer.retrieve_size len).mono fun b same => same.le.trans (Nat.le_max_left ..)
  cases op with
  | append data =>
    simp only [Session.step, Session.update, yields_bind, yields_pure]
    exact Buffer.append_grows wf data
  | ensureWritableBytes len =>
    simp only [Session.step, Session.update, yields_bind, yields_pure]
    exact Buffer.ensureWritableBytes_grows wf len
  | retrieve len => exact updated (s.buffer.retrieve_size len)
  | retrieveUntil offset =>
    refine updated ?_
    simp only [Buffer.retrieveUntil, yields_bind, yields_ensure]
    exact fun _ _ => s.buffer.retrieve_size _
  | retrieveAsString len => exact taken
  | retrieveAllAsString => exact taken
  | retrieveAll => exact updated ((yields_pure ..).mpr rfl)
  | prepend data =>
    refine updated ?_
    simp only [Buffer.prepend, yields_bind, yields_ensure, yields_pure, store_length, implies_true]
  | write data len =>
    refine updated ?_
    simp only [Buffer.hasWritten, yields_bind, yields_ensure, yields_pure]
    exact fun _ => by simp [Buffer.writeAtBeginWrite]
  | unwrite len =>
    refine updated ?_
    simp only [Buffer.unwrite, yields_bind, yields_ensure, yields_pure, implies_true]

/-- One byte less than `most` comes, all but one go, and as many come again: the bound is nearly
reached. -/
def twiceFilled : List BufferOp := [.append [1, 2, 3, 4], .retrieve 3, .append [5, 6, 7, 8]]

end Rnet.File
