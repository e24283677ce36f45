import Rnet.Lib.Run
import Rnet.File.ConnBuffer

/-!
# The buffer is a byte string

`Text` is what a buffer is for: a string that grows and shrinks at both ends. A session calls
the operations of the buffer one after another, each within the precondition its assert
states; `session_refines` shows that it always returns and always stands for the string.
-/
namespace Rnet.File

open Check Run Memory

inductive BufferOp where
  | append (data : List Byte)
  | retrieve (len : Nat)
  /-- The pointer passed is `Peek() + offset`. -/
  | retrieveUntil (offset : Nat)
  | retrieveAsString (len : Nat)
  | retrieveAllAsString
  | retrieveAll
  | prepend (data : List Byte)
  | ensureWritableBytes (len : Nat)
  /-- `data` is written at `BeginWrite()`, then `HasWritten(len)` is called. -/
  | write (data : List Byte) (len : Nat)
  | unwrite (len : Nat)
  deriving DecidableEq, Repr

/-- A buffer with the strings its operations have returned. -/
structure Session where
  buffer : Buffer
  taken : List (List Byte)
  deriving DecidableEq, Repr

/-- The calls that stay within the asserted preconditions. -/
def BufferOp.Allowed (s : Session) : BufferOp → Prop
  | .append _ | .retrieveAllAsString | .retrieveAll | .ensureWritableBytes _ => True
  | .retrieve len | .retrieveUntil len | .retrieveAsString len | .unwrite len =>
    len ≤ s.buffer.readableBytes
  | .prepend data => data.length ≤ s.buffer.prependableBytes
  | .write data len => data.length ≤ s.buffer.writableBytes ∧ len ≤ data.length

instance BufferOp.allowedDecidable (s : Session) (op : BufferOp) : Decidable (op.Allowed s) := by
  cases op <;> unfold BufferOp.Allowed <;> infer_instance

def Session.update (s : Session) (call : Comp BufferAssert Buffer) : Comp BufferAssert Session := do
  let b ← call
  return { s with buffer := b }

def Session.take (s : Session) (call : Comp BufferAssert (Buffer × List Byte)) :
    Comp BufferAssert Session := do
  let (b, text) ← call
  return ⟨b, s.taken ++ [text]⟩

def Session.step (s : Session) : BufferOp → Comp BufferAssert Session
  | .append data => s.update (s.buffer.append data)
  | .retrieve len => s.update (s.buffer.retrieve len)
  | .retrieveUntil offset => s.update (s.buffer.retrieveUntil (s.buffer.peek + offset))
  | .retrieveAsString len => s.take (s.buffer.retrieveAsString len)
  | .retrieveAllAsString => s.take s.buffer.retrieveAllAsString
  | .retrieveAll => s.update (pure s.buffer.retrieveAll)
  | .prepend data => s.update (s.buffer.prepend data)
  | .ensureWritableBytes len => s.update (s.buffer.ensureWritableBytes len)
  | .write data len => s.update ((s.buffer.writeAtBeginWrite data).hasWritten len)
  | .unwrite len => s.update (s.buffer.unwrite len)

/-- Construct a buffer and run the operations on it. -/
def session (initialSize : Nat) (ops : List BufferOp) : Comp BufferAssert Session := do
  let b ← Buffer.new initialSize
  exec Session.step ⟨b, []⟩ ops

/-! ### The abstract string -/

structure Text where
  content : List Byte
  taken : List (List Byte)
  prepended : Bool
  deriving DecidableEq, Repr

def Text.empty : Text := ⟨[], [], false⟩

def Text.step (t : Text) : BufferOp → Text
  | .append data => { t with content := t.content ++ data }
  | .retrieve len | .retrieveUntil len => { t with content := t.content.drop len }
  | .retrieveAsString len =>
    { t with content := t.content.drop len, taken := t.taken ++ [t.content.take len] }
  | .retrieveAllAsString => { t with content := [], taken := t.taken ++ [t.content] }
  | .retrieveAll => { t with content := [] }
  | .prepend data => { t with content := data ++ t.content, prepended := true }
  | .ensureWritableBytes _ => t
  | .write data len => { t with content := t.content ++ data.take len }
  | .unwrite len => { t with content := t.content.take (t.content.length - len) }

def BufferOp.isPrepend : BufferOp → Bool
  | .prepend _ => true
  | _ => false

theorem step_prepended (t : Text) (op : BufferOp) :
    (t.step op).prepended = (t.prepended || op.isPrepend) := by
  cases op <;> simp [Text.step, BufferOp.isPrepend]

theorem run_prepended (t : Text) (ops : List BufferOp) :
    (ops.foldl Text.step t).prepended = (t.prepended || ops.any BufferOp.isPrepend) := by
  induction ops generalizing t with
  | nil => simp
  | cons op rest ih => rw [List.foldl_cons, ih, step_prepended, List.any_cons, Bool.or_assoc]

/-! ### The simulation -/

structure Simulates (s : Session) (t : Text) : Prop where
  represents : s.buffer.Represents t.content
  taken : s.taken = t.taken
  cheap : t.prepended = false → Buffer.kCheapPrepend ≤ s.buffer.prependableBytes

/-- An operation that changes only the content is matched once its buffer call is. -/
private theorem update_simulates {s : Session} {t : Text} (sim : Simulates s t) (content : List Byte)
    (call : Comp BufferAssert Buffer)
    (spec : Returns (fun b => b.Represents content ∧ s.buffer.KeepsCheap b) call) :
    Returns (fun s' => Simulates s' { t with content := content }) (s.update call) := by
  refine spec.bind ?_
  rintro b ⟨represents, cheap⟩
  exact ⟨represents, sim.taken, fun untaken => cheap (sim.cheap untaken)⟩

private theorem take_simulates {s : Session} {t : Text} (sim : Simulates s t) (content text : List Byte)
    (call : Comp BufferAssert (Buffer × List Byte))
    (spec : Returns (fun r => r.1.Represents content ∧ s.buffer.KeepsCheap r.1 ∧ r.2 = text) call) :
    Returns (fun s' => Simulates s' { t with content := content, taken := t.taken ++ [text] })
      (s.take call) := by
  refine spec.bind ?_
  rintro ⟨b, returned⟩ ⟨represents, cheap, rfl⟩
  exact ⟨represents, by rw [sim.taken], fun untaken => cheap (sim.cheap untaken)⟩

theorem step_simulates (s : Session) (t : Text) (op : BufferOp) (sim : Simulates s t)
    (allowed : op.Allowed s) : Returns (fun s' => Simulates s' (t.step op)) (s.step op) := by
  have rep := sim.represents
  have size := rep.length
  cases op with
  | append data => exact update_simulates sim _ _ (Buffer.append_returns rep data)
  | retrieve len => exact update_simulates sim _ _ (Buffer.retrieve_returns rep len allowed)
  | retrieveUntil offset =>
    have order := rep.order
    simp only [BufferOp.Allowed, Buffer.readableBytes] at allowed
    have spec := Buffer.retrieveUntil_returns rep (s.buffer.peek + offset) (Nat.le_add_right _ _)
      (by simp only [Buffer.peek, Buffer.beginWrite]; omega)
    rw [Nat.add_sub_cancel_left] at spec
    exact update_simulates sim _ _ spec
  | retrieveAsString len =>
    exact take_simulates sim _ _ _ (Buffer.retrieveAsString_returns rep len allowed)
  | retrieveAllAsString =>
    have spec := Buffer.retrieveAsString_returns rep _ (Nat.le_refl _)
    rw [← size, List.drop_length, List.take_length, size] at spec
    exact take_simulates sim _ _ _ spec
  | retrieveAll =>
    exact update_simulates sim _ _ ⟨Buffer.retrieveAll_represents rep.toWf, fun _ => Nat.le_refl _⟩
  | prepend data =>
    refine (Buffer.prepend_returns rep data allowed).bind ?_
    intro b represents
    exact ⟨represents, sim.taken, by rintro ⟨⟩⟩
  | ensureWritableBytes len =>
    refine update_simulates sim _ _ ((Buffer.ensureWritableBytes_returns rep len).mono ?_)
    exact fun _ spec => ⟨spec.1, spec.2.2⟩
  | write data len =>
    exact update_simulates sim _ _ (Buffer.writeHasWritten_returns rep data allowed.1 len allowed.2)
  | unwrite len => exact update_simulates sim _ _ (Buffer.unwrite_returns rep len allowed)

theorem session_simulates (initialSize : Nat) (ops : List BufferOp)
    (allowed : ∀ b, Buffer.new initialSize = .ok b →
      Meets Session.step (fun s op => op.Allowed s) ⟨b, []⟩ ops) :
    Returns (fun s => Simulates s (ops.foldl Text.step Text.empty)) (session initialSize ops) := by
  obtain ⟨b, constructed, represents, cheap⟩ := (Buffer.new_returns initialSize).exists
  have start : Simulates ⟨b, []⟩ Text.empty := ⟨represents, rfl, fun _ => cheap⟩
  have run := exec_refines step_simulates ⟨b, []⟩ Text.empty ops start (allowed b constructed)
  simp only [session, constructed]
  exact run

/-- Without a prepend the cheap-prepend room is there. -/
theorem Simulates.room {s : Session} {ops : List BufferOp}
    (sim : Simulates s (ops.foldl Text.step Text.empty)) (absent : ops.any BufferOp.isPrepend = false) :
    Buffer.kCheapPrepend ≤ s.buffer.prependableBytes := by
  apply sim.cheap
  rw [run_prepended, absent]
  rfl

/-- Every sequence of calls within the asserted preconditions returns: no assert of the class
fails. The indices stay ordered inside the vector, the bytes between them are the abstract
string, and as long as nothing was prepended the cheap-prepend room is there. -/
theorem session_refines (initialSize : Nat) (ops : List BufferOp)
    (allowed : ∀ b, Buffer.new initialSize = .ok b →
      Meets Session.step (fun s op => op.Allowed s) ⟨b, []⟩ ops) :
    Returns (fun s =>
      Buffer.kCheapPrepend ≤ s.buffer.buffer.length ∧
      s.buffer.readerIndex ≤ s.buffer.writerIndex ∧
      s.buffer.writerIndex ≤ s.buffer.buffer.length ∧
      s.buffer.readable = (ops.foldl Text.step Text.empty).content ∧
      s.taken = (ops.foldl Text.step Text.empty).taken ∧
      (ops.any BufferOp.isPrepend = false → Buffer.kCheapPrepend ≤ s.buffer.prependableBytes))
      (session initialSize ops) := by
  refine (session_simulates initialSize ops allowed).mono ?_
  intro s sim
  exact ⟨sim.represents.cheap, sim.represents.order, sim.represents.bound, sim.represents.content_eq,
    sim.taken, sim.room⟩

/-- Six bytes into room for four (growth), two out, two in (the remaining four move two places
to the front, over themselves), one prepended, two taken back from the end. -/
def compactingCalls : List BufferOp :=
  [.append [1, 2, 3, 4, 5, 6], .retrieve 2, .append [7, 8], .retrieveUntil 1, .prepend [0],
   .unwrite 2, .retrieveAsString 2]

theorem session_refines_compacting :
    ∃ s, session 4 compactingCalls = .ok s ∧ s.buffer.readable = [5, 6] ∧ s.taken = [[0, 4]] := by
  have allowed : ∀ b, Buffer.new 4 = .ok b →
      Meets Session.step (fun s op => op.Allowed s) ⟨b, []⟩ compactingCalls := by
    intro b constructed
    cases constructed
    decide
  obtain ⟨s, returned, _, _, _, content, taken, _⟩ := (session_refines 4 compactingCalls allowed).exists
  exact ⟨s, returned, content, taken⟩

end Rnet.File
