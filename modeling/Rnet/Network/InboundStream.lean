import Rnet.File.BufferMemory
import Rnet.Network.ConnectionEffect

/-!
# The incoming half of a connection

What `HandleRead` takes from the socket goes through `inputBuffer_` to the user. `Endpoint` is a
connection watched from both sides of that buffer: the bytes `readv(2)` has delivered, and the
bytes user code has taken out. Nothing else that a step may do touches the buffer; between the two
sides nothing is lost, repeated or moved.
-/
namespace Rnet.Network

open Check File

namespace Connection

/-- The bytes the kernel hands over in the step, none at the end of the stream. -/
def reads (s : Connection) : Action → Option (List Byte)
  | .resume (.delivered data) _ =>
    if s.todo.head? = some .handleRead ∧ s.channel.readable = true then some data else none
  | _ => none

/-- The bytes user code takes out of `inputBuffer_` in the step. -/
def retrieves (s : Connection) : Action → List Byte
  | .retrieveInput len => s.inputBuffer.content.take len
  | _ => []

/-! ### What goes in and what comes out -/

/-- What the step does to the input buffer. -/
inductive Feeds (s : Connection) (a : Action) : OwnedBuffer → Prop where
  | keep : s.reads a = none → s.retrieves a = [] → Feeds s a s.inputBuffer
  | read (data : List Byte) : s.reads a = some data → s.retrieves a = [] → Feeds s a (s.inputBuffer.readFd data)
  | retrieve (len : Nat) (after : OwnedBuffer) : s.reads a = none →
    s.retrieves a = s.inputBuffer.content.take len → len ≤ s.inputBuffer.readableBytes →
    s.inputBuffer.retrieve len = .ok after → Feeds s a after

/-- Only `HandleRead` reads. -/
theorem reads_eq_none {s : Connection} {task : ConnTask} {rest : List ConnTask} (top : s.todo = task :: rest)
    (other : task ≠ .handleRead) (read : ReadResult) (answer : WriteResult) :
    s.reads (.resume read answer) = none := by
  cases read with
  | delivered data => simp [reads, top, other]
  | failed => rfl

theorem Effect.feeds {s t : Connection} {a : Action} (effect : s.Effect a t) : s.Feeds a t.inputBuffer := by
  have touched {u v : Connection} (touches : Touches u v) (same : u.inputBuffer = s.inputBuffer)
      (unread : s.reads a = none) (untaken : s.retrieves a = []) : s.Feeds a v.inputBuffer := by
    rw [touches.inputBuffer, same]
    exact .keep unread untaken
  cases effect with
  | sendNow _ _ _ _ _ _ sends => exact touched sends.touches rfl rfl rfl
  | shutdownNow => exact touched (shutdownInLoop_touches _) rfl rfl rfl
  | readNow _ _ _ sets => exact touched sets.touches rfl rfl rfl
  | runSend _ _ _ _ _ sends => exact touched sends.touches rfl rfl rfl
  | runShutdown => exact touched (shutdownInLoop_touches _) rfl rfl rfl
  | runRead _ _ _ _ _ _ sets => exact touched sets.touches rfl rfl rfl
  | write read answer _ after top _ writes =>
    have fed : s.Feeds (.resume read answer) after.inputBuffer :=
      touched writes.touches rfl (reads_eq_none top (by decide) read answer) rfl
    exact fed
  | leave read answer _ top | establish read answer _ top | reportClose read answer _ top
  | releaseHere read answer _ top | remove read answer _ top | passWrite read answer _ top =>
    exact .keep (reads_eq_none top (by decide) read answer) rfl
  | passRead read answer _ top unread =>
    refine .keep ?_ rfl
    rcases unread with unreadable | ⟨errno, rfl⟩
    · cases read <;> simp [reads, unreadable]
    · rfl
  | read data answer _ top readable => exact .read data (by simp [reads, top, readable]) rfl
  | readEnd answer _ top readable => exact .read [] (by simp [reads, top, readable]) rfl
  | retrieve len out within taken => exact .retrieve len out rfl rfl within taken
  | ignore | forceCloseNow | ignoreCall | sendLater | shutdownLater | forceCloseLater | readLater | push | poll
  | report | dispatch | hangUp | swap | finish | runEstablished | runDestroyed | runRemoved | runForceClose
  | passForceClose | notify | release => exact .keep rfl rfl

/-- What is retrieved comes from the front, and what is read goes behind the rest. -/
theorem Feeds.content {s : Connection} {a : Action} {after : OwnedBuffer} (feeds : s.Feeds a after) :
    s.inputBuffer.content ++ (s.reads a).getD [] = s.retrieves a ++ after.content := by
  cases feeds with
  | keep unread untaken => simp [unread, untaken]
  | read data read untaken => simp [read, untaken]
  | retrieve len after unread taken within retrieved =>
    have left : after.content = s.inputBuffer.content.drop len :=
      (OwnedBuffer.retrieve_returns s.inputBuffer len within).safe.result retrieved
    simp [unread, taken, left]

theorem Feeds.memory {s : Connection} {a : Action} {after : OwnedBuffer} (feeds : s.Feeds a after) :
    after.raw.buffer.length ≤ max s.inputBuffer.raw.buffer.length (2 * after.readableBytes + 7) := by
  cases feeds with
  | keep => exact Nat.le_max_left ..
  | read data =>
    -- the bound of the buffer is about what is in it after the read
    have content := congrArg List.length (OwnedBuffer.content_readFd s.inputBuffer data)
    rw [List.length_append, OwnedBuffer.content_length, OwnedBuffer.content_length] at content
    rw [content]
    exact s.inputBuffer.readFd_grows data
  | retrieve len after _ _ within retrieved =>
    rw [s.inputBuffer.retrieve_size within retrieved]
    exact Nat.le_max_left ..

end Connection

/-- A connection and what has passed through its input buffer. -/
structure Endpoint where
  conn : Connection
  /-- What `readv(2)` has delivered. -/
  delivered : List Byte
  /-- What user code has taken out. -/
  retrieved : List Byte
  /-- A `readv(2)` has returned 0. -/
  eof : Bool
  /-- The most bytes that have waited in the input buffer. -/
  peak : Nat

namespace Endpoint

def start (cfg : ConnConfig) : Endpoint := ⟨.start cfg, [], [], false, 0⟩

def step (alive : Bool) (e : Endpoint) (a : Connection.Action) : Comp ConnFault Endpoint := do
  let conn ← e.conn.step alive a
  return {
    conn := conn
    delivered := e.delivered ++ (e.conn.reads a).getD []
    retrieved := e.retrieved ++ e.conn.retrieves a
    eof := e.eof || e.conn.reads a == some []
    peak := max e.peak conn.inputBuffer.readableBytes }

/-- What a step of a watched connection is. -/
structure Moved (alive : Bool) (e : Endpoint) (a : Connection.Action) (e' : Endpoint) : Prop where
  conn : e.conn.step alive a = .ok e'.conn
  delivered : e'.delivered = e.delivered ++ (e.conn.reads a).getD []
  retrieved : e'.retrieved = e.retrieved ++ e.conn.retrieves a
  eof : e'.eof = (e.eof || e.conn.reads a == some [])
  peak : e'.peak = max e.peak e'.conn.inputBuffer.readableBytes

theorem step_moved (alive : Bool) (e : Endpoint) (a : Connection.Action) :
    Yields (e.Moved alive a) (e.step alive a) := by
  simp only [step, yields_bind, yields_pure]
  exact fun conn taken => ⟨taken, rfl, rfl, rfl, rfl⟩

/-- What user code has not taken is in the input buffer. -/
def Inbound (e : Endpoint) : Prop := e.delivered = e.retrieved ++ e.conn.inputBuffer.content

theorem start_inbound (cfg : ConnConfig) : (start cfg).Inbound := by
  simp [Inbound, start, Connection.start, OwnedBuffer.content_new]

theorem Moved.effect {alive : Bool} {e e' : Endpoint} {a : Connection.Action} (moved : e.Moved alive a e')
    (mirrored : e.conn.Mirrored) : e.conn.Effect a e'.conn :=
  Connection.step_effect mirrored alive a e'.conn moved.conn

theorem Moved.inbound {alive : Bool} {e e' : Endpoint} {a : Connection.Action} (moved : e.Moved alive a e')
    (mirrored : e.conn.Mirrored) (inbound : e.Inbound) : e'.Inbound := by
  have passes := (moved.effect mirrored).feeds.content
  unfold Inbound at inbound ⊢
  calc e'.delivered
      = e.retrieved ++ (e.conn.inputBuffer.content ++ (e.conn.reads a).getD []) := by
        rw [moved.delivered, inbound, List.append_assoc]
    _ = e.retrieved ++ (e.conn.retrieves a ++ e'.conn.inputBuffer.content) := by rw [passes]
    _ = e'.retrieved ++ e'.conn.inputBuffer.content := by rw [moved.retrieved, List.append_assoc]

/-- Three bytes come, and user code takes two of them. -/
def threeBytes : List Connection.Action :=
  [.resume (.delivered []) (.count 0), .resume (.delivered []) (.count 0), .swap, .finish, .poll (some epollIn),
    .dispatch, .resume (.delivered [1, 2, 3]) (.count 0), .retrieveInput 2]

end Endpoint

end Rnet.Network
