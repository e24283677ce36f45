import Rnet.File.OwnedBuffer
import Rnet.Lib.Run
import Rnet.Network.Channel
import Rnet.Network.EventLoop

/-!
# TCP connections

`rnet::Network::TcpConnection` with what surrounds it: the functor queue and the poller of its
event loop as far as they concern this connection, and its entry in the `TcpServer` that
manages it. Other connections of the same loop are seen only through the user code they run on
the loop thread, which may call this connection whenever the loop is not inside its functions.

A function that calls user code in its middle is cut there: what is left of it is a task on the
stack `todo`. The asserts are compiled in, so one that does not hold ends the program.
-/
namespace Rnet.Network

open Check File

inductive StateE where
  | kDisconnected
  | kConnecting
  | kConnected
  | kDisconnecting
  deriving DecidableEq, Repr

/-- What one call of `Send` passes. The sender is the loop thread or another one. -/
structure Message where
  sender : Option Tid
  data : List Byte
  deriving DecidableEq, Repr

/-- The functors of a connection on the queue of its loop. -/
inductive ConnFunctor where
  | connectEstablished
  | connectDestroyed
  | sendInLoop (message : Message)
  | shutdownInLoop
  | forceCloseInLoop
  | startReadInLoop
  | stopReadInLoop
  | writeCompleteCallback
  | highWaterMarkCallback (size : Nat)
  deriving DecidableEq, Repr

/-- What the loop thread has still to do for the connection before it goes on. -/
inductive ConnTask where
  /-- A callback of the user is running. -/
  | user
  /-- `ConnectEstablished`, called in place by `NewConnection`. -/
  | connectEstablished
  /-- The last line of `HandleClose`. -/
  | closeCallback
  /-- The last line of `ConnectDestroyed`. -/
  | remove
  /-- `HandleEventWithGuard` from its test of `EPOLLERR`. -/
  | handleRead
  /-- `HandleEventWithGuard` from its test of `EPOLLOUT`. -/
  | handleWrite
  deriving DecidableEq, Repr

/-- The answer of `write(2)`. -/
inductive WriteResult where
  | count (n : Nat)
  | failed (errno : Errno)
  deriving DecidableEq, Repr

/-- The answer of `readv(2)`. -/
inductive ReadResult where
  | delivered (data : List Byte)
  | failed (errno : Errno)
  deriving DecidableEq, Repr

inductive ConnFault where
  | doSendInLoop
  | connectEstablished
  | handleClose
  /-- The `assert(n == 1)` of `RemoveConnectionInLoop`. -/
  | removeConnectionInLoop
  /-- A member function is called on a `TcpServer` whose destructor has been entered. -/
  | serverDestroyed
  | poller (fault : PollerFault)
  | buffer (fault : BufferAssert)
  deriving DecidableEq, Repr

structure TcpConnection where
  state : StateE
  reading : Bool
  channel : Channel
  inputBuffer : OwnedBuffer
  outputBuffer : OwnedBuffer
  /-- Whether the callback is set. -/
  writeCompleteCallback : Bool
  /-- Whether the callback is set. -/
  highWaterMarkCallback : Bool
  highWaterMark : Nat

/-- The connection at the moment of a `shutdownWrite`. -/
structure ShutdownRecord where
  state : StateE
  backlog : List Byte
  wire : List Byte
  processed : List Message
  calls : List Message
  deriving DecidableEq, Repr

structure Connection extends TcpConnection where
  poller : Epoll
  loop : EventLoop ConnFunctor
  /-- `activeChannels_` has the channel. -/
  active : Bool
  /-- It has the channel, and `Loop()` has not come to it yet. -/
  waiting : Bool
  /-- `currentActiveChannel_` is the channel. -/
  current : Bool
  todo : List ConnTask
  /-- The loop is the loop of the server. -/
  onBase : Bool
  /-- The map `connections_` of the server has the connection. -/
  inMap : Bool
  /-- The functors `RemoveConnectionInLoop` for it on the queue of the server's loop. -/
  removals : Nat
  -- The rest is history: no function reads it.
  /-- The bytes the kernel has accepted. -/
  wire : List Byte
  /-- The messages `DoSendInLoop` has not given up, in its order. -/
  processed : List Message
  /-- The calls of `Send` that saw `kConnected`, in their order. -/
  calls : List Message
  shutdowns : List ShutdownRecord
  /-- The calls of `write(2)` after the first `shutdownWrite`. -/
  lateWrites : Nat
  /-- The state at each call of `connectionCallback_`. -/
  callbacks : List StateE
  closes : Nat
  closeCallbacks : Nat
  destroys : Nat

/-- What differs between connections when they are made. `phase` is where a loop that is not the
server's happens to be. -/
structure ConnConfig where
  addr : ChannelId
  fd : Fd
  onBase : Bool
  phase : LoopPhase
  writeCompleteCallback : Bool
  highWaterMarkCallback : Bool
  highWaterMark : Nat
  deriving DecidableEq, Repr

/-- The default of the constructor. -/
def kHighWaterMark : Nat := 64 * 1024 * 1024

namespace Connection

/-- The end of `NewConnection`. On the server's own loop, which is then handling the event of
the acceptor, `ConnectEstablished` is called in place; on another loop it is queued. -/
def start (cfg : ConnConfig) : Connection where
  state := .kConnecting
  reading := true
  channel := .new cfg.addr cfg.fd
  inputBuffer := .new Buffer.kInitialSize
  outputBuffer := .new Buffer.kInitialSize
  writeCompleteCallback := cfg.writeCompleteCallback
  highWaterMarkCallback := cfg.highWaterMarkCallback
  highWaterMark := cfg.highWaterMark
  poller := .new
  loop := if cfg.onBase then { EventLoop.start with phase := .handling }
    else { EventLoop.start with phase := cfg.phase, pendingFunctors := [.connectEstablished] }
  active := false
  waiting := false
  current := false
  todo := if cfg.onBase then [.connectEstablished] else []
  onBase := cfg.onBase
  inMap := true
  removals := 0
  wire := []
  processed := []
  calls := []
  shutdowns := []
  lateWrites := 0
  callbacks := []
  closes := 0
  closeCallbacks := 0
  destroys := 0

def updateChannel (s : Connection) (op : Epoll → Comp PollerFault (Epoll × Channel)) :
    Comp ConnFault Connection := do
  let (poller, channel) ← lift .poller (op s.poller)
  return { s with poller := poller, channel := channel }

def queueInLoop (s : Connection) (f : ConnFunctor) : Connection :=
  { s with loop := s.loop.queueInLoop f }

/-- A callback of the user is entered. -/
def invoke (s : Connection) : Connection := { s with todo := .user :: s.todo }

def connectionCallback (s : Connection) : Connection :=
  { s with callbacks := s.callbacks ++ [s.state] }.invoke

/-- A call of `write(2)` of which the kernel accepted `bytes`. -/
def write (s : Connection) (bytes : List Byte) : Connection :=
  { s with
    wire := s.wire ++ bytes
    lateWrites := if s.shutdowns.isEmpty then s.lateWrites else s.lateWrites + 1 }

def shutdownWrite (s : Connection) : Connection :=
  { s with
    shutdowns := s.shutdowns ++ [⟨s.state, s.outputBuffer.content, s.wire, s.processed, s.calls⟩] }

/-! ### Sending -/

/-- The write of `DoSendInLoop`, where nothing waits before the message, with the number of
bytes written and `faultError`. -/
def writeDirectly (s : Connection) (data : List Byte) (answer : WriteResult) :
    Comp ConnFault (Connection × Nat × Bool) :=
  if !s.channel.isWriting && s.outputBuffer.readableBytes == 0 then
    match answer with
    | .count n => do
      require (n ≤ data.length)
      let s := s.write (data.take n)
      let remaining := data.length - n
      if remaining = 0 ∧ s.writeCompleteCallback = true then
        return (s.queueInLoop .writeCompleteCallback, n, false)
      else
        return (s, n, false)
    | .failed errno => return (s.write [], 0, errno = .epipe || errno = .econnreset)
  else
    return (s, 0, false)

/-- The test of `DoSendInLoop` before it buffers `remaining` more bytes. -/
def crossHighWaterMark (s : Connection) (remaining : Nat) : Connection :=
  let oldLen := s.outputBuffer.readableBytes
  if s.highWaterMark ≤ oldLen + remaining ∧ oldLen < s.highWaterMark ∧
      s.highWaterMarkCallback = true then
    s.queueInLoop (.highWaterMarkCallback (oldLen + remaining))
  else
    s

/-- The end of `DoSendInLoop`: what was not written is kept, and the channel asks for write
events. -/
def bufferRest (s : Connection) (rest : List Byte) : Comp ConnFault Connection :=
  let s := s.crossHighWaterMark rest.length
  let s := { s with outputBuffer := s.outputBuffer.append rest }
  if s.channel.isWriting then return s else s.updateChannel s.channel.enableWriting

def doSendInLoop (s : Connection) (message : Message) (answer : WriteResult) :
    Comp ConnFault Connection :=
  if s.state = .kDisconnected then
    return s
  else do
    let s := { s with processed := s.processed ++ [message] }
    let len := message.data.length
    let (s, written, faultError) ← s.writeDirectly message.data answer
    let remaining := len - written
    ensure .doSendInLoop (remaining ≤ len)
    if !faultError && 0 < remaining then
      s.bufferRest (message.data.drop written)
    else
      return s

/-! ### Shutting down and closing -/

def shutdownInLoop (s : Connection) : Connection :=
  if !s.channel.isWriting then s.shutdownWrite else s

def handleClose (s : Connection) : Comp ConnFault Connection := do
  ensure .handleClose (s.state = .kConnected ∨ s.state = .kDisconnecting)
  let s := { s with state := .kDisconnected, closes := s.closes + 1 }
  let s ← s.updateChannel s.channel.disableAll
  return { s with todo := .closeCallback :: s.todo }.connectionCallback

def forceCloseInLoop (s : Connection) : Comp ConnFault Connection :=
  if s.state = .kConnected ∨ s.state = .kDisconnecting then s.handleClose else return s

def startReadInLoop (s : Connection) : Comp ConnFault Connection :=
  if !s.reading || !s.channel.isReading then do
    let s ← s.updateChannel s.channel.enableReading
    return { s with reading := true }
  else
    return s

def stopReadInLoop (s : Connection) : Comp ConnFault Connection :=
  if s.reading || s.channel.isReading then do
    let s ← s.updateChannel s.channel.disableReading
    return { s with reading := false }
  else
    return s

def connectEstablished (s : Connection) : Comp ConnFault Connection := do
  ensure .connectEstablished (s.state = .kConnecting)
  let s := { s with state := .kConnected, channel := { s.channel with tied := true } }
  let s ← s.updateChannel s.channel.enableReading
  return s.connectionCallback

/-- `channel_->Remove()`. While the loop handles events it takes away the channel it is at, or one that
`activeChannels_` does not have at all. -/
def removeChannel (s : Connection) : Comp ConnFault Connection :=
  s.updateChannel (s.channel.remove (s.loop.phase ≠ .handling || s.current || !s.active))

def connectDestroyed (s : Connection) : Comp ConnFault Connection := do
  let s := { s with destroys := s.destroys + 1 }
  if s.state = .kConnected then
    let s := { s with state := .kDisconnected }
    let s ← s.updateChannel s.channel.disableAll
    return { s with todo := .remove :: s.todo }.connectionCallback
  else
    s.removeChannel

/-! ### The server's part -/

def removeConnectionInLoop (alive : Bool) (s : Connection) : Comp ConnFault Connection := do
  ensure .serverDestroyed (alive = true)
  -- `erase` returns 1
  ensure .removeConnectionInLoop (s.inMap = true)
  return { s with inMap := false }.queueInLoop .connectDestroyed

/-- `closeCallback_`, which the server has bound to `RemoveConnection`. -/
def removeConnection (alive : Bool) (s : Connection) : Comp ConnFault Connection := do
  ensure .serverDestroyed (alive = true)
  let s := { s with closeCallbacks := s.closeCallbacks + 1 }
  if s.onBase then s.removeConnectionInLoop alive else return { s with removals := s.removals + 1 }

/-! ### Events -/

def handleRead (s : Connection) : ReadResult → Comp ConnFault Connection
  | .delivered data => do
    require (data.length ≤ s.inputBuffer.raw.readCapacity)
    let s := { s with inputBuffer := s.inputBuffer.readFd data }
    -- `messageCallback_` is the user's
    if 0 < data.length then return s.invoke else s.handleClose
  -- `HandleError` only logs
  | .failed _ => return s

def handleWrite (s : Connection) (answer : WriteResult) : Comp ConnFault Connection :=
  if s.channel.isWriting then
    match answer with
    | .count n => do
      require (n ≤ s.outputBuffer.readableBytes)
      let s := s.write (s.outputBuffer.content.take n)
      if 0 < n then
        let outputBuffer ← lift .buffer (s.outputBuffer.retrieve n)
        let s := { s with outputBuffer := outputBuffer }
        if s.outputBuffer.readableBytes = 0 then
          let s ← s.updateChannel s.channel.disableWriting
          let s := if s.writeCompleteCallback then s.queueInLoop .writeCompleteCallback else s
          -- a shutdown that `ShutdownInLoop` passed over is made good here
          return if s.state = .kDisconnecting then s.shutdownInLoop else s
        else
          return s
      else
        return s
    | .failed _ => return s.write []
  else
    return s

/-- `HandleEvent` up to its test of `EPOLLERR`: the connection lives, so the tie holds. -/
def handleEvent (s : Connection) : Comp ConnFault Connection :=
  let s := { s with
    channel := { s.channel with eventHandling := true }
    todo := .handleRead :: .handleWrite :: s.todo }
  if s.channel.hungUp then s.handleClose else return s

/-- The loop thread goes on with what it has to do for the connection. -/
def resume (alive : Bool) (s : Connection) (read : ReadResult) (answer : WriteResult) :
    Comp ConnFault Connection :=
  match s.todo with
  | [] => .error .disabled
  | .user :: rest => return { s with todo := rest }
  | .connectEstablished :: rest => { s with todo := rest }.connectEstablished
  | .closeCallback :: rest => { s with todo := rest }.removeConnection alive
  | .remove :: rest => { s with todo := rest }.removeChannel
  | .handleRead :: rest =>
    if s.channel.readable then { s with todo := rest }.handleRead read else return { s with todo := rest }
  | .handleWrite :: rest => do
    let s := { s with todo := rest }
    let s ← if Flags.has s.channel.revents epollOut then s.handleWrite answer else pure s
    return { s with channel := { s.channel with eventHandling := false }, current := false }

/-- `DoPendingFunctors` calls `f`. -/
def run (s : Connection) (f : ConnFunctor) (answer : WriteResult) : Comp ConnFault Connection :=
  match f with
  | .connectEstablished => s.connectEstablished
  | .connectDestroyed => s.connectDestroyed
  | .sendInLoop message => s.doSendInLoop message answer
  | .shutdownInLoop => return s.shutdownInLoop
  | .forceCloseInLoop => s.forceCloseInLoop
  | .startReadInLoop => s.startReadInLoop
  | .stopReadInLoop => s.stopReadInLoop
  | .writeCompleteCallback | .highWaterMarkCallback _ => return s.invoke

/-! ### Requests -/

/-- The public functions of a connection. -/
inductive Request where
  | send (message : List Byte)
  | sendBuffer (buf : OwnedBuffer)
  | shutdown
  | forceClose
  | startRead
  | stopRead

/-- A `Send` that saw `kConnected`. -/
def accept (s : Connection) (message : Message) : Connection :=
  { s with calls := s.calls ++ [message] }

/-- A request on the loop thread: `RunInLoop` calls at once. A buffer passed to `Send` is
emptied afterwards, which only its owner sees. -/
def callInLoop (s : Connection) (answer : WriteResult) : Request → Comp ConnFault Connection
  | .send message =>
    if s.state = .kConnected then
      (s.accept ⟨none, message⟩).doSendInLoop ⟨none, message⟩ answer
    else return s
  | .sendBuffer buf =>
    if s.state = .kConnected then
      (s.accept ⟨none, buf.content⟩).doSendInLoop ⟨none, buf.content⟩ answer
    else return s
  | .shutdown =>
    if s.state = .kConnected then
      return { s with state := .kDisconnecting }.shutdownInLoop
    else return s
  | .forceClose =>
    if s.state = .kConnected ∨ s.state = .kDisconnecting then
      return { s with state := .kDisconnecting }.queueInLoop .forceCloseInLoop
    else return s
  | .startRead => s.startReadInLoop
  | .stopRead => s.stopReadInLoop

/-- Thread `t` is about to push `f` on the queue of the loop. -/
def enter (s : Connection) (t : Tid) (f : ConnFunctor) : Comp ConnFault Connection := do
  return { s with loop := ← s.loop.enter t f }

/-- A request on another thread, up to the push: it tests and sets the state at once, and the
functor it is about to push has its own copy of the data. -/
def call (s : Connection) (t : Tid) : Request → Comp ConnFault Connection
  | .send message =>
    if s.state = .kConnected then
      (s.accept ⟨some t, message⟩).enter t (.sendInLoop ⟨some t, message⟩)
    else return s
  | .sendBuffer buf =>
    if s.state = .kConnected then
      (s.accept ⟨some t, buf.retrieveAllAsString.2⟩).enter t
        (.sendInLoop ⟨some t, buf.retrieveAllAsString.2⟩)
    else return s
  | .shutdown =>
    if s.state = .kConnected then
      { s with state := .kDisconnecting }.enter t .shutdownInLoop
    else return s
  | .forceClose =>
    if s.state = .kConnected ∨ s.state = .kDisconnecting then
      { s with state := .kDisconnecting }.enter t .forceCloseInLoop
    else return s
  | .startRead => s.enter t .startReadInLoop
  | .stopRead => s.enter t .stopReadInLoop

/-- User code may run on the loop thread: a callback of this connection is running, or the loop
is outside the functions of the connection. -/
def UserCode (s : Connection) : Prop := s.todo = [] ∨ s.todo.head? = some .user

instance (s : Connection) : Decidable s.UserCode := inferInstanceAs (Decidable (_ ∨ _))

/-- The user has the connection: it comes with the first `connectionCallback_`. -/
def handed (s : Connection) : Bool := !s.callbacks.isEmpty

/-! ### Steps -/

inductive Action where
  | callInLoop (request : Request) (answer : WriteResult)
  | call (t : Tid) (request : Request)
  | push (t : Tid)
  /-- The poll returned, with or without an event of the channel. -/
  | poll (revents : Option Events)
  /-- `Loop()` comes to the channel. -/
  | dispatch
  | resume (read : ReadResult) (answer : WriteResult)
  | swap
  | next (answer : WriteResult)
  | finish
  /-- The server's loop calls a functor `RemoveConnectionInLoop` for the connection. -/
  | removeConnectionInLoop
  /-- User code on the loop thread takes bytes out of the input buffer. -/
  | retrieveInput (len : Nat)

def poll (s : Connection) (revents : Option Events) : Comp ConnFault Connection := do
  require (s.todo = [])
  let loop ← s.loop.poll
  match revents with
  | none => return { s with loop := loop, active := false, waiting := false }
  | some revents =>
    require (s.poller.Reports s.channel revents)
    let channel ← lift .poller (s.poller.fillActiveChannel s.channel revents)
    return { s with loop := loop, channel := channel, active := true, waiting := true }

def dispatch (s : Connection) : Comp ConnFault Connection := do
  require (s.loop.phase = .handling ∧ s.waiting = true ∧ s.todo = [])
  { s with waiting := false, current := true }.handleEvent

def next (s : Connection) (answer : WriteResult) : Comp ConnFault Connection := do
  require (s.todo = [])
  let (f, loop) ← s.loop.next
  { s with loop := loop }.run f answer

/-- One step, while the server lives or after its destructor was entered. -/
def step (alive : Bool) (s : Connection) : Action → Comp ConnFault Connection
  | .callInLoop request answer => do
    require (s.handed = true ∧ s.UserCode)
    s.callInLoop answer request
  | .call t request => do
    require (s.handed = true)
    s.call t request
  | .push t => do return { s with loop := (← s.loop.push t).2 }
  | .poll revents => s.poll revents
  | .dispatch => s.dispatch
  | .resume read answer => s.resume alive read answer
  | .swap => do
    require (s.todo = [] ∧ s.waiting = false)
    return { s with loop := ← s.loop.swap }
  | .next answer => s.next answer
  | .finish => do
    require (s.todo = [])
    return { s with loop := ← s.loop.finish }
  | .removeConnectionInLoop => do
    require (0 < s.removals)
    { s with removals := s.removals - 1 }.removeConnectionInLoop alive
  | .retrieveInput len => do
    require (s.UserCode ∧ len ≤ s.inputBuffer.readableBytes)
    return { s with inputBuffer := ← lift .buffer (s.inputBuffer.retrieve len) }

end Connection

end Rnet.Network
