import Rnet.Lib.Run
import Rnet.Network.Channel
import Rnet.Network.EventLoop

/-!
# The connector

`rnet::network::Connector` with what surrounds it: the functor queue, the poller and the retry
timers of its loop, and the descriptors of the process. `Start` and `Stop` come from any thread,
`Restart` from user code on the loop thread.

`connect_` is the one variable another thread can change while the loop thread is in a function
of the connector. A function that reads it is cut behind the read: what is left of it is a task
on the stack `todo`. So is a function that calls user code. The asserts are compiled in.
-/
namespace Rnet.Network

open Check

inductive ConnectorState where
  | kDisconnected
  | kConnecting
  | kConnected
  deriving DecidableEq, Repr

inductive ConnectorFunctor where
  | startInLoop
  | stopInLoop
  | resetChannel
  deriving DecidableEq, Repr

/-- What the loop thread has still to do for the connector before it goes on. -/
inductive ConnectorTask where
  /-- `StartInLoop`, called in place by `Start` or `Restart`. -/
  | startInLoop
  /-- `StartInLoop` after it has seen `connect_`. -/
  | connect
  | handleError
  | handleWrite
  /-- `HandleWrite` after it has seen `connect_`, with the number of `Stop`s made before. -/
  | newConnection (sockfd : Fd) (stops : Nat)
  /-- `newConnectionCallback_` is running. -/
  | user
  /-- The end of `HandleEventWithGuard`. -/
  | handled
  deriving DecidableEq, Repr

/-- The values of `errno` after `connect(2)`; `none` is its success. -/
inductive ConnectErrno where
  | none
  | einprogress
  | eintr
  | eisconn
  | eagain
  | eaddrinuse
  | eaddrnotavail
  | econnrefused
  | enetunreach
  | eacces
  | eperm
  | eafnosupport
  | ealready
  | ebadf
  | efault
  | enotsock
  | other (code : Nat)
  deriving DecidableEq, Repr

/-- What `Connect` does with the socket. -/
inductive ConnectBranch where
  | connecting
  | retry
  | close
  deriving DecidableEq, Repr

/-- The `switch` of `Connect`. -/
def ConnectErrno.branch : ConnectErrno → ConnectBranch
  | .none | .einprogress | .eintr | .eisconn => .connecting
  | .eagain | .eaddrinuse | .eaddrnotavail | .econnrefused | .enetunreach => .retry
  | .eacces | .eperm | .eafnosupport | .ealready | .ebadf | .efault | .enotsock => .close
  | .other _ => .close

inductive ConnectorFault where
  /-- The `assert(state_ == kDisconnected)` of `StartInLoop`. -/
  | startInLoop
  /-- The `assert(!channel_)` of `Connecting`. -/
  | connecting
  /-- The `assert(state_ == kDisconnected)` of `HandleWrite`. -/
  | handleWrite
  /-- `channel_` is null where it is used. -/
  | noChannel
  -- the asserts of `~Channel`
  | channelEventHandling
  | channelAddedToLoop
  | channelRegistered
  | poller (fault : PollerFault)
  deriving DecidableEq, Repr

/-- The place of the channel in `activeChannels_`. -/
inductive ActivePlace where
  | absent
  /-- `Loop()` has not come to it yet. -/
  | waiting
  /-- It is `currentActiveChannel_`. -/
  | current
  | past
  deriving DecidableEq, Repr

/-- Names a socket for good, where its descriptor is used again. -/
abbrev SocketId := Nat

structure RetryTimer where
  delayMs : Nat
  /-- The iteration of `Loop()` in which it was armed. -/
  armedIn : Nat
  deriving DecidableEq, Repr

/-- A call of `newConnectionCallback_`. -/
structure HandOver where
  socket : Option SocketId
  /-- `connect_` at the call. -/
  connect_ : Bool
  /-- The `Stop`s made before the test of `connect_`, and those made before the call. -/
  tested : Nat
  called : Nat
  deriving DecidableEq, Repr

def kInitRetryDelayMs : Nat := 500

def kMaxRetryDelayMs : Nat := 30 * 1000

structure Connector where
  connect_ : Bool
  state : ConnectorState
  channel : Option Channel
  retryDelayMs : Nat
  poller : Epoll
  loop : EventLoop ConnectorFunctor
  /-- `EventLoop::iteration_`. -/
  iteration : Nat
  active : ActivePlace
  todo : List ConnectorTask
  timers : List RetryTimer
  /-- The open descriptors of the process. -/
  sockets : Fd → Option SocketId
  -- The rest is history: no function reads it, except that `created` numbers the sockets.
  created : Nat
  /-- The sockets the connector has closed; `none` is a descriptor that was not open. -/
  closes : List (Option SocketId)
  handOvers : List HandOver
  /-- The sockets closed or handed over while the poller or the kernel had the descriptor. -/
  early : Nat
  /-- The calls of `Start` and `Restart`, and those of them whose `StartInLoop` was called. -/
  starts : Nat
  begun : Nat
  stops : Nat

namespace Connector

def new : Connector where
  connect_ := false
  state := .kDisconnected
  channel := none
  retryDelayMs := kInitRetryDelayMs
  poller := .new
  loop := .start
  iteration := 0
  active := .absent
  todo := []
  timers := []
  sockets _ := none
  created := 0
  closes := []
  handOvers := []
  early := 0
  starts := 0
  begun := 0
  stops := 0

def push (s : Connector) (task : ConnectorTask) : Connector := { s with todo := task :: s.todo }

def queueInLoop (s : Connector) (f : ConnectorFunctor) : Connector :=
  { s with loop := s.loop.queueInLoop f }

/-- The poller or the kernel has the descriptor. -/
def registered (s : Connector) (sockfd : Fd) : Bool :=
  (s.poller.channels sockfd).isSome || (s.poller.kernel sockfd).isSome

/-- The socket leaves the connector. -/
def release (s : Connector) (sockfd : Fd) : Connector :=
  { s with early := if s.registered sockfd then s.early + 1 else s.early }

/-- `Sockets::close`. -/
def close (s : Connector) (sockfd : Fd) : Connector :=
  { s.release sockfd with
    closes := s.closes ++ [s.sockets sockfd]
    sockets := Function.update s.sockets sockfd none }

/-- `RunAfter` of `StartInLoop`. -/
def runAfter (s : Connector) : Connector :=
  { s with timers := s.timers ++ [⟨s.retryDelayMs, s.iteration⟩] }

def retry (s : Connector) (sockfd : Fd) : Connector :=
  let s := { s.close sockfd with state := .kDisconnected }
  if s.connect_ then
    { s.runAfter with retryDelayMs := min (s.retryDelayMs * 2) kMaxRetryDelayMs }
  else
    s

/-! ### Connecting -/

def connecting (s : Connector) (sockfd : Fd) : Comp ConnectorFault Connector := do
  let s := { s with state := .kConnecting }
  ensure .connecting (s.channel = none)
  let (poller, channel) ← lift .poller ((Channel.new s.created sockfd).enableWriting s.poller)
  return { s with poller := poller, channel := some channel }

/-- `Sockets::createNonblockingOrDie`. -/
def createNonblocking (s : Connector) (sockfd : Fd) : Connector :=
  { s with
    sockets := Function.update s.sockets sockfd (some s.created), created := s.created + 1 }

/-- `Connect`, where `socket(2)` returns a descriptor that is not open. -/
def connect (s : Connector) (sockfd : Fd) (errno : ConnectErrno) : Comp ConnectorFault Connector := do
  require (s.sockets sockfd = none)
  let s := s.createNonblocking sockfd
  match errno.branch with
  | .connecting => s.connecting sockfd
  | .retry => return s.retry sockfd
  | .close => return s.close sockfd

def startInLoop (s : Connector) : Comp ConnectorFault Connector := do
  ensure .startInLoop (s.state = .kDisconnected)
  return if s.connect_ then s.push .connect else s

/-! ### The end of an attempt -/

/-- The assert of `EventLoop::RemoveChannel`. -/
def removable (s : Connector) : Bool :=
  s.loop.phase ≠ .handling || s.active = .current || s.active = .absent

def removeAndResetChannel (s : Connector) : Comp ConnectorFault (Fd × Connector) := do
  let channel ← demand .noChannel s.channel
  let (poller, channel) ← lift .poller (channel.disableAll s.poller)
  let (poller, channel) ← lift .poller (channel.remove s.removable poller)
  -- not reset here: the channel may be the one whose event is handled
  return (channel.fd, { s with poller := poller, channel := some channel }.queueInLoop .resetChannel)

/-- `channel_.reset()`, with the destructor of the channel. -/
def resetChannel (s : Connector) : Comp ConnectorFault Connector :=
  match s.channel with
  | none => return s
  | some channel => do
    ensure .channelEventHandling (channel.eventHandling = false)
    ensure .channelAddedToLoop (channel.addedToLoop = false)
    ensure .channelRegistered (s.poller.channels channel.fd ≠ some channel.addr)
    return { s with channel := none }

def stopInLoop (s : Connector) : Comp ConnectorFault Connector :=
  if s.state = .kConnecting then do
    let (sockfd, s) ← { s with state := .kDisconnected }.removeAndResetChannel
    return s.retry sockfd
  else
    return s

/-- `err` is what `getSocketError` returns. -/
def handleWrite (s : Connector) (err : Nat) (selfConnect : Bool) : Comp ConnectorFault Connector :=
  if s.state = .kConnecting then do
    let (sockfd, s) ← s.removeAndResetChannel
    if err ≠ 0 then
      return s.retry sockfd
    else if selfConnect then
      return s.retry sockfd
    else
      let s := { s with state := .kConnected }
      return if s.connect_ then s.push (.newConnection sockfd s.stops) else s.close sockfd
  else do
    ensure .handleWrite (s.state = .kDisconnected)
    return s

def handleError (s : Connector) : Comp ConnectorFault Connector :=
  if s.state = .kConnecting then do
    let (sockfd, s) ← s.removeAndResetChannel
    return s.retry sockfd
  else
    return s

/-- The call of `newConnectionCallback_`. -/
def newConnection (s : Connector) (sockfd : Fd) (tested : Nat) : Connector :=
  let handOver : HandOver := ⟨s.sockets sockfd, s.connect_, tested, s.stops⟩
  { s.release sockfd with handOvers := s.handOvers ++ [handOver] }.push .user

/-! ### Steps -/

/-- User code may run on the loop thread: the callback of the connector is running, or the loop
is outside its functions. -/
def UserCode (s : Connector) : Prop := s.todo = [] ∨ s.todo.head? = some .user

instance (s : Connector) : Decidable s.UserCode := inferInstanceAs (Decidable (_ ∨ _))

/-- What the kernel answers: the descriptor of a new socket and the result of `connect(2)`, or
`SO_ERROR` and whether the socket is connected to itself. -/
structure KernelAnswer where
  sockfd : Fd
  errno : ConnectErrno
  err : Nat
  selfConnect : Bool
  deriving DecidableEq, Repr

inductive Action where
  -- user code on the loop thread
  | start
  | stop
  | restart
  -- another thread, up to the push of its functor
  | callStart (t : Tid)
  | callStop (t : Tid)
  | push (t : Tid)
  /-- The poll returned, with or without an event of the channel. -/
  | poll (revents : Option Events)
  /-- `Loop()` comes to the channel. -/
  | dispatch
  | resume (answer : KernelAnswer)
  /-- The retry timer at position `n` fires. -/
  | fire (n : Nat)
  | swap
  | next
  | finish
  /-- The user closes a socket that was handed over. -/
  | closeHanded (fd : Fd)
  deriving DecidableEq, Repr

def start (s : Connector) : Comp ConnectorFault Connector := do
  require s.UserCode
  return { s with connect_ := true, starts := s.starts + 1 }.push .startInLoop

def restart (s : Connector) : Comp ConnectorFault Connector := do
  require s.UserCode
  return { s with
    state := .kDisconnected
    retryDelayMs := kInitRetryDelayMs
    connect_ := true
    starts := s.starts + 1 }.push .startInLoop

def stop (s : Connector) : Comp ConnectorFault Connector := do
  require s.UserCode
  return { s with connect_ := false, stops := s.stops + 1 }.queueInLoop .stopInLoop

def callStart (s : Connector) (t : Tid) : Comp ConnectorFault Connector := do
  let loop ← s.loop.enter t .startInLoop
  return { s with connect_ := true, starts := s.starts + 1, loop := loop }

def callStop (s : Connector) (t : Tid) : Comp ConnectorFault Connector := do
  let loop ← s.loop.enter t .stopInLoop
  return { s with connect_ := false, stops := s.stops + 1, loop := loop }

/-- The kernel reports a channel that it watches, with any events. -/
def poll (s : Connector) (revents : Option Events) : Comp ConnectorFault Connector := do
  require (s.todo = [])
  let loop ← s.loop.poll
  let s := { s with loop := loop, iteration := s.iteration + 1 }
  match revents with
  | none => return { s with active := .absent }
  | some revents =>
    let channel ← given s.channel
    require ((s.poller.kernel channel.fd).isSome = true)
    let channel ← lift .poller (s.poller.fillActiveChannel channel revents)
    return { s with channel := some channel, active := .waiting }

/-- The callbacks of `HandleEventWithGuard` that are set, for the events reported. -/
def callbacks (revents : Events) : List ConnectorTask :=
  (if Flags.has revents epollErr then [.handleError] else []) ++
    (if Flags.has revents epollOut then [.handleWrite] else [])

def dispatch (s : Connector) : Comp ConnectorFault Connector := do
  require (s.loop.phase = .handling ∧ s.active = .waiting ∧ s.todo = [])
  let channel ← demand .noChannel s.channel
  return { s with
    active := .current
    channel := some { channel with eventHandling := true }
    todo := callbacks channel.revents ++ [.handled] }

/-- The loop thread goes on with what it has to do for the connector. -/
def resume (s : Connector) (answer : KernelAnswer) : Comp ConnectorFault Connector :=
  match s.todo with
  | [] => .error .disabled
  | .startInLoop :: rest => { s with todo := rest, begun := s.begun + 1 }.startInLoop
  | .connect :: rest => { s with todo := rest }.connect answer.sockfd answer.errno
  | .handleError :: rest => { s with todo := rest }.handleError
  | .handleWrite :: rest => { s with todo := rest }.handleWrite answer.err answer.selfConnect
  | .newConnection sockfd tested :: rest => return { s with todo := rest }.newConnection sockfd tested
  | .user :: rest => return { s with todo := rest }
  | .handled :: rest => return { s with
      todo := rest
      active := .past
      channel := s.channel.map fun channel => { channel with eventHandling := false } }

def fire (s : Connector) (n : Nat) : Comp ConnectorFault Connector := do
  require (s.loop.phase = .handling ∧ s.todo = [] ∧ n < s.timers.length)
  { s with timers := s.timers.eraseIdx n }.startInLoop

/-- `DoPendingFunctors` calls `f`. -/
def run (s : Connector) : ConnectorFunctor → Comp ConnectorFault Connector
  | .startInLoop => { s with begun := s.begun + 1 }.startInLoop
  | .stopInLoop => s.stopInLoop
  | .resetChannel => s.resetChannel

def next (s : Connector) : Comp ConnectorFault Connector := do
  require (s.todo = [])
  let (f, loop) ← s.loop.next
  { s with loop := loop }.run f

def closeHanded (s : Connector) (fd : Fd) : Comp ConnectorFault Connector := do
  let socket ← given (s.sockets fd)
  require (some socket ∈ s.handOvers.map HandOver.socket)
  return { s with sockets := Function.update s.sockets fd none }

def step (s : Connector) : Action → Comp ConnectorFault Connector
  | .start => s.start
  | .stop => s.stop
  | .restart => s.restart
  | .callStart t => s.callStart t
  | .callStop t => s.callStop t
  | .push t => do return { s with loop := (← s.loop.push t).2 }
  | .poll revents => s.poll revents
  | .dispatch => s.dispatch
  | .resume answer => s.resume answer
  | .fire n => s.fire n
  | .swap => do
    require (s.todo = [] ∧ s.active ≠ .waiting)
    return { s with loop := ← s.loop.swap }
  | .next => s.next
  | .finish => do
    require (s.todo = [])
    return { s with loop := ← s.loop.finish }
  | .closeHanded fd => s.closeHanded fd

end Connector

end Rnet.Network
