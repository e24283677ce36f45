import Rnet.Lib.Decimal
import Rnet.Lib.Run
import Rnet.Network.EventLoop
import Rnet.Network.TcpConnection

/-!
# The connections of a server on several loops

`rnet::network::TcpServer` again, now as what names the connections and moves them between the
loops: `NewConnection` on the loop of the acceptor, `HandleClose` on the loop of the connection, and
the functors the two put on the queues. Loop 0 is the loop of the server, the others are those of
its thread pool; each runs in a thread of its own. What a connection does besides is in
`TcpConnection`; here it has its name, its loop and its state.

A thread that queues a functor takes the mutex of the queue later: until then the functor is in
`pushing`, and the thread does nothing else.
-/
namespace Rnet.Network

open Check Decimal

abbrev LoopId := Nat

/-- Connections are numbered in the order of `NewConnection`. -/
abbrev ConnId := Nat

inductive RegistryFunctor where
  | connectEstablished (conn : ConnId)
  | removeConnectionInLoop (conn : ConnId)
  | connectDestroyed (conn : ConnId)
  deriving DecidableEq, Repr

def RegistryFunctor.conn : RegistryFunctor → ConnId
  | connectEstablished conn | removeConnectionInLoop conn | connectDestroyed conn => conn

inductive RegistryCall where
  | connectEstablished
  | handleClose
  | removeConnectionInLoop
  | connectDestroyed
  deriving DecidableEq, Repr

/-- A call that was made, and the loop in whose thread it was made. -/
structure CallRecord where
  call : RegistryCall
  conn : ConnId
  thread : LoopId
  deriving DecidableEq, Repr

inductive RegistryFault where
  /-- The `LOG_FATAL` of `AssertInLoopThread`. -/
  | assertInLoopThread
  | connectEstablished
  | handleClose
  /-- The `assert(n == 1)` of `RemoveConnectionInLoop`. -/
  | removeConnectionInLoop
  /-- The increment of the `int` `nextConnId_` overflows. -/
  | nextConnId
  deriving DecidableEq, Repr

structure ServerConfig where
  name : List Char
  /-- The text of an address and a port. -/
  ipPort : List Char
  numThreads : Nat
  ipPort_length : ipPort.length ≤ 47

structure ManagedConnection where
  name : List Char
  loop : LoopId
  state : StateE
  deriving DecidableEq, Repr

structure Registry where
  nextConnId : Nat
  /-- `next_` of the thread pool. -/
  next : Nat
  created : Nat
  /-- The connection with the given number, if it is below `created`. -/
  conns : ConnId → ManagedConnection
  /-- The map `connections_`. -/
  connections : List Char → Option ConnId
  loops : LoopId → EventLoop RegistryFunctor
  /-- What the thread of a loop is about to push, and on the queue of which loop. -/
  pushing : LoopId → Option (LoopId × RegistryFunctor)
  /-- All calls so far. No function reads them. -/
  calls : List CallRecord

/-- What `snprintf` leaves in a buffer. -/
def snprintf (size : Nat) (text : List Char) : List Char := text.take (size - 1)

def ServerConfig.connName (cfg : ServerConfig) (id : Nat) : List Char :=
  cfg.name ++ snprintf 64 ('-' :: cfg.ipPort ++ '#' :: decimal id)

namespace Registry

def start : Registry where
  nextConnId := 1
  next := 0
  created := 0
  conns _ := ⟨[], 0, .kConnecting⟩
  connections _ := none
  loops _ := .start
  pushing _ := none
  calls := []

def setState (s : Registry) (conn : ConnId) (state : StateE) : Registry :=
  { s with conns := Function.update s.conns conn { s.conns conn with state := state } }

def record (s : Registry) (call : RegistryCall) (conn : ConnId) (thread : LoopId) : Registry :=
  { s with calls := s.calls ++ [⟨call, conn, thread⟩] }

/-- `QueueInLoop` up to the mutex. -/
def queueInLoop (s : Registry) (thread target : LoopId) (f : RegistryFunctor) : Registry :=
  { s with pushing := Function.update s.pushing thread (some (target, f)) }

/-! ### What runs on the loops -/

def connectEstablished (s : Registry) (thread : LoopId) (conn : ConnId) : Comp RegistryFault Registry := do
  ensure .assertInLoopThread (thread = (s.conns conn).loop)
  ensure .connectEstablished ((s.conns conn).state = .kConnecting)
  return (s.setState conn .kConnected).record .connectEstablished conn thread

def connectDestroyed (s : Registry) (thread : LoopId) (conn : ConnId) : Comp RegistryFault Registry := do
  ensure .assertInLoopThread (thread = (s.conns conn).loop)
  let s := if (s.conns conn).state = .kConnected then s.setState conn .kDisconnected else s
  return s.record .connectDestroyed conn thread

def removeConnectionInLoop (s : Registry) (thread : LoopId) (conn : ConnId) : Comp RegistryFault Registry := do
  ensure .assertInLoopThread (thread = 0)
  ensure .removeConnectionInLoop (s.connections (s.conns conn).name ≠ none)
  let s := { s with connections := Function.update s.connections (s.conns conn).name none }
  return (s.record .removeConnectionInLoop conn thread).queueInLoop thread (s.conns conn).loop
    (.connectDestroyed conn)

def run (s : Registry) (thread : LoopId) : RegistryFunctor → Comp RegistryFault Registry
  | .connectEstablished conn => s.connectEstablished thread conn
  | .removeConnectionInLoop conn => s.removeConnectionInLoop thread conn
  | .connectDestroyed conn => s.connectDestroyed thread conn

def runInLoop (s : Registry) (thread target : LoopId) (f : RegistryFunctor) : Comp RegistryFault Registry :=
  if thread = target then s.run thread f else return s.queueInLoop thread target f

/-- `HandleClose`, whose `closeCallback_` is `RemoveConnection`. -/
def handleClose (s : Registry) (thread : LoopId) (conn : ConnId) : Comp RegistryFault Registry := do
  ensure .assertInLoopThread (thread = (s.conns conn).loop)
  ensure .handleClose ((s.conns conn).state = .kConnected ∨ (s.conns conn).state = .kDisconnecting)
  let s := (s.setState conn .kDisconnected).record .handleClose conn thread
  s.runInLoop thread 0 (.removeConnectionInLoop conn)

/-- `EventLoopThreadPool::getNextLoop`. -/
def getNextLoop (s : Registry) (numThreads : Nat) : LoopId × Registry :=
  if numThreads = 0 then
    (0, s)
  else
    (s.next + 1, { s with next := if numThreads ≤ s.next + 1 then 0 else s.next + 1 })

/-- The part of `NewConnection` that creates the connection. -/
def create (s : Registry) (name : List Char) (ioLoop : LoopId) : Registry :=
  { s with
    nextConnId := s.nextConnId + 1
    created := s.created + 1
    conns := Function.update s.conns s.created ⟨name, ioLoop, .kConnecting⟩
    connections := Function.update s.connections name (some s.created) }

def newConnection (s : Registry) (cfg : ServerConfig) : Comp RegistryFault Registry := do
  let (ioLoop, s) := s.getNextLoop cfg.numThreads
  ensure .nextConnId (s.nextConnId < 2 ^ 31 - 1)
  (s.create (cfg.connName s.nextConnId) ioLoop).runInLoop 0 ioLoop (.connectEstablished s.created)

/-! ### Steps -/

inductive Action where
  | newConnection
  /-- An event of the connection or its `ForceCloseInLoop` closes it. -/
  | handleClose (conn : ConnId)
  /-- `Shutdown()`, on any thread. -/
  | shutdown (conn : ConnId)
  /-- The locked push of the thread of a loop. -/
  | push (thread : LoopId)
  -- the turns of `Loop()`
  | poll (l : LoopId)
  | swap (l : LoopId)
  | next (l : LoopId)
  | finish (l : LoopId)
  deriving DecidableEq, Repr

def setLoop (s : Registry) (l : LoopId) (loop : EventLoop RegistryFunctor) : Registry :=
  { s with loops := Function.update s.loops l loop }

/-- A turn of loop `l`, whose thread is not about to push. -/
def turn (s : Registry) (l : LoopId)
    (f : EventLoop RegistryFunctor → Comp RegistryFault (EventLoop RegistryFunctor)) :
    Comp RegistryFault Registry := do
  require (s.pushing l = none)
  return s.setLoop l (← f (s.loops l))

def shutdown (s : Registry) (conn : ConnId) : Comp RegistryFault Registry := do
  require (conn < s.created)
  return if (s.conns conn).state = .kConnected then s.setState conn .kDisconnecting else s

def step (cfg : ServerConfig) (s : Registry) : Action → Comp RegistryFault Registry
  | .newConnection => do
    require (s.pushing 0 = none)
    s.newConnection cfg
  | .handleClose conn => do
    require (conn < s.created ∧ s.pushing (s.conns conn).loop = none)
    s.handleClose (s.conns conn).loop conn
  | .shutdown conn => s.shutdown conn
  | .push thread => do
    let (target, f) ← given (s.pushing thread)
    return { s with pushing := Function.update s.pushing thread none }.setLoop target
      ((s.loops target).queueInLoop f)
  | .poll l => s.turn l EventLoop.poll
  | .swap l => s.turn l EventLoop.swap
  | .next l => do
    require (s.pushing l = none)
    let (f, loop) ← (s.loops l).next
    (s.setLoop l loop).run l f
  | .finish l => s.turn l EventLoop.finish

/-- Fewer than `2^31 - 1` connections are accepted, and a connection is closed while it is up. -/
def Within (s : Registry) : Action → Prop
  | .newConnection => s.created + 1 < 2 ^ 31 - 1
  | .handleClose conn => (s.conns conn).state = .kConnected ∨ (s.conns conn).state = .kDisconnecting
  | _ => True

instance (s : Registry) : (a : Action) → Decidable (s.Within a)
  | .newConnection => inferInstanceAs (Decidable (_ < _))
  | .handleClose _ => inferInstanceAs (Decidable (_ ∨ _))
  | .shutdown _ | .push _ | .poll _ | .swap _ | .next _ | .finish _ => inferInstanceAs (Decidable True)

end Registry

end Rnet.Network
