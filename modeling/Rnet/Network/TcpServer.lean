import Rnet.Network.ConnectionLifecycle

/-!
# TCP servers

`rnet::network::TcpServer` as the owner of its connections: `NewConnection`, the removal of a
connection that closed, and the destructor. A connection is in the map `connections_` while its
`inMap` holds; the list here also keeps the connections that have left the map, since their last
functor may still be on the queue of their loop, and the user may still have them.

The steps of different connections interleave freely. The descriptors of connections that exist
at the same time differ, so each has its own part of the poller.

The loops end as well: the last member of the server to go but one is `threadPool_`, and the
destructor of each of its threads tells the loop to quit and waits for it.
-/
namespace Rnet.Network

open Check

structure TcpServer where
  /-- The destructor has not been entered. -/
  alive : Bool
  connections : List Connection
  /-- `quit_` of the loop of each connection. -/
  quit : Nat → Bool

/-- The body of the loop in `~TcpServer`. On the server's own loop `RunInLoop` calls
`ConnectDestroyed` at once, on the loop thread; on another loop it is queued. -/
def Connection.reset (c : Connection) : Comp ConnFault Connection := do
  require (c.inMap = true)
  let c := { c with inMap := false }
  if c.onBase then
    require c.UserCode
    c.connectDestroyed
  else
    return c.queueInLoop .connectDestroyed

/-- The step ends a round of `Loop()`. -/
def Connection.Action.endsRound : Connection.Action → Bool
  | .finish => true
  | _ => false

namespace TcpServer

def start : TcpServer := ⟨true, [], fun _ => false⟩

inductive Action where
  | newConnection (cfg : ConnConfig)
  /-- A step of one connection, its removal by the server included. -/
  | connection (i : Nat) (a : Connection.Action)
  /-- `~TcpServer` is entered. -/
  | destruct
  /-- `~TcpServer` comes to a connection. -/
  | reset (i : Nat)
  /-- `EventLoop::Quit` of the loop of a connection: `~EventLoopThread` calls it when `threadPool_`
  goes, and users may. -/
  | quit (i : Nat)

/-- One connection takes a step. -/
def update (s : TcpServer) (i : Nat) (f : Connection → Comp ConnFault Connection) :
    Comp ConnFault TcpServer := do
  let c ← given s.connections[i]?
  return { s with connections := s.connections.set i (← f c) }

def step (s : TcpServer) : Action → Comp ConnFault TcpServer
  | .newConnection cfg => do
    require (s.alive = true)
    return { s with connections := s.connections ++ [.start cfg] }
  | .connection i a => do
    -- `Loop()` tests `quit_` before it polls again
    require (a.endsRound = true → s.quit i = false)
    s.update i fun c => c.step s.alive a
  | .destruct => do
    require (s.alive = true)
    return { s with alive := false }
  | .reset i => do
    require (s.alive = false)
    s.update i Connection.reset
  | .quit i => return { s with quit := Function.update s.quit i true }

end TcpServer

end Rnet.Network
