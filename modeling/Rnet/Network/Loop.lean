import Rnet.Network.EventLoop

/-!
# The loop of an event loop

`EventLoop::Loop`, `Quit`, `QueueInLoop` and `DoPendingFunctors` with the threads that call them.
`QueueInLoop` pushes under the mutex and writes to the eventfd afterwards; the two are separate
steps here, as are the tests and writes of `quit_`. What the handlers and the functors do is seen
only through their calls of the loop.

The functor queue of `Rnet.Network.EventLoop` is what the components see of this machine.
-/
namespace Rnet.Network

open Check

/-- Where the loop thread is. -/
inductive LoopPoint where
  /-- `Loop()` is not running. -/
  | outside
  /-- At the test of `while (!quit_)`. -/
  | test
  | polling
  /-- In the handlers of the active channels. -/
  | handling
  /-- In `DoPendingFunctors`, before the swap. -/
  | calling
  /-- In `DoPendingFunctors`, after the swap. -/
  | running
  deriving DecidableEq, Repr

/-- Where another thread is that calls the loop. -/
inductive Caller (F : Type) where
  | idle
  /-- In `QueueInLoop`, before it takes the mutex. -/
  | queueing (f : F)
  /-- In `QueueInLoop`, after the push and before the write to the eventfd. -/
  | pushed
  /-- In `Quit`, after the write of `quit_` and before the write to the eventfd. -/
  | quitting
  deriving DecidableEq, Repr

inductive LoopFault where
  /-- The `assert(!looping_)` of `Loop`. -/
  | looping
  deriving DecidableEq, Repr

/-- A call of `DoPendingFunctors`: what the queue held at its swap, and what it invoked. -/
structure Round (F : Type) where
  held : List F
  invoked : List F
  deriving DecidableEq, Repr

structure Loop (F : Type) where
  point : LoopPoint
  looping : Bool
  quit : Bool
  callingPendingFunctors : Bool
  pendingFunctors : List F
  /-- The functors `DoPendingFunctors` has swapped out and not called yet. -/
  functors : List F
  /-- The counter of the eventfd `wakeupFd_`. -/
  wakeups : Nat
  /-- `activeChannels_` has the wakeup channel, and `Loop()` has not come to it yet. -/
  wakeupActive : Bool
  /-- The loop thread is in `QueueInLoop`, before its write to the eventfd. -/
  waking : Bool
  callers : Tid → Caller F
  -- The rest is history: no function reads it.
  /-- The functors pushed, in the order of the mutex. -/
  pushed : List F
  invoked : List F
  /-- The call of `DoPendingFunctors` that is running. -/
  round : Round F
  /-- The calls that have returned. -/
  rounds : List (Round F)
  /-- The calls of `Quit` that have set `quit_`. -/
  quits : Nat

/-- The largest value of an eventfd. -/
def kMaxWakeups : Nat := 2 ^ 64 - 2

namespace Loop

variable {F : Type}

def start : Loop F where
  point := .outside
  looping := false
  quit := false
  callingPendingFunctors := false
  pendingFunctors := []
  functors := []
  wakeups := 0
  wakeupActive := false
  waking := false
  callers _ := .idle
  pushed := []
  invoked := []
  round := ⟨[], []⟩
  rounds := []
  quits := 0

/-- The entry of `Loop()`. -/
def loop (l : Loop F) : Comp LoopFault (Loop F) := do
  require (l.point = .outside)
  ensure .looping (l.looping = false)
  -- a `Quit()` that came before is forgotten here
  return { l with point := .test, looping := true, quit := false }

/-- The test of `quit_`, and the end of `Loop()` if it holds. -/
def test (l : Loop F) : Comp LoopFault (Loop F) := do
  require (l.point = .test)
  if l.quit then return { l with point := .outside, looping := false }
  else return { l with point := .polling }

/-- The poll returned. It may report the wakeup channel if the counter is not zero. -/
def poll (l : Loop F) (wakeup : Bool) : Comp LoopFault (Loop F) := do
  require (l.point = .polling ∧ (wakeup = true → 0 < l.wakeups))
  return { l with point := .handling, wakeupActive := wakeup }

/-- The read takes the counter back to zero. -/
def handleWakeUp (l : Loop F) : Comp LoopFault (Loop F) := do
  require (l.point = .handling ∧ l.wakeupActive = true)
  return { l with wakeups := 0, wakeupActive := false }

def doPendingFunctors (l : Loop F) : Comp LoopFault (Loop F) := do
  require (l.point = .handling ∧ l.wakeupActive = false)
  return { l with point := .calling, callingPendingFunctors := true }

def swap (l : Loop F) : Comp LoopFault (Loop F) := do
  require (l.point = .calling)
  return { l with
    point := .running
    functors := l.pendingFunctors
    pendingFunctors := []
    round := ⟨l.pendingFunctors, []⟩ }

def next (l : Loop F) : Comp LoopFault (Loop F) := do
  require (l.point = .running)
  match l.functors with
  | [] => .error .disabled
  | f :: rest =>
    return { l with
      functors := rest
      invoked := l.invoked ++ [f]
      round := { l.round with invoked := l.round.invoked ++ [f] } }

def finish (l : Loop F) : Comp LoopFault (Loop F) := do
  require (l.point = .running ∧ l.functors = [])
  return { l with point := .test, callingPendingFunctors := false, rounds := l.rounds ++ [l.round] }

/-- The write of `Wakeup`, which fails at the limit of the counter. -/
def wakeup (l : Loop F) : Loop F := { l with wakeups := min (l.wakeups + 1) kMaxWakeups }

/-- The locked push of `QueueInLoop`. -/
def push (l : Loop F) (f : F) : Loop F :=
  { l with pendingFunctors := l.pendingFunctors ++ [f], pushed := l.pushed ++ [f] }

/-- User code may run on the loop thread: outside `Loop()`, in a handler or in a functor. -/
def UserCode (l : Loop F) : Prop := l.point = .outside ∨ l.point = .handling ∨ l.point = .running

instance (l : Loop F) : Decidable l.UserCode := inferInstanceAs (Decidable (_ ∨ _ ∨ _))

/-- `QueueInLoop` on the loop thread, up to its write to the eventfd. -/
def queueInLoop (l : Loop F) (f : F) : Comp LoopFault (Loop F) := do
  require l.UserCode
  -- in a handler no wakeup is needed: `DoPendingFunctors` comes before the next poll
  return { l.push f with waking := l.callingPendingFunctors }

/-- `quit_ = true`. -/
def setQuit (l : Loop F) : Loop F := { l with quit := true, quits := l.quits + 1 }

def setCaller (l : Loop F) (t : Tid) (c : Caller F) : Loop F :=
  { l with callers := Function.update l.callers t c }

inductive Action (F : Type) where
  -- the loop thread
  | loop
  | test
  | poll (wakeup : Bool)
  | handleWakeUp
  | doPendingFunctors
  | swap
  | next
  | finish
  | queueInLoop (f : F)
  /-- The write to the eventfd in a `QueueInLoop` of the loop thread. -/
  | wakeup
  | quit
  -- another thread
  | callQueueInLoop (t : Tid) (f : F)
  | callPush (t : Tid)
  | callQuit (t : Tid)
  /-- The write to the eventfd in a `QueueInLoop` or a `Quit` of thread `t`. -/
  | callWakeup (t : Tid)
  deriving DecidableEq, Repr

def callPush (l : Loop F) (t : Tid) : Comp LoopFault (Loop F) :=
  match l.callers t with
  | .queueing f => return (l.push f).setCaller t .pushed
  | _ => .error .disabled

def callWakeup (l : Loop F) (t : Tid) : Comp LoopFault (Loop F) :=
  match l.callers t with
  | .pushed | .quitting => return l.wakeup.setCaller t .idle
  | _ => .error .disabled

def isIdle : Caller F → Bool
  | .idle => true
  | _ => false

/-- One step of the loop thread or of another one. The loop thread does nothing else before the
`QueueInLoop` it is in has returned. -/
def step (l : Loop F) (a : Action F) : Comp LoopFault (Loop F) :=
  match a with
  | .callQueueInLoop t f => do
    require (isIdle (l.callers t) = true)
    return l.setCaller t (.queueing f)
  | .callPush t => l.callPush t
  | .callQuit t => do
    require (isIdle (l.callers t) = true)
    return l.setQuit.setCaller t .quitting
  | .callWakeup t => l.callWakeup t
  | .wakeup => do
    require (l.waking = true)
    return { l.wakeup with waking := false }
  | .loop => do require (l.waking = false); l.loop
  | .test => do require (l.waking = false); l.test
  | .poll wakeup => do require (l.waking = false); l.poll wakeup
  | .handleWakeUp => do require (l.waking = false); l.handleWakeUp
  | .doPendingFunctors => do require (l.waking = false); l.doPendingFunctors
  | .swap => do require (l.waking = false); l.swap
  | .next => do require (l.waking = false); l.next
  | .finish => do require (l.waking = false); l.finish
  | .queueInLoop f => do require (l.waking = false); l.queueInLoop f
  | .quit => do
    require (l.waking = false ∧ l.UserCode)
    return l.setQuit

end Loop

end Rnet.Network
