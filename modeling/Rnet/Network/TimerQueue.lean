import Rnet.Lib.OrderedSet
import Rnet.Lib.Run
import Rnet.Network.EventLoop

/-!
# The timer queue

`rnet::network::TimerQueue` with the heap its raw `Timer*` point into. An address that was
freed may be handed out again by a later allocation; the sequence number tells the two timers
apart. `HandleRead` is taken apart into the steps between which user code can run: a callback
of the batch may add and cancel timers before the next one is started.

Times are microseconds, taken as integers: no clock difference overflows.
-/
namespace Rnet.Network

open Check

/-- A `Timer*`. -/
abbrev Addr := Nat

def uintptrMax : Addr := 2 ^ 64 - 1

def kMicroSecondsPerSecond : Int := 1000 * 1000

/-- A `double` interval, as far as the queue looks at it: whether it is greater than `0.0`, and
the number of microseconds `AddTime` converts it to. -/
structure Interval where
  positive : Bool
  micros : Int
  nonneg : positive = true → 0 ≤ micros

namespace Interval

/-- The interval `RunAt` and `RunAfter` pass: the timer does not repeat. -/
def once : Interval := ⟨false, 0, nofun⟩

/-- The interval of `RunEvery`. -/
def every (micros : Nat) : Interval := ⟨true, micros, fun _ => Int.natCast_nonneg micros⟩

end Interval

structure Timer where
  expiration : Int
  interval : Interval
  sequence : Nat

namespace Timer

def repeats (t : Timer) : Bool := t.interval.positive

/-- An expiration of `0` is `Timestamp::Invalid()`. -/
def restart (t : Timer) (now : Int) : Timer :=
  { t with expiration := if t.repeats then now + t.interval.micros else 0 }

@[simp] theorem restart_sequence (t : Timer) (now : Int) : (t.restart now).sequence = t.sequence := rfl

@[simp] theorem restart_repeats (t : Timer) (now : Int) : (t.restart now).repeats = t.repeats := rfl

end Timer

/-- Elements of `timers_`, ordered by expiration and then by address. -/
abbrev Entry := Int ×ₗ Addr

/-- Elements of `activeTimers_`, and the value of a `TimerId`. -/
abbrev ActiveTimer := Addr ×ₗ Nat

def entry (expiration : Int) (timer : Addr) : Entry := toLex (expiration, timer)

def active (timer : Addr) (sequence : Nat) : ActiveTimer := toLex (timer, sequence)

def Entry.when (e : Entry) : Int := (ofLex e).1
def Entry.timer (e : Entry) : Addr := (ofLex e).2
def ActiveTimer.timer (a : ActiveTimer) : Addr := (ofLex a).1
def ActiveTimer.sequence (a : ActiveTimer) : Nat := (ofLex a).2

@[simp] theorem entry_when (t : Int) (p : Addr) : (entry t p).when = t := rfl
@[simp] theorem entry_timer (t : Int) (p : Addr) : (entry t p).timer = p := rfl
@[simp] theorem active_timer (p : Addr) (q : Nat) : (active p q).timer = p := rfl
@[simp] theorem active_sequence (p : Addr) (q : Nat) : (active p q).sequence = q := rfl

theorem entry_ext {e f : Entry} (when : e.when = f.when) (timer : e.timer = f.timer) : e = f :=
  Prod.ext when timer

theorem active_ext {a b : ActiveTimer} (timer : a.timer = b.timer) (sequence : a.sequence = b.sequence) :
    a = b :=
  Prod.ext timer sequence

theorem entry_ne {e f : Entry} (different : e.timer ≠ f.timer) : e ≠ f :=
  fun same => different (congrArg Entry.timer same)

theorem active_ne {a b : ActiveTimer} (different : a.timer ≠ b.timer) : a ≠ b :=
  fun same => different (congrArg ActiveTimer.timer same)

theorem when_le {e f : Entry} (le : e ≤ f) : e.when ≤ f.when := by
  rcases Prod.Lex.le_iff.mp le with less | ⟨same, _⟩
  · exact le_of_lt less
  · exact le_of_eq same

/-- `GetExpired` looks for the first entry that is not below this one. -/
theorem lt_sentry {e : Entry} {now : Int} (range : e.timer < uintptrMax) :
    e < entry now uintptrMax ↔ e.when ≤ now := by
  rw [Prod.Lex.lt_iff, le_iff_lt_or_eq]
  constructor
  · rintro (less | ⟨same, _⟩)
    · exact Or.inl less
    · exact Or.inr same
  · rintro (less | same)
    · exact Or.inl less
    · exact Or.inr ⟨same, range⟩

inductive TimerFault where
  | sizesDiffer
  | cancelErase
  | expiredEnd
  | expiredErase
  | insertTimers
  | insertActive
  | useAfterFree
  | doubleFree
  deriving DecidableEq, Repr

/-- What the calls off the loop thread queue. -/
inductive TimerFunctor where
  | addTimerInLoop (timer : Addr)
  | cancelInLoop (id : ActiveTimer)

/-- The Timer a queued `AddTimerInLoop` owns. -/
def TimerFunctor.owned : TimerFunctor → Option Addr
  | .addTimerInLoop p => some p
  | .cancelInLoop _ => none

/-- What happened, for the statements about whole runs. -/
inductive TimerEvent where
  | inserted (timer : Addr) (sequence : Nat) (repeats : Bool)
  | cancelled (id : ActiveTimer)
  | started (sequence : Nat) (repeats : Bool)
  | deleted (sequence : Nat)
  deriving DecidableEq

structure Timespec where
  sec : Int
  nsec : Int
  deriving DecidableEq, Repr

/-- A running `HandleRead`: the expired entries, those not started yet, and whether a callback
is executing. `members` names the timers the entries pointed to when they were taken out. -/
structure Batch where
  now : Int
  expired : List Entry
  members : List ActiveTimer
  rest : List Entry
  running : Bool

structure TimerState where
  heap : Addr → Option Timer
  sNumCreated : Nat
  timers : OrderedSet Entry
  activeTimers : OrderedSet ActiveTimer
  callingExpiredTimers : Bool
  cancelingTimers : OrderedSet ActiveTimer
  batch : Option Batch
  /-- The expiration the timerfd is programmed for, until `HandleRead` reads it. -/
  alarm : Option Int
  settimes : List Timespec
  loop : EventLoop TimerFunctor
  /-- The threads that have pushed `AddTimerInLoop` and still have to return the id. -/
  returning : Tid → Option Addr
  issued : List ActiveTimer
  log : List TimerEvent

namespace TimerState

def start : TimerState :=
  { heap := fun _ => none, sNumCreated := 0, timers := .empty, activeTimers := .empty
    callingExpiredTimers := false, cancelingTimers := .empty, batch := none, alarm := none
    settimes := [], loop := .start, returning := fun _ => none, issued := [], log := [] }

/-- Any access through a `Timer*`. -/
def read (s : TimerState) (p : Addr) : Comp TimerFault Timer := demand .useAfterFree (s.heap p)

def record (s : TimerState) (event : TimerEvent) : TimerState := { s with log := s.log ++ [event] }

/-- `delete timer`. -/
def free (s : TimerState) (p : Addr) : Comp TimerFault TimerState := do
  let timer ← demand .doubleFree (s.heap p)
  return { s with heap := Function.update s.heap p none }.record (.deleted timer.sequence)

/-- `new Timer(cb, when, interval)`: any address not in use. -/
def newTimer (s : TimerState) (p : Addr) (expiration : Int) (interval : Interval) :
    Comp TimerFault TimerState := do
  -- an address that was freed may come again
  require (0 < p ∧ p < uintptrMax ∧ (s.heap p).isNone)
  return { s with
    heap := Function.update s.heap p (some ⟨expiration, interval, s.sNumCreated⟩)
    sNumCreated := s.sNumCreated + 1 }

/-! ### The timerfd -/

def howMuchTimeFromNow (expiration now : Int) : Timespec :=
  -- an expiration in the past, or nearly, still arms the timerfd
  let difference := expiration - now
  let microseconds := if difference < 100 then 100 else difference
  ⟨microseconds.tdiv kMicroSecondsPerSecond, microseconds.tmod kMicroSecondsPerSecond * 1000⟩

/-- `clock` is what `Timestamp::Now()` returns in this call. -/
def resetTimerfd (s : TimerState) (expiration clock : Int) : TimerState :=
  { s with
    alarm := some expiration
    settimes := s.settimes ++ [howMuchTimeFromNow expiration clock] }

/-! ### The two sets -/

def insert (s : TimerState) (p : Addr) : Comp TimerFault (TimerState × Bool) := do
  ensure .sizesDiffer (s.timers.size = s.activeTimers.size)
  let timer ← s.read p
  let earliestChanged := match s.timers.first with
    | none => true
    | some first => decide (timer.expiration < first.when)
  let (timers, success) := s.timers.insert (entry timer.expiration p)
  ensure .insertTimers (success = true)
  let (activeTimers, success) := s.activeTimers.insert (active p timer.sequence)
  ensure .insertActive (success = true)
  ensure .sizesDiffer (timers.size = activeTimers.size)
  return ({ s with timers := timers, activeTimers := activeTimers }, earliestChanged)

def addTimerInLoop (s : TimerState) (p : Addr) (clock : Int) : Comp TimerFault TimerState := do
  let (s, earliestChanged) ← s.insert p
  let timer ← s.read p
  let s := s.record (.inserted p timer.sequence timer.repeats)
  if earliestChanged then return s.resetTimerfd timer.expiration clock else return s

/-- The branch of `CancelInLoop` for a timer that is armed. -/
def cancelArmed (s : TimerState) (id : ActiveTimer) : Comp TimerFault TimerState := do
  let timer ← s.read id.timer
  -- the entry is found by the expiration the Timer has now
  let (timers, n) := s.timers.erase (entry timer.expiration id.timer)
  ensure .cancelErase (n = 1)
  let s ← { s with timers := timers }.free id.timer
  return { s with activeTimers := (s.activeTimers.erase id).1 }

def cancelInLoop (s : TimerState) (id : ActiveTimer) : Comp TimerFault TimerState := do
  ensure .sizesDiffer (s.timers.size = s.activeTimers.size)
  let s ← if id ∈ s.activeTimers then s.cancelArmed id
    -- it may be one of the batch, whose `Reset` then asks for it
    else if s.callingExpiredTimers then
      pure { s with cancelingTimers := (s.cancelingTimers.insert id).1 }
    else pure s
  ensure .sizesDiffer (s.timers.size = s.activeTimers.size)
  return s.record (.cancelled id)

/-- The loop of `GetExpired` over the entries it has moved out of `timers_`. -/
def eraseActive : List Entry → TimerState → Comp TimerFault TimerState
  | [], s => pure s
  | e :: rest, s => do
    let timer ← s.read e.timer
    let (activeTimers, n) := s.activeTimers.erase (active e.timer timer.sequence)
    ensure .expiredErase (n = 1)
    eraseActive rest { s with activeTimers := activeTimers }

def getExpired (s : TimerState) (now : Int) : Comp TimerFault (TimerState × List Entry) := do
  ensure .sizesDiffer (s.timers.size = s.activeTimers.size)
  -- no Timer has the largest address, so `lower_bound` passes all that expire at `now`
  let sentry := entry now uintptrMax
  let expired := s.timers.below sentry
  let timers := s.timers.onward sentry
  ensure .expiredEnd (timers.first.all fun first => decide (now < first.when))
  let s ← eraseActive expired { s with timers := timers }
  ensure .sizesDiffer (s.timers.size = s.activeTimers.size)
  return (s, expired)

/-- The loop of `Reset`. What `Insert` returns is not looked at here. -/
def resetLoop (now : Int) : List Entry → TimerState → Comp TimerFault TimerState
  | [], s => pure s
  | e :: rest, s => do
    let timer ← s.read e.timer
    if timer.repeats = true ∧ active e.timer timer.sequence ∉ s.cancelingTimers then do
      let restarted := { s with heap := Function.update s.heap e.timer (some (timer.restart now)) }
      let (s, _) ← restarted.insert e.timer
      resetLoop now rest s
    else do
      let s ← s.free e.timer
      resetLoop now rest s

def reset (s : TimerState) (expired : List Entry) (now clock : Int) : Comp TimerFault TimerState := do
  let s ← resetLoop now expired s
  let nextExpire ← match s.timers.first with
    | none => pure 0
    | some first => do
      let timer ← s.read first.timer
      pure timer.expiration
  -- `nextExpire.Valid()`
  if 0 < nextExpire then return s.resetTimerfd nextExpire clock else return s

/-! ### Steps -/

inductive Action where
  /-- `AddTimer` off the loop thread: allocation, push, and the read of the sequence for the id. -/
  | addOther (t : Tid) (p : Addr) (expiration : Int) (interval : Interval)
  | cancelOther (t : Tid) (id : ActiveTimer)
  | push (t : Tid)
  | returnId (t : Tid)
  /-- `AddTimer` and `Cancel` on the loop thread. -/
  | add (p : Addr) (expiration : Int) (interval : Interval) (clock : Int)
  | cancel (id : ActiveTimer)
  | poll
  | swap
  | functor (clock : Int)
  | finish
  /-- `HandleRead` up to its loop; `ready` says whether the read of the timerfd got the alarm. -/
  | handleRead (now : Int) (ready : Bool)
  | run
  | ret
  | reset (clock : Int)

/-- The loop thread may call `AddTimer` and `Cancel`: anywhere outside `HandleRead`, and inside
it in a timer callback. -/
def inUserCode (s : TimerState) : Bool :=
  match s.batch with
  | some b => b.running
  | none => true

/-- The timers the entries point to. -/
def membersOf (s : TimerState) (entries : List Entry) : List ActiveTimer :=
  entries.filterMap fun e => (s.heap e.timer).map fun timer => active e.timer timer.sequence

/-- Runs a functor of the queue. -/
def call (s : TimerState) (clock : Int) : TimerFunctor → Comp TimerFault TimerState
  | .addTimerInLoop p => s.addTimerInLoop p clock
  | .cancelInLoop id => s.cancelInLoop id

def addTimer (s : TimerState) (p : Addr) (expiration : Int) (interval : Interval) (clock : Int) :
    Comp TimerFault TimerState := do
  let s ← s.newTimer p expiration interval
  let s ← s.addTimerInLoop p clock
  -- the id is made after `RunInLoop`
  let timer ← s.read p
  return { s with issued := s.issued ++ [active p timer.sequence] }

/-- Up to the loop over the expired entries. -/
def handleRead (s : TimerState) (now : Int) (ready : Bool) : Comp TimerFault TimerState := do
  let s := if ready then { s with alarm := none } else s
  let (s, expired) ← s.getExpired now
  return { s with
    callingExpiredTimers := true
    cancelingTimers := .empty
    batch := some ⟨now, expired, s.membersOf expired, expired, false⟩ }

/-- One call of `Run` in the loop over the expired entries. -/
def runNext (s : TimerState) (b : Batch) : Comp TimerFault TimerState :=
  match b.rest with
  | [] => .error .disabled
  | e :: rest => do
    let timer ← s.read e.timer
    return { s with batch := some { b with rest := rest, running := true } }.record
      (.started timer.sequence timer.repeats)

def step (s : TimerState) : Action → Comp TimerFault TimerState
  | .addOther t p expiration interval => do
    require ((s.returning t).isNone)
    let s ← s.newTimer p expiration interval
    let loop ← s.loop.enter t (.addTimerInLoop p)
    return { s with loop := loop }
  | .cancelOther t id => do
    require ((s.returning t).isNone)
    let loop ← s.loop.enter t (.cancelInLoop id)
    return { s with loop := loop }
  | .push t => do
    let (f, loop) ← s.loop.push t
    return { s with loop := loop, returning := Function.update s.returning t f.owned }
  | .returnId t => do
    let p ← given (s.returning t)
    -- by now the loop may have run and deleted the Timer
    let timer ← s.read p
    return { s with
      returning := Function.update s.returning t none
      issued := s.issued ++ [active p timer.sequence] }
  | .add p expiration interval clock => do
    require (s.inUserCode = true)
    s.addTimer p expiration interval clock
  | .cancel id => do
    require (s.inUserCode = true)
    s.cancelInLoop id
  | .poll => do
    require (s.batch.isNone)
    let loop ← s.loop.poll
    return { s with loop := loop }
  | .swap => do
    require (s.batch.isNone)
    let loop ← s.loop.swap
    return { s with loop := loop }
  | .functor clock => do
    require (s.batch.isNone)
    let (f, loop) ← s.loop.next
    { s with loop := loop }.call clock f
  | .finish => do
    require (s.batch.isNone)
    let loop ← s.loop.finish
    return { s with loop := loop }
  | .handleRead now ready => do
    require (s.batch.isNone ∧ s.loop.phase = .handling)
    s.handleRead now ready
  | .run => do
    let b ← given s.batch
    require (b.running = false)
    s.runNext b
  | .ret => do
    let b ← given s.batch
    require (b.running = true)
    return { s with batch := some { b with running := false } }
  | .reset clock => do
    let b ← given s.batch
    require (b.running = false ∧ b.rest = [])
    let s ← { s with callingExpiredTimers := false }.reset b.expired b.now clock
    return { s with batch := none }

end TimerState

end Rnet.Network
