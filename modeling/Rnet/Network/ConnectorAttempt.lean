import Rnet.Network.ConnectorSteps

/-!
# One attempt at a time

`StartInLoop` asserts that the connector is disconnected, `Connecting` that the channel of the
attempt before is gone, and `~Channel` that the poller does not know the channel any more. Nothing
in the connector sees to the first two: `Start` and `Restart` do not look at the state, a timer is
not cancelled, and the channel is reset by a functor that runs later. Where the user calls them
only between two attempts, the asserts hold.
-/
namespace Rnet.Network

open Check

namespace Connector

/-! ### Attempts that overlap -/

/-- The kernel takes the connection up, on descriptor `sockfd`. -/
def underWay (sockfd : Fd) : KernelAnswer := ⟨sockfd, .einprogress, 0, false⟩

def refused (sockfd : Fd) : KernelAnswer := ⟨sockfd, .econnrefused, 0, false⟩

def startTwice : List Action :=
  [.start, .resume (underWay 7), .resume (underWay 7), .start, .resume (underWay 8)]

/-- The timer of the first attempt fires in the second one. -/
def stopThenStart : List Action :=
  [.start, .resume (refused 7), .resume (refused 7), .stop, .start, .resume (underWay 7),
    .resume (underWay 7), .poll none, .fire 0]

/-- The channel whose event is handled is not reset yet. -/
def restartInCallback : List Action :=
  [.start, .resume (underWay 7), .resume (underWay 7), .poll (some epollOut), .dispatch,
    .resume (underWay 7), .resume (underWay 7), .restart, .resume (underWay 8), .resume (underWay 8)]

/-- `Restart` forgets the attempt it interrupts. -/
def restartWhileConnecting : List Action :=
  [.start, .resume (underWay 7), .resume (underWay 7), .restart, .resume (underWay 8), .resume (underWay 8)]

theorem attempts_overlap :
    Run.exec step new startTwice = .error (.fault .startInLoop) ∧
    Run.exec step new stopThenStart = .error (.fault .startInLoop) ∧
    Run.exec step new restartInCallback = .error (.fault .connecting) ∧
    Run.exec step new restartWhileConnecting = .error (.fault .connecting) := by
  refine ⟨?_, ?_, ?_, ?_⟩
  all_goals
    apply error_of_halt?
    decide +kernel

/-! ### Steps of the loop -/

variable {s t : Connector} {p : Place} {c : Channel}

/-- The functors that stand for attempts and those that reset the channel stay what they are. -/
theorem Inv.requeue {l : EventLoop ConnectorFunctor} (inv : Inv s p)
    (once : l.CarriesOnce startKey) (carries : l.Carries startKey () ↔ s.loop.Carries startKey ())
    (resets : l.queued.count .resetChannel = s.loop.queued.count .resetChannel)
    (inFlight : ∀ t, l.inFlight t ≠ some .resetChannel)
    (phase : l.phase = s.loop.phase ∨ s.active ≠ .current ∧ s.active ≠ .waiting) :
    Inv { s with loop := l } p where
  placed := { inv.placed with once := once, queued := carries.trans inv.placed.queued }
  tasked := by
    refine ⟨inv.tasked.outside, fun current => ?_, fun waiting => ?_⟩
    · obtain ⟨tasks, handling, present⟩ := inv.tasked.inside current
      rcases phase with same | ⟨other, -⟩
      · exact ⟨tasks, same.trans handling, present⟩
      · exact absurd current other
    · obtain ⟨handling, connecting⟩ := inv.tasked.waiting waiting
      rcases phase with same | ⟨-, other⟩
      · exact ⟨same.trans handling, connecting⟩
      · exact absurd waiting other
  wired := { inv.wired with resets := resets.trans inv.wired.resets, inFlight := inFlight }

/-- The same for a step that leaves the functors of the attempts alone. -/
theorem Inv.requeue_silent {l : EventLoop ConnectorFunctor} (inv : Inv s p)
    (same : EventLoop.SameKeys startKey s.loop l)
    (resets : l.queued.count .resetChannel = s.loop.queued.count .resetChannel)
    (inFlight : ∀ t, l.inFlight t ≠ some .resetChannel)
    (phase : l.phase = s.loop.phase ∨ s.active ≠ .current ∧ s.active ≠ .waiting) :
    Inv { s with loop := l } p :=
  inv.requeue (same.carriesOnce inv.placed.once) (same.carries ()) resets inFlight phase

/-- A thread that pushes or calls never has the functor that resets the channel. -/
theorem Wired.inFlight_update (wired : Wired s) (t : Tid) {o : Option ConnectorFunctor}
    (other : o ≠ some .resetChannel) (u : Tid) :
    Function.update s.loop.inFlight t o u ≠ some .resetChannel := by
  by_cases same : u = t
  · subst same
    rw [Function.update_self]
    exact other
  · rw [Function.update_of_ne same]
    exact wired.inFlight u

theorem Inv.push {u : Tid} {f : ConnectorFunctor} (inv : Inv s p) (found : s.loop.inFlight u = some f) :
    Inv { s with loop := { s.loop with
      pendingFunctors := s.loop.pendingFunctors ++ [f]
      inFlight := Function.update s.loop.inFlight u none } } p := by
  have queued : EventLoop.queued { s.loop with
      pendingFunctors := s.loop.pendingFunctors ++ [f]
      inFlight := Function.update s.loop.inFlight u none } = s.loop.queued ++ [f] := by
    simp [EventLoop.queued]
  have other : f ≠ .resetChannel := by
    rintro rfl
    exact inv.wired.inFlight u found
  apply inv.requeue
  · exact EventLoop.carriesOnce_push inv.placed.once found queued rfl
  · exact EventLoop.carries_push found queued rfl ()
  · rw [queued, List.count_append, List.count_singleton]
    simp [other]
  · exact inv.wired.inFlight_update u (by simp)
  · exact Or.inl rfl

/-- The channel of the attempt under way is not to be reset, nor one that is not there. -/
theorem Wired.no_reset (wired : Wired s) (settled : s.state = .kConnecting ∨ s.channel = none) :
    s.loop.queued.count .resetChannel = 0 := by
  rw [wired.resets, if_neg]
  rintro ⟨ended, present⟩
  rcases settled with connecting | empty
  · exact ended connecting
  · exact present empty

/-! ### Attempts to come -/

theorem Inv.outside (inv : Inv s p) (empty : s.channel = none) : s.active ≠ .current := by
  intro current
  exact (inv.tasked.inside current).2.2 empty

theorem Inv.nowhere (inv : Inv s p) (ended : s.state ≠ .kConnecting) (empty : s.channel = none)
    (unstarted : s.Unstarted) : p = .nowhere := by
  obtain ⟨unwatched, timers, connect⟩ := unstarted
  have awaited := inv.placed.awaited
  cases p with
  | nowhere => rfl
  | queued | called => simp [Place.awaited, unwatched] at awaited
  | timer => simpa [timers] using inv.placed.timers
  | connect =>
    have tasks := inv.tasked.outside (inv.outside empty)
    simp [tasks, Place.tasks] at connect
  | attempt => exact absurd (inv.placed.attempt.mpr rfl) ended

/-- `Start` and `Restart` on the loop thread. -/
theorem Inv.call (inv : Inv s .nowhere) (connect_ : Bool) (delay : Nat) (ended : s.state ≠ .kConnecting)
    (empty : s.channel = none) :
    Inv ({ s with
      state := .kDisconnected, retryDelayMs := delay, connect_ := connect_, starts := s.starts + 1 }.push
        .startInLoop) .called := by
  -- without a channel there is no event that is being handled
  have outside := inv.outside empty
  have idle : s.todo = [] := inv.tasked.outside outside
  refine ⟨⟨inv.placed.once, ?_, inv.placed.timers, ?_, ?_, fun _ _ => rfl, fun _ => empty⟩, ⟨?_, ?_, ?_⟩,
    ⟨by rintro ⟨⟩, fun _ => inv.wired.detached ended, fun _ => inv.wired.removed ended, inv.wired.handling, ?_,
      inv.wired.inFlight⟩⟩
  · simpa [Connector.push] using inv.placed.queued
  · rw [Place.awaited]
    exact congrArg (· + 1) inv.placed.awaited
  · simp [Connector.push]
  · intro _
    simp [Connector.push, Place.tasks, idle]
  · intro current
    exact absurd current outside
  · intro waiting
    exact absurd (inv.tasked.waiting waiting).2 ended
  · rw [if_neg (by simp [Connector.push, empty])]
    exact inv.wired.no_reset (Or.inr empty)

/-- `Start` on another thread. -/
theorem Inv.callStart {connect_ : Bool} {u : Tid} (inv : Inv s .nowhere) (idle : s.state = .kDisconnected)
    (empty : s.channel = none) (free : s.loop.inFlight u = none) :
    Inv { s with
      connect_ := connect_
      starts := s.starts + 1
      loop := { s.loop with inFlight := Function.update s.loop.inFlight u (some .startInLoop) } }
      .queued := by
  -- no other `StartInLoop` is on the way
  have absent : ¬ s.loop.Carries startKey () := by simp [inv.placed.queued]
  refine ⟨⟨?_, ?_, inv.placed.timers, ?_, ?_, fun _ _ => idle, fun _ => empty⟩,
    ⟨inv.tasked.outside, inv.tasked.inside, inv.tasked.waiting⟩,
    { inv.wired with inFlight := inv.wired.inFlight_update u (by simp) }⟩
  · exact EventLoop.carriesOnce_enter inv.placed.once rfl rfl fun _ _ => absent
  · have entered : EventLoop.Carries startKey { s.loop with
        inFlight := Function.update s.loop.inFlight u (some .startInLoop) } () ↔
          s.loop.Carries startKey () ∨ startKey .startInLoop = some () :=
      EventLoop.carries_enter free (by rfl) (by rfl) ()
    simp [entered, startKey]
  · rw [Place.awaited]
    exact congrArg (· + 1) inv.placed.awaited
  · simp [idle]

/-- `StartInLoop` goes on to `Connect` or gives up. -/
theorem Inv.begin (inv : Inv s .nowhere) (idle : s.state = .kDisconnected) (empty : s.channel = none) :
    ∃ q, Inv s.begin q := by
  unfold Connector.begin
  split
  · have outside := inv.outside empty
    refine ⟨.connect, ⟨inv.placed.once, ?_, inv.placed.timers, inv.placed.awaited, ?_, fun _ _ => idle,
      fun _ => empty⟩, ⟨?_, ?_, inv.tasked.waiting⟩, { inv.wired with }⟩
    · simpa [Connector.push] using inv.placed.queued
    · simp [Connector.push, idle]
    · intro _
      simp [Connector.push, Place.tasks, inv.tasked.outside outside]
    · intro current
      exact absurd current outside
  · exact ⟨.nowhere, inv⟩

/-! ### The end of an attempt -/

/-- `Retry` from a state in which nothing else is to come. -/
theorem Inv.retry (inv : Inv { s with state := .kDisconnected } .nowhere) (sockfd : Fd) :
    ∃ q, Inv (s.retry sockfd) q := by
  simp only [Connector.retry]
  split
  · refine ⟨.timer, ⟨inv.placed.once, ?_, ?_, inv.placed.awaited, ?_, fun _ _ => rfl, by simp [Place.Clear]⟩,
      ⟨inv.tasked.outside, inv.tasked.inside, inv.tasked.waiting⟩, { inv.wired with }⟩
    · simpa [runAfter, Connector.close, release] using inv.placed.queued
    · simpa [runAfter, Connector.close, release] using inv.placed.timers
    · simp [runAfter]
  · exact ⟨.nowhere, { inv.placed with }, { inv.tasked with }, { inv.wired with }⟩

theorem Inv.disconnected (inv : Inv s p) (idle : s.state = .kDisconnected) :
    Inv { s with state := .kDisconnected } p := by
  rw [← idle]
  exact inv

/-- The channel leaves the poller and waits for its reset. -/
theorem Inv.detach (inv : Inv s .attempt) (attached : s.Attached c) (state : ConnectorState)
    (ended : state ≠ .kConnecting) (served : s.active ≠ .waiting)
    (tasks : s.active = .current → EventTasks state s.todo) :
    Inv { s.detach c with state := state } .nowhere := by
  have same : EventLoop.SameKeys startKey s.loop (s.loop.queueInLoop .resetChannel) :=
    EventLoop.sameKeys_queueInLoop s.loop rfl
  have connecting : s.state = .kConnecting := inv.placed.attempt.mpr rfl
  refine ⟨⟨same.carriesOnce inv.placed.once, ?_, inv.placed.timers, inv.placed.awaited, ?_, by simp,
      by simp [Place.Clear]⟩,
    ⟨inv.tasked.outside, ?_, ?_⟩, ⟨?_, fun _ => rfl, ?_, ?_, ?_, inv.wired.inFlight⟩⟩
  · rw [Connector.detach, same.carries, inv.placed.queued]
    simp
  · simpa using ended
  · intro current
    exact ⟨tasks current, (inv.tasked.inside current).2.1, by rintro ⟨⟩⟩
  · intro waiting
    exact absurd waiting served
  · intro same
    exact absurd same ended
  · rintro - d channel
    rw [← Option.some.inj channel]
  · intro d channel handling
    rw [← Option.some.inj channel] at handling
    exact inv.wired.handling c attached.channel handling
  · -- the reset that is queued now is the only one
    have unqueued := inv.wired.no_reset (Or.inl connecting)
    simp [Connector.detach, unqueued, ended]

theorem Inv.attempt_of (inv : Inv s p) (connecting : s.state = .kConnecting) : Inv s .attempt := by
  obtain rfl := inv.placed.attempt.mp connecting
  exact inv

/-- The rest of the handling of an event. -/
theorem Inv.pop {rest : List ConnectorTask} (inv : Inv s p)
    (current : s.active = .current) (tasks : EventTasks s.state rest) : Inv { s with todo := rest } p where
  placed := { inv.placed with }
  tasked := by
    refine ⟨fun outside => absurd current outside, fun inside => ?_, inv.tasked.waiting⟩
    exact ⟨tasks, (inv.tasked.inside inside).2⟩
  wired := { inv.wired with }

/-- `Connecting`. -/
theorem Inv.attempt (inv : Inv s .nowhere) (idle : s.state = .kDisconnected) (empty : s.channel = none)
    (sockfd : Fd) : Inv (s.attempt sockfd) .attempt := by
  have outside := inv.outside empty
  refine ⟨⟨inv.placed.once, ?_, inv.placed.timers, inv.placed.awaited, ?_, by simp, by simp [Place.Clear]⟩,
    ⟨inv.tasked.outside, ?_, ?_⟩,
    ⟨fun _ => ⟨_, rfl, rfl, rfl, rfl⟩, fun other => absurd rfl other, fun other => absurd rfl other, ?_, ?_,
      inv.wired.inFlight⟩⟩
  · simpa [Connector.attempt] using inv.placed.queued
  · simp [Connector.attempt]
  · intro current
    exact absurd current outside
  · intro waiting
    have connecting := (inv.tasked.waiting waiting).2
    simp [idle] at connecting
  · rintro d channel handling
    rw [← Option.some.inj channel] at handling
    cases handling
  · rw [if_neg (by simp [Connector.attempt])]
    exact inv.wired.no_reset (Or.inr empty)

/-! ### Every step -/

/-- `StartInLoop` called in place. -/
theorem Inv.startInLoop {rest : List ConnectorTask} (inv : Inv s p) (top : s.todo = .startInLoop :: rest) :
    ∃ q, Inv { s with todo := rest, begun := s.begun + 1 }.begin q := by
  obtain ⟨rfl, rfl, outside⟩ := inv.tasked.called top
  have idle : s.state = .kDisconnected := inv.placed.idle (by simp) (by simp)
  have empty : s.channel = none := inv.placed.clear (Or.inr (Or.inl rfl))
  have taken : Inv { s with todo := [], begun := s.begun + 1 } .nowhere := by
    refine ⟨⟨inv.placed.once, ?_, inv.placed.timers, inv.placed.awaited, ?_, by simp, by simp [Place.Clear]⟩,
      ⟨fun _ => rfl, fun current => absurd current outside, inv.tasked.waiting⟩, { inv.wired with }⟩
    · simpa using inv.placed.queued
    · simp [idle]
  exact taken.begin idle empty

theorem Inv.fire {n : Nat} (inv : Inv s p) (empty : s.channel = none) (armed : n < s.timers.length) :
    ∃ q, Inv { s with timers := s.timers.eraseIdx n }.begin q := by
  obtain rfl := inv.placed.timer armed
  have idle : s.state = .kDisconnected := inv.placed.idle (by simp) (by simp)
  have single := inv.placed.timers
  have taken : Inv { s with timers := s.timers.eraseIdx n } .nowhere := by
    refine ⟨⟨inv.placed.once, ?_, ?_, inv.placed.awaited, ?_, by simp, by simp [Place.Clear]⟩,
      ⟨inv.tasked.outside, inv.tasked.inside, inv.tasked.waiting⟩, { inv.wired with }⟩
    · simpa using inv.placed.queued
    · simp only [if_true] at single
      simp [List.length_eraseIdx_of_lt armed, single]
    · simp [idle]
  exact taken.begin idle empty

/-- `DoPendingFunctors` calls `StartInLoop`. -/
theorem Inv.nextStart {rest : List ConnectorFunctor} (inv : Inv s p)
    (first : s.loop.functors = .startInLoop :: rest) :
    ∃ q, Inv { s with loop := { s.loop with functors := rest }, begun := s.begun + 1 }.begin q := by
  obtain rfl := inv.placed.first first
  have idle : s.state = .kDisconnected := inv.placed.idle (by simp) (by simp)
  have empty : s.channel = none := inv.placed.clear (Or.inl rfl)
  have queued : s.loop.queued = .startInLoop :: EventLoop.queued { s.loop with functors := rest } := by
    simp [EventLoop.queued, first]
  have carries := EventLoop.carries_next inv.placed.once queued rfl ()
  have resets : s.loop.queued.count .resetChannel =
      (EventLoop.queued { s.loop with functors := rest }).count .resetChannel := by
    rw [queued]
    simp
  have taken : Inv { s with loop := { s.loop with functors := rest }, begun := s.begun + 1 } .nowhere := by
    refine ⟨⟨EventLoop.carriesOnce_next inv.placed.once queued rfl, ?_, inv.placed.timers, inv.placed.awaited,
      ?_, by simp, by simp [Place.Clear]⟩, ⟨inv.tasked.outside, inv.tasked.inside, inv.tasked.waiting⟩,
      { inv.wired with resets := resets.symm.trans inv.wired.resets }⟩
    · simp [carries, startKey]
    · simp [idle]
  exact taken.begin idle empty

/-- A functor that does not stand for an attempt leaves the queue. -/
theorem Inv.next {rest : List ConnectorFunctor} (inv : Inv s p)
    (first : s.loop.functors = .stopInLoop :: rest) :
    Inv { s with loop := { s.loop with functors := rest } } p := by
  have queued : s.loop.queued = .stopInLoop :: EventLoop.queued { s.loop with functors := rest } := by
    simp [EventLoop.queued, first]
  apply inv.requeue_silent (EventLoop.sameKeys_next rfl queued rfl)
  · rw [queued]
    simp
  · exact inv.wired.inFlight
  · exact Or.inl rfl

theorem Inv.nextReset {rest : List ConnectorFunctor} (inv : Inv s p) (idle : s.todo = [])
    (first : s.loop.functors = .resetChannel :: rest) :
    Inv { s with loop := { s.loop with functors := rest }, channel := none } p := by
  have queued : s.loop.queued = .resetChannel :: EventLoop.queued { s.loop with functors := rest } := by
    simp [EventLoop.queued, first]
  have same : EventLoop.SameKeys startKey s.loop { s.loop with functors := rest } :=
    EventLoop.sameKeys_next rfl queued rfl
  have outside := inv.tasked.idle idle
  have resets := inv.wired.resets
  -- the functor that is called was the only one of its kind
  rw [queued, List.count_cons_self] at resets
  split at resets
  next pending =>
    refine ⟨⟨same.carriesOnce inv.placed.once, (same.carries ()).trans inv.placed.queued, inv.placed.timers,
      inv.placed.awaited, inv.placed.attempt, inv.placed.idle, fun _ => rfl⟩,
      ⟨inv.tasked.outside, fun current => absurd current outside, inv.tasked.waiting⟩,
      ⟨fun connecting => absurd connecting pending.1, inv.wired.detached, by simp, by simp, ?_, inv.wired.inFlight⟩⟩
    simpa using resets
  next => exact absurd resets (Nat.succ_ne_zero _)

/-- What the loop thread does in an event of the channel. -/
theorem Inv.dispatch (inv : Inv s p) (waiting : s.active = .waiting) (attached : s.Attached c) :
    Inv { s with
      active := .current
      channel := some { c with eventHandling := true }
      todo := callbacks c.revents ++ [.handled] } p := by
  obtain ⟨handling, connecting⟩ := inv.tasked.waiting waiting
  obtain rfl := inv.placed.attempt.mp connecting
  refine ⟨{ inv.placed with clear := by simp [Place.Clear] }, ⟨by simp, fun _ => ⟨?_, handling, by simp⟩, by simp⟩,
    ⟨fun _ => ⟨_, rfl, attached.events, attached.index, attached.poller⟩, inv.wired.detached,
      fun ended => absurd connecting ended, fun _ _ _ => rfl, ?_, inv.wired.inFlight⟩⟩
  · -- the four combinations of the two events
    unfold callbacks
    split <;> split
    · exact .both connecting
    · exact .error connecting
    · exact .write (by simp [connecting])
    · exact .handled
  · rw [if_neg (by simp [connecting])]
    exact inv.wired.no_reset (Or.inl connecting)

theorem Inv.pollEvent {revents : Events} (inv : Inv s p) (idle : s.todo = [])
    (connecting : s.state = .kConnecting) (attached : s.Attached c) :
    Inv { s with
      loop := { s.loop with phase := .handling }
      iteration := s.iteration + 1
      active := .waiting
      channel := some { c with revents := revents } } p := by
  obtain rfl := inv.placed.attempt.mp connecting
  have outside := inv.tasked.idle idle
  have same : EventLoop.SameKeys startKey s.loop { s.loop with phase := .handling } := ⟨rfl, fun _ => rfl⟩
  refine ⟨{ inv.placed with
      once := same.carriesOnce inv.placed.once
      queued := (same.carries ()).trans inv.placed.queued
      clear := by simp [Place.Clear] }, ⟨fun _ => idle, by simp, fun _ => ⟨rfl, connecting⟩⟩,
    ⟨fun _ => ⟨_, rfl, attached.events, attached.index, attached.poller⟩, inv.wired.detached,
      fun ended => absurd connecting ended, ?_, ?_, inv.wired.inFlight⟩⟩
  · intro d channel handling
    rw [← Option.some.inj channel] at handling
    exact absurd (inv.wired.handling c attached.channel handling) outside
  · rw [if_neg (by simp [connecting])]
    exact inv.wired.no_reset (Or.inl connecting)

theorem Inv.pollIdle (inv : Inv s p) (idle : s.todo = []) :
    Inv { s with
      loop := { s.loop with phase := .handling }, iteration := s.iteration + 1, active := .absent } p := by
  have outside := inv.tasked.idle idle
  have same : EventLoop.SameKeys startKey s.loop { s.loop with phase := .handling } := ⟨rfl, fun _ => rfl⟩
  refine ⟨{ inv.placed with
      once := same.carriesOnce inv.placed.once
      queued := (same.carries ()).trans inv.placed.queued },
    ⟨fun _ => inv.tasked.outside outside, by simp, by simp⟩, { inv.wired with handling := ?_ }⟩
  intro c channel handling
  exact absurd (inv.wired.handling c channel handling) outside

/-- `Connect` is called when nothing else is to come. -/
theorem Inv.connect {rest : List ConnectorTask} (inv : Inv s p) (top : s.todo = .connect :: rest) :
    (∀ sockfd, Inv ({ s with todo := rest }.createNonblocking sockfd) .nowhere) ∧
      s.state = .kDisconnected ∧ s.channel = none := by
  obtain ⟨rfl, rfl, outside⟩ := inv.tasked.connect top
  have idle : s.state = .kDisconnected := inv.placed.idle (by simp) (by simp)
  have empty : s.channel = none := inv.placed.clear (Or.inr (Or.inr rfl))
  refine ⟨fun sockfd => ?_, idle, empty⟩
  refine ⟨⟨inv.placed.once, ?_, inv.placed.timers, inv.placed.awaited, ?_, by simp, by simp [Place.Clear]⟩,
    ⟨fun _ => rfl, fun current => absurd current outside, inv.tasked.waiting⟩, { inv.wired with }⟩
  · simpa [createNonblocking] using inv.placed.queued
  · simp [createNonblocking, idle]

/-- `HandleEventWithGuard` returns. -/
theorem Inv.handled {rest : List ConnectorTask} (inv : Inv s p) (top : s.todo = .handled :: rest) :
    Inv { s with
      todo := rest
      active := .past
      channel := s.channel.map fun channel => { channel with eventHandling := false } } p := by
  obtain ⟨current, tasks⟩ := inv.tasked.event top (by simp) (by simp)
  have present := (inv.tasked.inside current).2.2
  obtain ⟨c, channel⟩ := Option.ne_none_iff_exists'.mp present
  -- no attempt is to come as long as the channel is there
  have busy : ¬ p.Clear := fun clear => present (inv.placed.clear clear)
  refine ⟨{ inv.placed with clear := fun clear => absurd clear busy }, ⟨fun _ => ?_, by simp, by simp⟩,
    ⟨fun connecting => ?_, inv.wired.detached, fun ended => ?_, ?_, ?_, inv.wired.inFlight⟩⟩
  · cases tasks
    cases p <;> simp_all [Place.Clear, Place.tasks]
  · have attached := Attached.of_channel (inv.wired.attached connecting) channel
    exact ⟨{ c with eventHandling := false }, by rw [channel]; rfl, attached.events, attached.index, attached.poller⟩
  · intro d there
    rw [channel, Option.map_some] at there
    rw [← Option.some.inj there]
    exact inv.wired.removed ended c channel
  · intro d there handling
    rw [channel, Option.map_some] at there
    rw [← Option.some.inj there] at handling
    cases handling
  · simpa [channel] using inv.wired.resets

/-- Behind a handler comes the other handler or the end of the event. -/
theorem EventTasks.tail {state after : ConnectorState} {task : ConnectorTask} {rest : List ConnectorTask}
    (tasks : EventTasks state (task :: rest)) (event : task = .handleError ∨ task = .handleWrite)
    (made : after ≠ .kConnected ∨ task = .handleWrite) : EventTasks after rest := by
  cases tasks with
  | both =>
    -- `HandleError` with `HandleWrite` to come: the attempt it ends was not made
    rcases made with unmade | write
    · exact .write unmade
    · cases write
  | error | write => exact .handled
  | newConnection | user | handled => simp at event

theorem EventTasks.late {state : ConnectorState} {task : ConnectorTask} {rest : List ConnectorTask}
    (tasks : EventTasks state (task :: rest)) (event : task = .handleError ∨ task = .handleWrite)
    (ended : state ≠ .kConnecting) : EventTasks state rest := by
  cases tasks with
  | both connecting | error connecting => exact absurd connecting ended
  | write => exact .handled
  | newConnection | user | handled => simp at event

/-- A handler that comes too late finds the attempt given up, not made. -/
theorem EventTasks.idle {state : ConnectorState} {task : ConnectorTask} {rest : List ConnectorTask}
    (tasks : EventTasks state (task :: rest)) (event : task = .handleError ∨ task = .handleWrite)
    (ended : state ≠ .kConnecting) : state = .kDisconnected := by
  cases tasks with
  | both connecting | error connecting => exact absurd connecting ended
  | write unmade => cases state <;> simp_all
  | newConnection | user | handled => simp at event

/-- A handler ends the attempt. -/
theorem Inv.ends {task : ConnectorTask} {rest : List ConnectorTask} (inv : Inv s p)
    (after : ConnectorState) (top : s.todo = task :: rest) (event : task = .handleError ∨ task = .handleWrite)
    (connecting : s.state = .kConnecting) (attached : s.Attached c) (ended : after ≠ .kConnecting)
    (made : after ≠ .kConnected ∨ task = .handleWrite) :
    Inv { { s with todo := rest }.detach c with state := after } .nowhere := by
  obtain ⟨current, tasks⟩ := inv.tasked.handler top event
  have popped : Inv { s with todo := rest } .attempt :=
    (inv.attempt_of connecting).pop current (tasks.tail event (Or.inl (by simp [connecting])))
  apply popped.detach attached after ended
  · simp [current]
  · intro _
    exact tasks.tail event made

theorem Inv.connected {rest : List ConnectorTask} (inv : Inv s p) (top : s.todo = .handleWrite :: rest)
    (connecting : s.state = .kConnecting) (attached : s.Attached c) :
    Inv (({ s with todo := rest }.detach c).connected c.fd) .nowhere := by
  have made : Inv { { s with todo := rest }.detach c with state := .kConnected } .nowhere :=
    inv.ends .kConnected top (Or.inr rfl) connecting attached (by simp) (Or.inr rfl)
  obtain ⟨current, tasks⟩ := inv.tasked.event top (by simp) (by simp)
  unfold Connector.connected
  split
  · refine ⟨{ made.placed with }, ⟨fun outside => absurd current outside, fun _ => ?_, made.tasked.waiting⟩,
      { made.wired with }⟩
    refine ⟨?_, (inv.tasked.inside current).2.1, by rintro ⟨⟩⟩
    cases tasks
    exact .newConnection rfl c.fd s.stops
  · exact ⟨{ made.placed with }, { made.tasked with }, { made.wired with }⟩

/-- An orderly step keeps the attempt in one place. -/
theorem Inv.step {a : Action} (inv : Inv s p) (orderly : s.Orderly a) (taken : s.Step a t) : ∃ q, Inv t q := by
  cases taken with
  | start =>
    obtain ⟨idle, empty, unstarted⟩ := orderly
    have ended : s.state ≠ .kConnecting := by simp [idle]
    obtain rfl := inv.nowhere ended empty unstarted
    have called := inv.call true s.retryDelayMs ended empty
    rw [← idle] at called
    exact ⟨.called, called⟩
  | restart =>
    obtain ⟨ended, empty, unstarted⟩ := orderly
    obtain rfl := inv.nowhere ended empty unstarted
    exact ⟨.called, inv.call true kInitRetryDelayMs ended empty⟩
  | callStart free =>
    obtain ⟨idle, empty, unstarted⟩ := orderly
    obtain rfl := inv.nowhere (by simp [idle]) empty unstarted
    exact ⟨.queued, inv.callStart idle empty free⟩
  | stop =>
    have same : EventLoop.SameKeys startKey s.loop (s.loop.queueInLoop .stopInLoop) :=
      EventLoop.sameKeys_queueInLoop s.loop rfl
    have kept := inv.requeue_silent same (by simp) inv.wired.inFlight (Or.inl rfl)
    exact ⟨p, { kept.placed with }, { kept.tasked with }, { kept.wired with }⟩
  | @callStop u free =>
    have same : EventLoop.SameKeys startKey s.loop { s.loop with
        inFlight := Function.update s.loop.inFlight u (some .stopInLoop) } :=
      EventLoop.sameKeys_enter rfl free rfl rfl
    have kept := inv.requeue_silent same rfl (inv.wired.inFlight_update u (by simp)) (Or.inl rfl)
    exact ⟨p, { kept.placed with }, { kept.tasked with }, { kept.wired with }⟩
  | push found => exact ⟨p, inv.push found⟩
  | pollIdle idle => exact ⟨p, inv.pollIdle idle⟩
  | pollEvent idle _ connecting attached => exact ⟨p, inv.pollEvent idle connecting attached⟩
  | dispatch waiting attached => exact ⟨p, inv.dispatch waiting attached⟩
  | startInLoop top => exact inv.startInLoop top
  | connecting top =>
    obtain ⟨taken, idle, empty⟩ := inv.connect top
    exact ⟨.attempt, (taken _).attempt idle empty _⟩
  | connectRetry top =>
    obtain ⟨taken, idle, -⟩ := inv.connect top
    exact ((taken _).disconnected idle).retry _
  | @connectClose answer _ top =>
    have taken := (inv.connect top).1 answer.sockfd
    exact ⟨.nowhere, { taken.placed with }, { taken.tasked with }, { taken.wired with }⟩
  | failed top event connecting attached =>
    exact (inv.ends .kDisconnected top event connecting attached (by simp) (Or.inl (by simp))).retry _
  | connected top connecting attached => exact ⟨.nowhere, inv.connected top connecting attached⟩
  | late top event ended =>
    obtain ⟨current, tasks⟩ := inv.tasked.handler top event
    exact ⟨p, inv.pop current (tasks.late event ended)⟩
  | newConnection top =>
    obtain ⟨current, tasks⟩ := inv.tasked.event top (by simp) (by simp)
    cases tasks with
    | newConnection connected =>
      have called := inv.pop current (.user connected)
      exact ⟨p, { called.placed with }, { called.tasked with }, { called.wired with }⟩
  | user top =>
    obtain ⟨current, tasks⟩ := inv.tasked.event top (by simp) (by simp)
    cases tasks with
    | user => exact ⟨p, inv.pop current .handled⟩
  | handled top => exact ⟨p, inv.handled top⟩
  | fire _ _ armed => exact inv.fire (orderly armed) armed
  | swap idle served _ called =>
    have same : EventLoop.SameQueue s.loop { s.loop with
        phase := .running, functors := s.loop.pendingFunctors, pendingFunctors := [] } :=
      ⟨by simp [EventLoop.queued, called], rfl⟩
    exact ⟨p, inv.requeue_silent same.sameKeys (by rw [same.queued]) inv.wired.inFlight
      (Or.inr ⟨inv.tasked.idle idle, served⟩)⟩
  | nextStart _ _ first => exact inv.nextStart first
  | nextStop idle running first connecting attached =>
    -- `StopInLoop` ends the attempt like a failed one
    have taken := (inv.attempt_of connecting).next first
    have served := inv.tasked.served (by simp [running])
    have ended := taken.detach attached .kDisconnected (by simp) served fun current =>
      absurd current (inv.tasked.idle idle)
    exact ended.retry _
  | nextStopLate _ _ first => exact ⟨p, inv.next first⟩
  | nextReset idle _ first => exact ⟨p, inv.nextReset idle first⟩
  | finish idle running =>
    have same : EventLoop.SameQueue s.loop { s.loop with phase := .polling } := ⟨rfl, rfl⟩
    have served := inv.tasked.served (by simp [running])
    exact ⟨p, inv.requeue_silent same.sameKeys rfl inv.wired.inFlight
      (Or.inr ⟨inv.tasked.idle idle, served⟩)⟩
  | closeHanded => exact ⟨p, { inv.placed with }, { inv.tasked with }, { inv.wired with }⟩

theorem step_inv (s : Connector) (a : Action) (inv : ∃ p, Inv s p) (orderly : s.Orderly a) :
    Safe (fun t => ∃ q, Inv t q) (s.step a) := by
  obtain ⟨p, inv⟩ := inv
  exact (step_spec inv a orderly).mono fun t taken => inv.step orderly taken

/-- In every run in which `Start` and `Restart` come between two attempts, and a retry timer fires
after the reset of the channel: no assert of the connector, of `Channel` or of the poller fails, and
whatever the poller or the kernel has registered is `channel_`, so that `channel_` is not replaced
or reset before it is removed. -/
theorem attempts_apart (acts : List Action) (orderly : Run.Meets step Orderly new acts) :
    Safe (fun s => ∀ fd, s.registered fd = true →
        ∃ c, s.channel = some c ∧ c.fd = fd ∧ s.poller.channels fd = some c.addr)
      (Run.exec step new acts) := by
  have safe : Safe (fun s => ∃ p, Inv s p) (Run.exec step new acts) :=
    Run.exec_safe step_inv new acts ⟨.nowhere, inv_new⟩ orderly
  refine safe.mono fun s kept fd known => ?_
  obtain ⟨p, inv⟩ := kept
  obtain ⟨c, attached⟩ := inv.wired.attached (inv.wired.watched known)
  -- the poller knows no other descriptor than that of the attempt
  have here : c.fd = fd := by
    by_contra other
    simp [registered, attached.poller, watching, Function.update_of_ne (Ne.symm other)] at known
  refine ⟨c, attached.channel, here, ?_⟩
  rw [attached.poller, ← here]
  simp [watching]

/-- The first attempt is refused and the second one made; `Restart` comes after the reset. -/
def restartAfterReset : List Action :=
  [.callStart 1, .push 1, .poll none, .swap, .next, .resume (refused 7), .finish, .poll none, .fire 0,
    .resume (underWay 7), .swap, .finish, .poll (some epollOut), .dispatch, .resume (underWay 7),
    .resume (underWay 7), .resume (underWay 7), .resume (underWay 7), .swap, .next, .finish, .restart,
    .resume (underWay 8), .resume (underWay 8)]

theorem attempts_apart_restartAfterReset :
    Run.Meets step Orderly new restartAfterReset ∧
    ∃ s, Run.exec step new restartAfterReset = .ok s ∧ s.created = 3 ∧ s.handOvers.length = 1 ∧
      ∃ c, s.channel = some c ∧ c.fd = 8 ∧ s.poller.channels 8 = some c.addr := by
  have orderly : Run.Meets step Orderly new restartAfterReset := by decide +kernel
  have last : (Run.exec step new restartAfterReset).toOption.map
      (fun s => (s.created, s.handOvers.length, s.registered 8)) = some (3, 1, true) := by decide +kernel
  obtain ⟨s, reached, ended⟩ := returned_of_map last
  simp only [Prod.mk.injEq] at ended
  obtain ⟨three, handed, known⟩ := ended
  have apart := (attempts_apart restartAfterReset orderly).result reached
  exact ⟨orderly, s, reached, three, handed, apart 8 known⟩

end Connector

end Rnet.Network
