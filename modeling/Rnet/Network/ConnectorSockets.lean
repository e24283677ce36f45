import Rnet.Network.ConnectorAttempt

/-!
# Who closes the sockets of the connector

A socket made by `Connect` leaves the connector at many points: after an error of `connect(2)`, in
`HandleError`, in `HandleWrite` with an error, a connection to itself or a `Stop`, in `StopInLoop`,
and with the callback. `Account` counts the closes and the calls of the callback per socket. A
socket is named by its number of creation, since the kernel uses descriptors again.
-/
namespace Rnet.Network

open Check

namespace Connector

/-- One `Start`, `Stop`s after it, no `Restart`, and timers that fire in a later iteration than the
one that armed them. -/
def OneStart (s : Connector) : Action → Prop
  | .start | .callStart _ => s.starts = 0
  | .stop | .callStop _ => s.starts ≠ 0
  | .restart => False
  | .fire n => ∀ timer ∈ s.timers[n]?, timer.armedIn < s.iteration
  | _ => True

instance (s : Connector) : (a : Action) → Decidable (s.OneStart a)
  | .start | .callStart _ => inferInstanceAs (Decidable (_ = _))
  | .stop | .callStop _ => inferInstanceAs (Decidable (¬ _))
  | .restart => inferInstanceAs (Decidable False)
  | .fire _ => inferInstanceAs (Decidable (∀ timer ∈ _, _))
  | .push _ | .poll _ | .dispatch | .resume _ | .swap | .next | .finish | .closeHanded _ =>
    inferInstanceAs (Decidable True)

/-- The socket that `HandleWrite` is about to hand over, or that of the `kConnecting` attempt. -/
def attemptFd (s : Connector) : Option Fd :=
  match s.todo with
  | .newConnection sockfd _ :: _ => some sockfd
  | _ => if s.state = .kConnecting then s.channel.map Channel.fd else none

def timesHanded (s : Connector) (id : SocketId) : Nat := (s.handOvers.map HandOver.socket).count (some id)

def timesClosed (s : Connector) (id : SocketId) : Nat := s.closes.count (some id)

/-! ### A `Stop` that comes too late -/

/-- Another thread stops the connector after `HandleWrite` has seen `connect_`. -/
def stopBehindTest : List Action :=
  [.start, .resume (underWay 7), .resume (underWay 7), .poll (some epollOut), .dispatch, .resume (underWay 7),
    .callStop 1, .resume (underWay 7)]

theorem handed_over_stopped :
    Run.Meets step OneStart new stopBehindTest ∧
    ∃ s, Run.exec step new stopBehindTest = .ok s ∧
      s.handOvers.map (fun h => (h.socket, h.connect_)) = [(some 0, false)] := by
  have once : Run.Meets step OneStart new stopBehindTest := by decide +kernel
  have last : (Run.exec step new stopBehindTest).toOption.map
      (fun s => s.handOvers.map fun h => (h.socket, h.connect_)) = some [(some 0, false)] := by decide +kernel
  obtain ⟨s, reached, ended⟩ := returned_of_map last
  exact ⟨once, s, reached, ended⟩

/-! ### The timers are orderly -/

variable {s t : Connector} {p : Place} {c : Channel}

/-- Before the one `Start` nothing has happened. -/
def Fresh (s : Connector) : Prop :=
  s.starts = 0 → s.state = .kDisconnected ∧ s.channel = none ∧ s.todo = [] ∧ s.timers = []

/-- Whoever sees a `StopInLoop` sees `connect_` false. -/
structure Stopping (s : Connector) : Prop where
  stopped : s.stops ≠ 0 → s.connect_ = false ∧ s.starts ≠ 0
  queued : .stopInLoop ∈ s.loop.queued → s.stops ≠ 0
  inFlight : ∀ t, s.loop.inFlight t = some .stopInLoop → s.stops ≠ 0

/-- A timer that was armed in an event of the channel waits for the functors of its iteration, and
the reset of the channel is one of them. -/
def Late (s : Connector) : Prop :=
  ∀ timer ∈ s.timers, s.channel ≠ none → timer.armedIn = s.iteration ∧
    (s.loop.phase = .handling ∨ s.loop.phase = .running ∧ .resetChannel ∈ s.loop.functors)

structure Timed (s : Connector) : Prop where
  fresh : Fresh s
  stopping : Stopping s
  late : Late s

theorem timed_new : Timed new :=
  ⟨fun _ => ⟨rfl, rfl, rfl, rfl⟩, ⟨by simp [new], by rintro ⟨⟩, by rintro _ ⟨⟩⟩, by rintro _ ⟨⟩⟩

theorem orderly_of_oneStart {a : Action} (inv : Inv s p) (timed : Timed s) (once : s.OneStart a) :
    s.Orderly a := by
  have orderly (unstarted : s.starts = 0) :
      s.state = .kDisconnected ∧ s.channel = none ∧ s.Unstarted := by
    obtain ⟨idle, empty, todo, timers⟩ := timed.fresh unstarted
    refine ⟨idle, empty, ?_, timers, by simp [todo]⟩
    have awaited := inv.placed.awaited
    omega
  cases a with
  | start | callStart => exact orderly once
  | restart => exact False.elim once
  | fire n =>
    intro armed
    by_contra present
    have late := timed.late s.timers[n] (List.getElem_mem armed) present
    have later := once s.timers[n] (by simp [armed])
    omega
  | stop | callStop | push | poll | dispatch | resume | swap | next | finish | closeHanded => trivial

/-- What `StartInLoop`, `Retry` and the end of `HandleWrite` leave alone. -/
structure SameCalls (s t : Connector) : Prop where
  connect_ : t.connect_ = s.connect_
  starts : t.starts = s.starts
  stops : t.stops = s.stops
  loop : t.loop = s.loop
  channel : t.channel = s.channel
  iteration : t.iteration = s.iteration
  handOvers : t.handOvers = s.handOvers

theorem begin_same (s : Connector) : SameCalls s s.begin := by
  unfold Connector.begin
  split <;> exact ⟨rfl, rfl, rfl, rfl, rfl, rfl, rfl⟩

theorem retry_same (s : Connector) (sockfd : Fd) : SameCalls s (s.retry sockfd) := by
  simp only [retry]
  split <;> exact ⟨rfl, rfl, rfl, rfl, rfl, rfl, rfl⟩

theorem connected_same (s : Connector) (sockfd : Fd) : SameCalls s (s.connected sockfd) := by
  unfold connected
  split <;> exact ⟨rfl, rfl, rfl, rfl, rfl, rfl, rfl⟩

theorem retry_timers (s : Connector) (sockfd : Fd) : (s.retry sockfd).timers =
    if s.connect_ then s.timers ++ [⟨s.retryDelayMs, s.iteration⟩] else s.timers := by
  cases armed : s.connect_ <;> simp [retry, close, release, runAfter, armed]

theorem connected_timers (s : Connector) (sockfd : Fd) : (s.connected sockfd).timers = s.timers := by
  unfold connected
  split <;> rfl

theorem Fresh.started (fresh : Fresh s)
    (busy : s.state = .kConnecting ∨ s.todo ≠ [] ∨ s.timers ≠ []) : s.starts ≠ 0 := by
  intro unstarted
  obtain ⟨idle, -, todo, timers⟩ := fresh unstarted
  simp [idle, todo, timers] at busy

theorem Fresh.at_work {task : ConnectorTask} {rest : List ConnectorTask} (fresh : Fresh s)
    (top : s.todo = task :: rest) : s.starts ≠ 0 :=
  fresh.started (Or.inr (Or.inl (by simp [top])))

theorem Fresh.step {a : Action} (fresh : Fresh s) (inv : Inv s p) (once : s.OneStart a)
    (taken : s.Step a t) : Fresh t := by
  cases taken with
  | start | callStart => rintro ⟨⟩
  | restart => exact False.elim once
  | stop | callStop => exact fun unstarted => absurd unstarted once
  | push | pollIdle | swap | nextStopLate | finish | closeHanded => exact fresh
  | nextReset =>
    intro unstarted
    obtain ⟨idle, -, rest⟩ := fresh unstarted
    exact ⟨idle, rfl, rest⟩
  | pollEvent _ _ connecting =>
    exact fun unstarted => absurd unstarted (fresh.started (Or.inl connecting))
  | dispatch waiting =>
    have connecting := (inv.tasked.waiting waiting).2
    exact fun unstarted => absurd unstarted (fresh.started (Or.inl connecting))
  | late top | newConnection top | user top | handled top | connecting top | connectClose top =>
    exact fun unstarted => absurd unstarted (fresh.at_work top)
  | startInLoop top =>
    intro unstarted
    rw [(begin_same _).starts] at unstarted
    exact absurd unstarted (fresh.at_work top)
  | fire _ _ armed =>
    intro unstarted
    rw [(begin_same _).starts] at unstarted
    have timers : s.timers ≠ [] := by
      rintro empty
      simp [empty] at armed
    exact absurd unstarted (fresh.started (Or.inr (Or.inr timers)))
  | nextStart _ _ first =>
    intro unstarted
    rw [(begin_same _).starts] at unstarted
    -- a queued `StartInLoop` was asked for by somebody
    obtain rfl := inv.placed.first first
    have awaited := inv.placed.awaited
    rw [unstarted, Place.awaited] at awaited
    exact absurd awaited (Nat.succ_ne_zero _).symm
  | connectRetry top | failed top =>
    intro unstarted
    rw [(retry_same _ _).starts] at unstarted
    exact absurd unstarted (fresh.at_work top)
  | connected top =>
    intro unstarted
    rw [(connected_same _ _).starts] at unstarted
    exact absurd unstarted (fresh.at_work top)
  | nextStop _ _ _ connecting =>
    intro unstarted
    rw [(retry_same _ _).starts] at unstarted
    exact absurd unstarted (fresh.started (Or.inl connecting))

/-- A step that has nothing to do with `Stop`. -/
theorem Stopping.same (stopping : Stopping s) (stops : t.stops = s.stops) (connect_ : t.connect_ = s.connect_)
    (starts : t.starts = s.starts) (queued : .stopInLoop ∈ t.loop.queued → .stopInLoop ∈ s.loop.queued)
    (inFlight : t.loop.inFlight = s.loop.inFlight) : Stopping t := by
  refine ⟨fun stopped => ?_, fun member => ?_, fun u found => ?_⟩
  · rw [connect_, starts]
    exact stopping.stopped (stops ▸ stopped)
  · rw [stops]
    exact stopping.queued (queued member)
  · rw [stops]
    exact stopping.inFlight u (inFlight ▸ found)

theorem SameCalls.stopping (same : SameCalls s t) (stopping : Stopping s) : Stopping t :=
  stopping.same same.stops same.connect_ same.starts (by rw [same.loop]; exact id) (by rw [same.loop])

theorem Stopping.detach (stopping : Stopping s) : Stopping (s.detach c) :=
  stopping.same rfl rfl rfl (by simp [Connector.detach]) rfl

/-- A functor leaves the queue. -/
theorem Stopping.next {f : ConnectorFunctor} {rest : List ConnectorFunctor} (stopping : Stopping s)
    (first : s.loop.functors = f :: rest) : Stopping { s with loop := { s.loop with functors := rest } } := by
  refine stopping.same rfl rfl rfl (fun member => ?_) rfl
  simp only [EventLoop.queued, first, List.cons_append]
  exact List.mem_cons_of_mem f member

theorem Stopping.step {a : Action} (stopping : Stopping s) (once : s.OneStart a) (taken : s.Step a t) :
    Stopping t := by
  -- a `Start` is the first call, so there is no `Stop` before it
  have unstopped (first : s.starts = 0) : s.stops = 0 := by
    by_contra stopped
    exact (stopping.stopped stopped).2 first
  cases taken with
  | start => exact ⟨fun stopped => absurd (unstopped once) stopped, stopping.queued, stopping.inFlight⟩
  | @callStart u _ =>
    refine ⟨fun stopped => absurd (unstopped once) stopped, stopping.queued, fun v found => ?_⟩
    by_cases same : v = u
    · subst same
      simp at found
    · exact stopping.inFlight v (by simpa [Function.update_of_ne same] using found)
  | restart => exact False.elim once
  | stop => exact ⟨fun _ => ⟨rfl, once⟩, fun _ => Nat.succ_ne_zero _, fun _ _ => Nat.succ_ne_zero _⟩
  | callStop => exact ⟨fun _ => ⟨rfl, once⟩, fun _ => Nat.succ_ne_zero _, fun _ _ => Nat.succ_ne_zero _⟩
  | @push u f found =>
    refine ⟨stopping.stopped, fun member => ?_, fun v flying => ?_⟩
    · simp only [EventLoop.queued, ← List.append_assoc, List.mem_append, List.mem_singleton] at member
      rcases member with member | rfl
      · exact stopping.queued (by simpa [EventLoop.queued] using member)
      · exact stopping.inFlight u found
    · by_cases same : v = u
      · subst same
        simp at flying
      · exact stopping.inFlight v (by simpa [Function.update_of_ne same] using flying)
  | pollIdle | pollEvent | finish | closeHanded | dispatch | late | newConnection | user | handled
  | connecting | connectClose => exact ⟨stopping.stopped, stopping.queued, stopping.inFlight⟩
  | swap _ _ _ called => exact stopping.same rfl rfl rfl (by simp [EventLoop.queued, called]) rfl
  | startInLoop | fire =>
    exact (begin_same _).stopping ⟨stopping.stopped, stopping.queued, stopping.inFlight⟩
  | connectRetry => exact (retry_same _ _).stopping ⟨stopping.stopped, stopping.queued, stopping.inFlight⟩
  | @failed _ _ rest c =>
    have popped : Stopping { s with todo := rest } := ⟨stopping.stopped, stopping.queued, stopping.inFlight⟩
    exact (retry_same _ _).stopping popped.detach
  | @connected _ rest c =>
    have popped : Stopping { s with todo := rest } := ⟨stopping.stopped, stopping.queued, stopping.inFlight⟩
    exact (connected_same _ _).stopping popped.detach
  | nextStart _ _ first =>
    have taken := stopping.next first
    exact (begin_same _).stopping ⟨taken.stopped, taken.queued, taken.inFlight⟩
  | nextStop _ _ first => exact (retry_same _ _).stopping (stopping.next first).detach
  | nextStopLate _ _ first => exact stopping.next first
  | nextReset _ _ first =>
    have taken := stopping.next first
    exact ⟨taken.stopped, taken.queued, taken.inFlight⟩

/-- No timer is armed while the attempt is under way. -/
theorem Placed.no_timer (placed : Placed s p) (other : p ≠ .timer) : s.timers = [] := by
  rw [← List.length_eq_zero_iff, placed.timers, if_neg other]

theorem late_of_no_timer (idle : t.timers = []) : Late t := by
  intro timer member
  simp [idle] at member

theorem late_of_no_channel (absent : t.channel = none) : Late t := by
  intro timer _ present
  exact absurd absent present

/-- A step in which neither the timers nor the functors of the iteration change. -/
theorem Late.same (late : Late s) (timers : t.timers = s.timers) (channel : t.channel ≠ none → s.channel ≠ none)
    (iteration : t.iteration = s.iteration) (phase : t.loop.phase = s.loop.phase)
    (functors : t.loop.functors = s.loop.functors) : Late t := by
  intro timer member present
  rw [iteration, phase, functors]
  exact late timer (timers ▸ member) (channel present)

theorem Late.step {a : Action} (late : Late s) (stopping : Stopping s) (inv : Inv s p) (orderly : s.Orderly a)
    (taken : s.Step a t) : Late t := by
  cases taken with
  | start | stop | restart | callStart | callStop | push | late | newConnection | user | closeHanded =>
    exact late.same rfl id rfl rfl rfl
  | handled => exact late.same rfl (by simp) rfl rfl rfl
  | pollIdle _ polling =>
    intro timer member present
    have waits := (late timer member present).2
    simp [polling] at waits
  | pollEvent _ _ connecting =>
    obtain rfl := inv.placed.attempt.mp connecting
    exact late_of_no_timer (inv.placed.no_timer (by simp))
  | dispatch waiting =>
    obtain rfl := inv.placed.attempt.mp (inv.tasked.waiting waiting).2
    exact late_of_no_timer (inv.placed.no_timer (by simp))
  | startInLoop top =>
    obtain ⟨rfl, -, -⟩ := inv.tasked.called top
    apply late_of_no_channel
    rw [(begin_same _).channel]
    exact inv.placed.clear (Or.inr (Or.inl rfl))
  | connecting top =>
    obtain ⟨rfl, -, -⟩ := inv.tasked.connect top
    exact late_of_no_timer (inv.placed.no_timer (by simp))
  | connectRetry top =>
    apply late_of_no_channel
    rw [(retry_same _ _).channel]
    exact (inv.connect top).2.2
  | connectClose top => exact late_of_no_channel (inv.connect top).2.2
  | fire _ _ armed =>
    apply late_of_no_channel
    rw [(begin_same _).channel]
    exact orderly armed
  | nextStart _ _ first =>
    obtain rfl := inv.placed.first first
    apply late_of_no_channel
    rw [(begin_same _).channel]
    exact inv.placed.clear (Or.inl rfl)
  | nextReset => exact late_of_no_channel rfl
  | connected top connecting =>
    obtain rfl := inv.placed.attempt.mp connecting
    apply late_of_no_timer
    rw [connected_timers]
    exact inv.placed.no_timer (by simp)
  | failed top event connecting =>
    obtain rfl := inv.placed.attempt.mp connecting
    have current := (inv.tasked.handler top event).1
    have untimed : s.timers = [] := inv.placed.no_timer (by simp)
    -- the timer is armed in the event, before the functors of this iteration
    intro timer member _
    rw [(retry_same _ _).iteration, (retry_same _ _).loop]
    refine ⟨?_, Or.inl (inv.tasked.inside current).2.1⟩
    rw [retry_timers] at member
    split at member
    · simp only [detach, untimed, List.nil_append, List.mem_singleton] at member
      rw [member]
      rfl
    · simp [detach, untimed] at member
  | nextStop _ _ first connecting =>
    obtain rfl := inv.placed.attempt.mp connecting
    have stops : s.stops ≠ 0 := stopping.queued (by simp [EventLoop.queued, first])
    apply late_of_no_timer
    rw [retry_timers, if_neg]
    · exact inv.placed.no_timer (by simp)
    · simp [detach, (stopping.stopped stops).1]
  | nextStopLate _ running first =>
    intro timer member present
    obtain ⟨armed, handling | ⟨-, reset⟩⟩ := late timer member present
    · simp [running] at handling
    · exact ⟨armed, Or.inr ⟨running, by simpa [first] using reset⟩⟩
  | swap _ _ _ called =>
    -- an armed timer and a channel: the attempt is over, and the reset of the channel is queued
    intro timer member present
    obtain ⟨armed, -⟩ := late timer member present
    obtain ⟨n, inside, -⟩ := List.mem_iff_getElem.mp member
    obtain rfl := inv.placed.timer inside
    have idle : s.state = .kDisconnected := inv.placed.idle (by simp) (by simp)
    have reset : 0 < s.loop.queued.count .resetChannel := by
      rw [inv.wired.resets, if_pos ⟨by simp [idle], present⟩]
      exact Nat.one_pos
    refine ⟨armed, Or.inr ⟨rfl, ?_⟩⟩
    simpa [EventLoop.queued, called] using List.count_pos_iff.mp reset
  | finish _ running called =>
    intro timer member present
    have waits := (late timer member present).2
    simp [running, called] at waits

theorem Timed.step {a : Action} (timed : Timed s) (inv : Inv s p) (once : s.OneStart a)
    (taken : s.Step a t) : Timed t where
  fresh := timed.fresh.step inv once taken
  stopping := timed.stopping.step once taken
  late := timed.late.step timed.stopping inv (orderly_of_oneStart inv timed once) taken

/-! ### The account of the sockets -/

/-- Every socket is handed over once or closed once, except that of `owner`. -/
structure Account (s : Connector) (owner : Option Fd) : Prop where
  below : ∀ fd id, s.sockets fd = some id → id < s.created
  apart : ∀ fd fd' id, s.sockets fd = some id → s.sockets fd' = some id → fd = fd'
  isOpen : ∀ fd, owner = some fd → s.sockets fd ≠ none
  once : ∀ id, s.timesHanded id + s.timesClosed id + (if owner.bind s.sockets = some id then 1 else 0) =
    if id < s.created then 1 else 0
  closes : none ∉ s.closes
  handOvers : none ∉ s.handOvers.map HandOver.socket
  early : s.early = 0

theorem account_new : Account new none :=
  ⟨by simp [new], by simp [new], by simp, fun _ => rfl, by simp [new], by simp [new], rfl⟩

theorem no_owner (sockets : Fd → Option SocketId) (id : SocketId) :
    (if (none : Option Fd).bind sockets = some id then 1 else 0) = 0 := rfl

/-- An entry of the table that is not the one changed. -/
theorem sockets_update {fd fd' : Fd} {o : Option SocketId} {id : SocketId}
    (found : Function.update s.sockets fd o fd' = some id) :
    (fd' = fd ∧ o = some id) ∨ (fd' ≠ fd ∧ s.sockets fd' = some id) := by
  by_cases same : fd' = fd
  · subst same
    exact Or.inl ⟨rfl, by simpa using found⟩
  · exact Or.inr ⟨same, by simpa [Function.update_of_ne same] using found⟩

/-- A descriptor that is closed leaves the others apart. -/
theorem Account.apart_close {owner : Option Fd} (account : Account s owner) (fd : Fd) (first second : Fd)
    (id : SocketId) (found : Function.update s.sockets fd none first = some id)
    (found' : Function.update s.sockets fd none second = some id) : first = second := by
  rcases sockets_update found with ⟨-, absent⟩ | ⟨-, found⟩
  · cases absent
  rcases sockets_update found' with ⟨-, absent⟩ | ⟨-, found'⟩
  · cases absent
  exact account.apart first second id found found'

theorem Account.below_close {owner : Option Fd} (account : Account s owner) (fd fd' : Fd)
    (id : SocketId) (found : Function.update s.sockets fd none fd' = some id) : id < s.created := by
  rcases sockets_update found with ⟨-, absent⟩ | ⟨-, found⟩
  · cases absent
  · exact account.below fd' id found

/-- `socket(2)` returns a descriptor that is not open. -/
theorem Account.create {fd : Fd} (account : Account s none) :
    Account (s.createNonblocking fd) (some fd) := by
  refine ⟨fun fd' id found => ?_, fun first second id found found' => ?_, fun fd' same => ?_, fun id => ?_,
    account.closes, account.handOvers, account.early⟩
  · rcases sockets_update found with ⟨-, new⟩ | ⟨-, found⟩
    · rw [← Option.some.inj new]
      exact Nat.lt_succ_self s.created
    · exact Nat.lt_succ_of_lt (account.below fd' id found)
  · -- the new number is not in the table yet
    rcases sockets_update found with ⟨here, new⟩ | ⟨-, found⟩ <;>
      rcases sockets_update found' with ⟨here', new'⟩ | ⟨-, found'⟩
    · rw [here, here']
    · have old := account.below second id found'
      rw [← Option.some.inj new] at old
      exact absurd old (Nat.lt_irrefl s.created)
    · have old := account.below first id found
      rw [← Option.some.inj new'] at old
      exact absurd old (Nat.lt_irrefl s.created)
    · exact account.apart first second id found found'
  · rw [← Option.some.inj same]
    simp [createNonblocking]
  · have before := account.once id
    rw [no_owner, Nat.add_zero] at before
    have counts : (s.createNonblocking fd).timesHanded id + (s.createNonblocking fd).timesClosed id =
        if id < s.created then 1 else 0 := before
    rw [counts]
    simp only [createNonblocking, Option.bind_some, Function.update_self, Option.some.injEq]
    rcases Nat.lt_trichotomy id s.created with less | rfl | more
    · simp [less, Nat.lt_succ_of_lt less, Nat.ne_of_gt less]
    · simp
    · simp [Nat.lt_asymm more, Nat.ne_of_lt more, Nat.not_lt_of_le more]

/-- The owner closes its socket. -/
theorem Account.close {fd : Fd} (account : Account s (some fd)) (unknown : s.registered fd = false) :
    Account (s.close fd) none := by
  obtain ⟨socket, opened⟩ := Option.ne_none_iff_exists'.mp (account.isOpen fd rfl)
  refine ⟨account.below_close fd, account.apart_close fd, by simp, fun id => ?_, ?_, account.handOvers, ?_⟩
  · have before := account.once id
    have closed : (s.close fd).timesClosed id = s.timesClosed id + if some socket = some id then 1 else 0 := by
      simp [timesClosed, Connector.close, opened, List.count_singleton]
    have handed : (s.close fd).timesHanded id = s.timesHanded id := rfl
    have created : (s.close fd).created = s.created := rfl
    rw [Option.bind_some, opened] at before
    rw [closed, handed, created, no_owner, Nat.add_zero, ← Nat.add_assoc]
    exact before
  · simpa [Connector.close, opened] using account.closes
  · simpa [Connector.close, release, unknown] using account.early

/-- The callback gets the socket. -/
theorem Account.newConnection {fd : Fd} (tested : Nat) (account : Account s (some fd))
    (unknown : s.registered fd = false) : Account (s.newConnection fd tested) none := by
  obtain ⟨socket, opened⟩ := Option.ne_none_iff_exists'.mp (account.isOpen fd rfl)
  refine ⟨account.below, account.apart, by simp, fun id => ?_, account.closes, ?_, ?_⟩
  · have before := account.once id
    have handed : (s.newConnection fd tested).timesHanded id =
        s.timesHanded id + if some socket = some id then 1 else 0 := by
      simp [timesHanded, Connector.newConnection, Connector.push, opened, List.count_singleton]
    have closed : (s.newConnection fd tested).timesClosed id = s.timesClosed id := rfl
    have created : (s.newConnection fd tested).created = s.created := rfl
    rw [Option.bind_some, opened] at before
    rw [closed, handed, created, no_owner, Nat.add_zero, Nat.add_right_comm]
    exact before
  · simpa [Connector.newConnection, Connector.push, opened] using account.handOvers
  · simpa [Connector.newConnection, Connector.push, release, unknown] using account.early

/-- What was handed over is not the socket of the owner. -/
theorem Account.closeHanded {fd : Fd} {socket : SocketId} {owner : Option Fd} (account : Account s owner)
    (opened : s.sockets fd = some socket) (handed : some socket ∈ s.handOvers.map HandOver.socket) :
    Account { s with sockets := Function.update s.sockets fd none } owner := by
  -- counted as handed over, the socket cannot be counted again for its owner
  have other : owner ≠ some fd := by
    rintro rfl
    have before := account.once socket
    have once : 0 < s.timesHanded socket := List.count_pos_iff.mpr handed
    rw [Option.bind_some, opened, if_pos rfl, if_pos (account.below fd socket opened)] at before
    omega
  have same : owner.bind (Function.update s.sockets fd none) = owner.bind s.sockets := by
    cases owner with
    | none => rfl
    | some fd' =>
      have different : fd' ≠ fd := fun same => other (congrArg some same)
      simp [Function.update_of_ne different]
  refine ⟨account.below_close fd, account.apart_close fd, fun fd' owned => ?_, fun id => ?_, account.closes,
    account.handOvers, account.early⟩
  · have different : fd' ≠ fd := by
      rintro rfl
      exact other owned
    simpa [Function.update_of_ne different] using account.isOpen fd' owned
  · rw [same]
    exact account.once id

theorem Account.retry {fd : Fd} (account : Account s (some fd)) (unknown : s.registered fd = false) :
    Account (s.retry fd) none := by
  have closed := account.close unknown
  simp only [Connector.retry]
  split <;> exact { closed with }

/-! ### Every step keeps the account -/

/-- The callback is called in `kConnected` only. -/
theorem Inv.attemptFd_eq (inv : Inv s p) (unmade : s.state ≠ .kConnected) :
    s.attemptFd = if s.state = .kConnecting then s.channel.map Channel.fd else none := by
  unfold attemptFd
  split
  next top =>
    have tasks := (inv.tasked.event top (by simp) (by simp)).2
    cases tasks with
    | newConnection connected => exact absurd connected unmade
  next => rfl

theorem Inv.attemptFd_idle (inv : Inv s p) (idle : s.state = .kDisconnected) : s.attemptFd = none := by
  rw [inv.attemptFd_eq (by simp [idle]), if_neg (by simp [idle])]

theorem Inv.attemptFd_attached (inv : Inv s p) (connecting : s.state = .kConnecting) (attached : s.Attached c) :
    s.attemptFd = some c.fd := by
  rw [inv.attemptFd_eq (by simp [connecting]), if_pos connecting, attached.channel]
  rfl

theorem Wired.unregistered (wired : Wired s) (ended : s.state ≠ .kConnecting) (fd : Fd) :
    s.registered fd = false := by
  simp [registered, wired.detached ended, Epoll.new]

theorem begin_state (s : Connector) : s.begin.state = s.state := by
  unfold Connector.begin
  split <;> rfl

theorem retry_state (s : Connector) (sockfd : Fd) : (s.retry sockfd).state = .kDisconnected := by
  simp only [retry]
  split <;> rfl

theorem Account.begin {owner : Option Fd} (account : Account s owner) : Account s.begin owner := by
  unfold Connector.begin
  split
  · exact { account with }
  · exact account

/-- The socket of the attempt is closed, and the connector is disconnected. -/
theorem Account.failed {q : Place} (account : Account (s.detach c) (some c.fd))
    (after : Inv ((s.detach c).retry c.fd) q) :
    Account ((s.detach c).retry c.fd) ((s.detach c).retry c.fd).attemptFd := by
  rw [after.attemptFd_idle (retry_state _ _)]
  exact account.retry rfl

theorem Account.connected {rest : List ConnectorTask} (inv : Inv s p) (account : Account s (some c.fd))
    (top : s.todo = .handleWrite :: rest) :
    Account (({ s with todo := rest }.detach c).connected c.fd)
      (({ s with todo := rest }.detach c).connected c.fd).attemptFd := by
  have tasks := (inv.tasked.event top (by simp) (by simp)).2
  unfold Connector.connected
  split
  · exact { account with }
  · have kept : Account { { s with todo := rest }.detach c with state := .kConnected } (some c.fd) :=
      { account with }
    have closed := kept.close rfl
    cases tasks
    exact closed

theorem Account.step {a : Action} {q : Place} (account : Account s s.attemptFd) (inv : Inv s p) (after : Inv t q)
    (orderly : s.Orderly a) (once : s.OneStart a) (taken : s.Step a t) : Account t t.attemptFd := by
  -- in `kDisconnected` there is no socket
  have idle_step (before : s.state = .kDisconnected) (still : t.state = .kDisconnected)
      (kept : Account s none → Account t none) : Account t t.attemptFd := by
    rw [inv.attemptFd_idle before] at account
    rw [after.attemptFd_idle still]
    exact kept account
  have begin_step {u : Connector} (idle : s.state = .kDisconnected) (begins : t = u.begin)
      (still : u.state = s.state) (kept : Account s none → Account u none) : Account t t.attemptFd := by
    subst begins
    apply idle_step idle ((begin_state u).trans (still.trans idle))
    intro account
    exact (kept account).begin
  cases taken with
  | stop | callStart | callStop | push | pollIdle | swap | nextStopLate | finish => exact { account with }
  | start =>
    exact idle_step orderly.1 orderly.1 fun account => { account with }
  | restart => exact False.elim once
  | closeHanded opened handed => exact account.closeHanded opened handed
  | pollEvent idle _ connecting attached =>
    rw [inv.attemptFd_attached connecting attached] at account
    rw [after.attemptFd_eq (by simp [connecting]), if_pos connecting]
    exact { account with }
  | dispatch waiting attached =>
    have connecting := (inv.tasked.waiting waiting).2
    rw [inv.attemptFd_attached connecting attached] at account
    rw [after.attemptFd_eq (by simp [connecting]), if_pos connecting]
    exact { account with }
  | startInLoop top =>
    obtain ⟨rfl, -, -⟩ := inv.tasked.called top
    exact begin_step (inv.placed.idle (by simp) (by simp)) rfl rfl fun account => { account with }
  | fire _ _ armed =>
    obtain rfl := inv.placed.timer armed
    exact begin_step (inv.placed.idle (by simp) (by simp)) rfl rfl fun account => { account with }
  | nextStart _ _ first =>
    obtain rfl := inv.placed.first first
    exact begin_step (inv.placed.idle (by simp) (by simp)) rfl rfl fun account => { account with }
  | @connecting answer rest top =>
    have idle := (inv.connect top).2.1
    rw [inv.attemptFd_idle idle] at account
    rw [after.attemptFd_attached rfl ⟨rfl, rfl, rfl, rfl⟩]
    have popped : Account { s with todo := rest } none := { account with }
    exact { popped.create with }
  | @connectRetry answer rest top =>
    have idle := (inv.connect top).2.1
    apply idle_step idle (retry_state _ _)
    intro account
    have popped : Account { s with todo := rest } none := { account with }
    exact popped.create.retry (inv.wired.unregistered (by simp [idle]) _)
  | @connectClose answer rest top =>
    have idle := (inv.connect top).2.1
    apply idle_step idle idle
    intro account
    have popped : Account { s with todo := rest } none := { account with }
    exact popped.create.close (inv.wired.unregistered (by simp [idle]) _)
  | failed top event connecting attached =>
    rw [inv.attemptFd_attached connecting attached] at account
    exact Account.failed { account with } after
  | nextStop _ _ _ connecting attached =>
    rw [inv.attemptFd_attached connecting attached] at account
    exact Account.failed { account with } after
  | connected top connecting attached =>
    rw [inv.attemptFd_attached connecting attached] at account
    exact account.connected inv top
  | late top event ended =>
    have idle : s.state = .kDisconnected := (inv.tasked.handler top event).2.idle event ended
    exact idle_step idle idle fun account => { account with }
  | @newConnection answer rest sockfd tested top =>
    have tasks := (inv.tasked.event top (by simp) (by simp)).2
    have owner : s.attemptFd = some sockfd := by rw [attemptFd, top]
    rw [owner] at account
    cases tasks with
    | newConnection connected =>
      have popped : Account { s with todo := [.handled] } (some sockfd) := { account with }
      have handed := popped.newConnection tested (inv.wired.unregistered (by simp [connected]) sockfd)
      simpa [attemptFd, Connector.newConnection, Connector.push, release, connected] using handed
  | user top =>
    have tasks := (inv.tasked.event top (by simp) (by simp)).2
    cases tasks with
    | user connected =>
      simp only [attemptFd, top, connected] at account ⊢
      exact { account with }
  | handled top =>
    have tasks := (inv.tasked.event top (by simp) (by simp)).2
    cases tasks with
    | handled =>
      simp only [attemptFd, top, Option.map_map] at account ⊢
      exact { account with }
  | nextReset idle _ first =>
    have ended : s.state ≠ .kConnecting := by
      intro connecting
      have unqueued := inv.wired.no_reset (Or.inl connecting)
      simp [EventLoop.queued, first] at unqueued
    simp only [attemptFd, idle, if_neg ended] at account ⊢
    exact { account with }

/-! ### What the callback was told -/

/-- `HandleWrite` has seen `connect_` true, so where the callback finds it false a `Stop` came in
between. -/
structure Tested (s : Connector) : Prop where
  handOvers : ∀ h ∈ s.handOvers, h.connect_ = false → h.tested < h.called
  pending : ∀ sockfd n, .newConnection sockfd n ∈ s.todo → n ≤ s.stops ∧ (s.connect_ = false → n < s.stops)

theorem tested_new : Tested new := ⟨by simp [new], by simp [new]⟩

theorem Tested.same (tested : Tested s) (handOvers : t.handOvers = s.handOvers) (stops : t.stops = s.stops)
    (connect_ : t.connect_ = s.connect_)
    (todo : ∀ sockfd n, .newConnection sockfd n ∈ t.todo → .newConnection sockfd n ∈ s.todo) : Tested t := by
  refine ⟨by rw [handOvers]; exact tested.handOvers, fun sockfd n member => ?_⟩
  rw [stops, connect_]
  exact tested.pending sockfd n (todo sockfd n member)

theorem SameCalls.tested (same : SameCalls s t) (tested : Tested s)
    (todo : ∀ sockfd n, .newConnection sockfd n ∈ t.todo → .newConnection sockfd n ∈ s.todo) : Tested t :=
  tested.same same.handOvers same.stops same.connect_ todo

theorem begin_tested (tested : Tested s) : Tested s.begin := by
  apply (begin_same s).tested tested
  unfold Connector.begin
  split
  · simp [Connector.push]
  · exact fun _ _ member => member

theorem retry_tested (tested : Tested s) (sockfd : Fd) : Tested (s.retry sockfd) := by
  apply (retry_same s sockfd).tested tested
  simp only [retry]
  split <;> exact fun _ _ member => member

theorem connected_tested (tested : Tested s) (sockfd : Fd) : Tested (s.connected sockfd) := by
  unfold connected
  split
  next seen =>
    refine ⟨tested.handOvers, fun fd n member => ?_⟩
    simp only [Connector.push, List.mem_cons, ConnectorTask.newConnection.injEq] at member
    rcases member with ⟨-, rfl⟩ | member
    · exact ⟨Nat.le_refl _, fun unset => by simp [Connector.push, seen] at unset⟩
    · exact tested.pending fd n member
  next => exact ⟨tested.handOvers, tested.pending⟩

/-- The task on top of the stack is done. -/
theorem Tested.pop {task : ConnectorTask} {rest : List ConnectorTask} (tested : Tested s)
    (top : s.todo = task :: rest) : Tested { s with todo := rest } := by
  refine tested.same rfl rfl rfl fun sockfd n member => ?_
  rw [top]
  exact List.mem_cons_of_mem task member

theorem Tested.step {a : Action} (tested : Tested s) (once : s.OneStart a) (taken : s.Step a t) :
    Tested t := by
  cases taken with
  | start | callStart =>
    refine ⟨tested.handOvers, fun sockfd n member => ?_⟩
    exact ⟨(tested.pending sockfd n (by simpa [Connector.push] using member)).1, by rintro ⟨⟩⟩
  | stop | callStop =>
    refine ⟨tested.handOvers, fun sockfd n member => ?_⟩
    have before := (tested.pending sockfd n member).1
    exact ⟨Nat.le_succ_of_le before, fun _ => Nat.lt_succ_of_le before⟩
  | restart => exact False.elim once
  | push | pollIdle | pollEvent | swap | nextStopLate | nextReset | finish | closeHanded =>
    exact ⟨tested.handOvers, tested.pending⟩
  | dispatch =>
    refine ⟨tested.handOvers, fun sockfd n member => ?_⟩
    simp only [callbacks] at member
    split at member <;> split at member <;> simp at member
  | startInLoop top =>
    have popped := tested.pop top
    apply begin_tested
    exact ⟨popped.handOvers, popped.pending⟩
  | connecting top | connectClose top =>
    have popped := tested.pop top
    exact ⟨popped.handOvers, popped.pending⟩
  | connectRetry top | failed top =>
    have popped := tested.pop top
    apply retry_tested
    exact ⟨popped.handOvers, popped.pending⟩
  | connected top =>
    have popped := tested.pop top
    apply connected_tested
    exact ⟨popped.handOvers, popped.pending⟩
  | late top | user top => exact tested.pop top
  | handled top =>
    have popped := tested.pop top
    exact ⟨popped.handOvers, popped.pending⟩
  | @newConnection answer rest sockfd n top =>
    have popped := tested.pop top
    have seen := (tested.pending sockfd n (by simp [top])).2
    refine ⟨fun h member => ?_, fun fd m member => popped.pending fd m ?_⟩
    · simp only [Connector.newConnection, Connector.push, List.mem_append, List.mem_singleton] at member
      rcases member with member | rfl
      · exact tested.handOvers h member
      · exact seen
    · simpa [Connector.newConnection, Connector.push, release] using member
  | fire | nextStart =>
    apply begin_tested
    exact ⟨tested.handOvers, tested.pending⟩
  | nextStop =>
    apply retry_tested
    exact ⟨tested.handOvers, tested.pending⟩

/-! ### Whole runs -/

structure Sound (s : Connector) (p : Place) : Prop where
  inv : Inv s p
  timed : Timed s
  account : Account s s.attemptFd
  tested : Tested s

theorem step_sound (s : Connector) (a : Action) (sound : ∃ p, Sound s p) (once : s.OneStart a) :
    Safe (fun t => ∃ q, Sound t q) (s.step a) := by
  obtain ⟨p, inv, timed, account, tested⟩ := sound
  have orderly := orderly_of_oneStart inv timed once
  refine (step_spec inv a orderly).mono fun t taken => ?_
  obtain ⟨q, after⟩ := inv.step orderly taken
  exact ⟨q, after, timed.step inv once taken, account.step inv after orderly once taken,
    tested.step once taken⟩

/-- In every run with one `Start`, with `Stop`s after it and with timers that fire in a later iteration,
each socket that was created was handed over once and not closed, or closed once and not handed over, or
is the one socket of the present attempt. Nothing else is closed or handed over, and nothing while the
poller or the kernel has its descriptor. The callback is called after `connect_` was seen true: where it
finds it false, a `Stop` was executed in between. -/
theorem sockets_accounted (acts : List Action) (once : Run.Meets step OneStart new acts) :
    Safe (fun s =>
        (∀ id < s.created,
          s.timesHanded id = 1 ∧ s.timesClosed id = 0 ∧ s.attemptFd.bind s.sockets ≠ some id ∨
          s.timesHanded id = 0 ∧ s.timesClosed id = 1 ∧ s.attemptFd.bind s.sockets ≠ some id ∨
          s.timesHanded id = 0 ∧ s.timesClosed id = 0 ∧ s.attemptFd.bind s.sockets = some id) ∧
        none ∉ s.closes ∧ none ∉ s.handOvers.map HandOver.socket ∧ s.early = 0 ∧
        ∀ h ∈ s.handOvers, h.connect_ = false → h.tested < h.called)
      (Run.exec step new acts) := by
  have safe : Safe (fun s => ∃ p, Sound s p) (Run.exec step new acts) :=
    Run.exec_safe step_sound new acts ⟨.nowhere, inv_new, timed_new, account_new, tested_new⟩ once
  refine safe.mono fun s sound => ?_
  obtain ⟨p, -, -, account, tested⟩ := sound
  refine ⟨fun id made => ?_, account.closes, account.handOvers, account.early, tested.handOvers⟩
  have single := account.once id
  rw [if_pos made] at single
  split at single
  next owned => exact Or.inr (Or.inr ⟨by omega, by omega, owned⟩)
  next free =>
    rcases Nat.eq_zero_or_pos (s.timesHanded id) with never | handed
    · exact Or.inr (Or.inl ⟨never, by omega, free⟩)
    · exact Or.inl ⟨by omega, by omega, free⟩

/-- The first attempt fails in an event with both handlers, the second one at once; the third one is
made, and its callback stops the connector. The descriptor is the same in all of them. -/
def thirdAttemptMade : List Action :=
  [.callStart 1, .push 1, .poll none, .swap, .next, .resume (underWay 7), .finish,
    .poll (some (epollErr ||| epollOut)), .dispatch, .resume (underWay 7), .resume (underWay 7),
    .resume (underWay 7), .swap, .next, .finish, .poll none, .fire 0, .resume (refused 7), .swap, .finish,
    .poll none, .fire 0, .resume (underWay 7), .swap, .finish, .poll (some epollOut), .dispatch,
    .resume (underWay 7), .resume (underWay 7), .stop, .resume (underWay 7), .resume (underWay 7),
    .closeHanded 7, .swap, .next, .next, .finish]

theorem sockets_accounted_thirdAttemptMade :
    Run.Meets step OneStart new thirdAttemptMade ∧
    ∃ s, Run.exec step new thirdAttemptMade = .ok s ∧ s.created = 3 ∧ s.handOvers.length = 1 ∧
      (∀ id < 3, s.timesHanded id + s.timesClosed id = 1) ∧ s.early = 0 := by
  have once : Run.Meets step OneStart new thirdAttemptMade := by decide +kernel
  have last : (Run.exec step new thirdAttemptMade).toOption.map
      (fun s => (s.created, s.handOvers.length, s.attemptFd)) = some (3, 1, none) := by decide +kernel
  obtain ⟨s, reached, ended⟩ := returned_of_map last
  simp only [Prod.mk.injEq] at ended
  obtain ⟨three, handed, ended⟩ := ended
  have accounted := (sockets_accounted thirdAttemptMade once).result reached
  refine ⟨once, s, reached, three, handed, fun id made => ?_, accounted.2.2.2.1⟩
  rcases accounted.1 id (by rw [three]; exact made) with ⟨one, zero, -⟩ | ⟨zero, one, -⟩ | ⟨-, -, owned⟩
  · rw [one, zero]
  · rw [one, zero]
  · simp [ended] at owned

end Connector

end Rnet.Network
