import Rnet.Network.Connector

/-!
# What a step of the connector does

The attempt of a connector is in one place at a time: a functor, a timer or a task that will call
`StartInLoop`, or the channel of a connection that is being made. `Inv` ties the place to the
variables of the connector. In a state that satisfies it no assert can fail, and `Step` lists what
each action does there, so that an invariant is a case analysis on `Step`.
-/
namespace Rnet.Network

open Check

namespace Connector

variable {s t : Connector} {c : Channel}

/-! ### The place of the attempt -/

/-- The functors that stand for an attempt to come. -/
def startKey : ConnectorFunctor → Option Unit
  | .startInLoop => some ()
  | .stopInLoop | .resetChannel => none

inductive Place where
  | nowhere
  /-- A `StartInLoop` is queued or in flight. -/
  | queued
  /-- `Start` or `Restart` calls `StartInLoop` in place. -/
  | called
  | timer
  /-- `StartInLoop` has seen `connect_` and is to call `Connect`. -/
  | connect
  /-- The connector is `kConnecting`. -/
  | attempt
  deriving DecidableEq, Repr

namespace Place

/-- The calls of `Start` and `Restart` whose `StartInLoop` is to come. -/
def awaited : Place → Nat
  | queued | called => 1
  | nowhere | timer | connect | attempt => 0

/-- What the loop thread has to do outside the events of the channel. -/
def tasks : Place → List ConnectorTask
  | called => [.startInLoop]
  | connect => [.connect]
  | nowhere | queued | timer | attempt => []

/-- `channel_` has to be null for the attempt to come. -/
def Clear (p : Place) : Prop := p = queued ∨ p = called ∨ p = connect

end Place

structure Placed (s : Connector) (p : Place) : Prop where
  once : s.loop.CarriesOnce startKey
  queued : s.loop.Carries startKey () ↔ p = .queued
  timers : s.timers.length = if p = .timer then 1 else 0
  awaited : s.starts = s.begun + p.awaited
  attempt : s.state = .kConnecting ↔ p = .attempt
  idle : p ≠ .nowhere → p ≠ .attempt → s.state = .kDisconnected
  clear : p.Clear → s.channel = none

/-! ### The stack and the wiring -/

/-- What can be left of the handling of an event. -/
inductive EventTasks (state : ConnectorState) : List ConnectorTask → Prop
  | both (connecting : state = .kConnecting) : EventTasks state [.handleError, .handleWrite, .handled]
  | error (connecting : state = .kConnecting) : EventTasks state [.handleError, .handled]
  | write (unmade : state ≠ .kConnected) : EventTasks state [.handleWrite, .handled]
  | newConnection (connected : state = .kConnected) (sockfd : Fd) (stops : Nat) :
      EventTasks state [.newConnection sockfd stops, .handled]
  | user (connected : state = .kConnected) : EventTasks state [.user, .handled]
  | handled : EventTasks state [.handled]

structure Tasked (s : Connector) (p : Place) : Prop where
  outside : s.active ≠ .current → s.todo = p.tasks
  inside : s.active = .current →
    EventTasks s.state s.todo ∧ s.loop.phase = .handling ∧ s.channel ≠ none
  waiting : s.active = .waiting → s.loop.phase = .handling ∧ s.state = .kConnecting

/-- A poller with one channel, which waits to write. -/
def watching (addr : ChannelId) (fd : Fd) : Epoll :=
  ⟨Function.update (fun _ => none) fd (some addr),
    Function.update (fun _ => none) fd (some (kWriteEvent, addr))⟩

structure Watches (poller : Epoll) (channel : Option Channel) (c : Channel) : Prop where
  channel : channel = some c
  events : c.events = kWriteEvent
  index : c.index = .kAdded
  poller : poller = watching c.addr c.fd

/-- The connector waits for the connection on `c`. -/
abbrev Attached (s : Connector) (c : Channel) : Prop := Watches s.poller s.channel c

structure Wired (s : Connector) : Prop where
  attached : s.state = .kConnecting → ∃ c, s.Attached c
  detached : s.state ≠ .kConnecting → s.poller = .new
  removed : s.state ≠ .kConnecting → ∀ c, s.channel = some c → c.addedToLoop = false
  handling : ∀ c, s.channel = some c → c.eventHandling = true → s.active = .current
  resets : s.loop.queued.count .resetChannel =
    if s.state ≠ .kConnecting ∧ s.channel ≠ none then 1 else 0
  inFlight : ∀ t, s.loop.inFlight t ≠ some .resetChannel

structure Inv (s : Connector) (p : Place) : Prop where
  placed : Placed s p
  tasked : Tasked s p
  wired : Wired s

theorem inv_new : Inv new .nowhere := by
  refine ⟨⟨⟨List.nodup_nil, by rintro _ _ ⟨⟩, by rintro _ _ _ ⟨⟩⟩, ?_, rfl, rfl, ?_, by simp, by simp [Place.Clear]⟩,
    ⟨fun _ => rfl, by rintro ⟨⟩, by rintro ⟨⟩⟩,
    ⟨by rintro ⟨⟩, fun _ => rfl, by rintro _ _ ⟨⟩, by rintro _ ⟨⟩, rfl, by rintro _ ⟨⟩⟩⟩
  · simp [EventLoop.Carries, EventLoop.queued, new, EventLoop.start]
  · simp [new]

/-! ### The order in which the attempts do not overlap -/

/-- No `StartInLoop` is to come. -/
def Unstarted (s : Connector) : Prop :=
  s.starts = s.begun ∧ s.timers = [] ∧ .connect ∉ s.todo

/-- `Start` and `Restart` come when no attempt is under way or to come and the channel of the one
before has been reset, `Start` only from `kDisconnected`. A retry timer fires after the reset. -/
def Orderly (s : Connector) : Action → Prop
  | .start | .callStart _ => s.state = .kDisconnected ∧ s.channel = none ∧ s.Unstarted
  | .restart => s.state ≠ .kConnecting ∧ s.channel = none ∧ s.Unstarted
  | .fire n => n < s.timers.length → s.channel = none
  | _ => True

instance (s : Connector) : Decidable s.Unstarted := inferInstanceAs (Decidable (_ ∧ _))

instance (s : Connector) : (a : Action) → Decidable (s.Orderly a)
  | .start | .callStart _ | .restart => inferInstanceAs (Decidable (_ ∧ _ ∧ _))
  | .fire _ => inferInstanceAs (Decidable (_ → _))
  | .stop | .callStop _ | .push _ | .poll _ | .dispatch | .resume _ | .swap | .next | .finish
  | .closeHanded _ => inferInstanceAs (Decidable True)

/-! ### Steps -/

/-- The result of `StartInLoop`. -/
def begin (s : Connector) : Connector := if s.connect_ then s.push .connect else s

/-- The result of `Connecting`. -/
def attempt (s : Connector) (sockfd : Fd) : Connector :=
  { s with
    state := .kConnecting
    poller := watching s.created sockfd
    channel := some { Channel.new s.created sockfd with
      events := kWriteEvent, addedToLoop := true, index := .kAdded } }

/-- The result of `RemoveAndResetChannel`. -/
def detach (s : Connector) (c : Channel) : Connector :=
  { s with
    poller := .new
    channel := some { c with events := kNoneEvent, addedToLoop := false, index := .kNew }
    loop := s.loop.queueInLoop .resetChannel }

/-- The result of `HandleWrite` on a connection that was made. -/
def connected (s : Connector) (sockfd : Fd) : Connector :=
  if s.connect_ then { s with state := .kConnected }.push (.newConnection sockfd s.stops)
  else { s with state := .kConnected }.close sockfd

inductive Step (s : Connector) : Action → Connector → Prop
  | start (user : s.UserCode) :
      Step s .start ({ s with connect_ := true, starts := s.starts + 1 }.push .startInLoop)
  | stop (user : s.UserCode) :
      Step s .stop ({ s with connect_ := false, stops := s.stops + 1 }.queueInLoop .stopInLoop)
  | restart (user : s.UserCode) :
      Step s .restart ({ s with
        state := .kDisconnected
        retryDelayMs := kInitRetryDelayMs
        connect_ := true
        starts := s.starts + 1 }.push .startInLoop)
  | callStart {t : Tid} (free : s.loop.inFlight t = none) :
      Step s (.callStart t) { s with
        connect_ := true
        starts := s.starts + 1
        loop := { s.loop with inFlight := Function.update s.loop.inFlight t (some .startInLoop) } }
  | callStop {t : Tid} (free : s.loop.inFlight t = none) :
      Step s (.callStop t) { s with
        connect_ := false
        stops := s.stops + 1
        loop := { s.loop with inFlight := Function.update s.loop.inFlight t (some .stopInLoop) } }
  | push {t : Tid} {f : ConnectorFunctor} (found : s.loop.inFlight t = some f) :
      Step s (.push t) { s with loop := { s.loop with
        pendingFunctors := s.loop.pendingFunctors ++ [f]
        inFlight := Function.update s.loop.inFlight t none } }
  | pollIdle (idle : s.todo = []) (polling : s.loop.phase = .polling) :
      Step s (.poll none) { s with
        loop := { s.loop with phase := .handling }, iteration := s.iteration + 1, active := .absent }
  | pollEvent {c : Channel} {revents : Events} (idle : s.todo = []) (polling : s.loop.phase = .polling)
      (connecting : s.state = .kConnecting) (attached : s.Attached c) :
      Step s (.poll (some revents)) { s with
        loop := { s.loop with phase := .handling }
        iteration := s.iteration + 1
        active := .waiting
        channel := some { c with revents := revents } }
  | dispatch {c : Channel} (waiting : s.active = .waiting) (attached : s.Attached c) :
      Step s .dispatch { s with
        active := .current
        channel := some { c with eventHandling := true }
        todo := callbacks c.revents ++ [.handled] }
  | startInLoop {answer : KernelAnswer} {rest : List ConnectorTask} (top : s.todo = .startInLoop :: rest) :
      Step s (.resume answer) { s with todo := rest, begun := s.begun + 1 }.begin
  | connecting {answer : KernelAnswer} {rest : List ConnectorTask} (top : s.todo = .connect :: rest)
      (free : s.sockets answer.sockfd = none) :
      Step s (.resume answer)
        (({ s with todo := rest }.createNonblocking answer.sockfd).attempt answer.sockfd)
  | connectRetry {answer : KernelAnswer} {rest : List ConnectorTask} (top : s.todo = .connect :: rest)
      (free : s.sockets answer.sockfd = none) :
      Step s (.resume answer)
        (({ s with todo := rest }.createNonblocking answer.sockfd).retry answer.sockfd)
  | connectClose {answer : KernelAnswer} {rest : List ConnectorTask} (top : s.todo = .connect :: rest)
      (free : s.sockets answer.sockfd = none) :
      Step s (.resume answer)
        (({ s with todo := rest }.createNonblocking answer.sockfd).close answer.sockfd)
  | failed {answer : KernelAnswer} {task : ConnectorTask} {rest : List ConnectorTask} {c : Channel}
      (top : s.todo = task :: rest) (event : task = .handleError ∨ task = .handleWrite)
      (connecting : s.state = .kConnecting) (attached : s.Attached c) :
      Step s (.resume answer) (({ s with todo := rest }.detach c).retry c.fd)
  | connected {answer : KernelAnswer} {rest : List ConnectorTask} {c : Channel}
      (top : s.todo = .handleWrite :: rest) (connecting : s.state = .kConnecting) (attached : s.Attached c) :
      Step s (.resume answer) (({ s with todo := rest }.detach c).connected c.fd)
  /-- An event of an attempt that is over already. -/
  | late {answer : KernelAnswer} {task : ConnectorTask} {rest : List ConnectorTask}
      (top : s.todo = task :: rest) (event : task = .handleError ∨ task = .handleWrite)
      (ended : s.state ≠ .kConnecting) :
      Step s (.resume answer) { s with todo := rest }
  | newConnection {answer : KernelAnswer} {rest : List ConnectorTask} {sockfd : Fd} {tested : Nat}
      (top : s.todo = .newConnection sockfd tested :: rest) :
      Step s (.resume answer) ({ s with todo := rest }.newConnection sockfd tested)
  | user {answer : KernelAnswer} {rest : List ConnectorTask} (top : s.todo = .user :: rest) :
      Step s (.resume answer) { s with todo := rest }
  | handled {answer : KernelAnswer} {rest : List ConnectorTask} (top : s.todo = .handled :: rest) :
      Step s (.resume answer) { s with
        todo := rest
        active := .past
        channel := s.channel.map fun channel => { channel with eventHandling := false } }
  | fire {n : Nat} (handling : s.loop.phase = .handling) (idle : s.todo = []) (armed : n < s.timers.length) :
      Step s (.fire n) { s with timers := s.timers.eraseIdx n }.begin
  | swap (idle : s.todo = []) (served : s.active ≠ .waiting) (handling : s.loop.phase = .handling)
      (called : s.loop.functors = []) :
      Step s .swap { s with loop :=
        { s.loop with phase := .running, functors := s.loop.pendingFunctors, pendingFunctors := [] } }
  | nextStart {rest : List ConnectorFunctor} (idle : s.todo = []) (running : s.loop.phase = .running)
      (first : s.loop.functors = .startInLoop :: rest) :
      Step s .next { s with loop := { s.loop with functors := rest }, begun := s.begun + 1 }.begin
  | nextStop {rest : List ConnectorFunctor} {c : Channel} (idle : s.todo = [])
      (running : s.loop.phase = .running) (first : s.loop.functors = .stopInLoop :: rest)
      (connecting : s.state = .kConnecting) (attached : s.Attached c) :
      Step s .next (({ s with loop := { s.loop with functors := rest } }.detach c).retry c.fd)
  | nextStopLate {rest : List ConnectorFunctor} (idle : s.todo = []) (running : s.loop.phase = .running)
      (first : s.loop.functors = .stopInLoop :: rest) (ended : s.state ≠ .kConnecting) :
      Step s .next { s with loop := { s.loop with functors := rest } }
  | nextReset {rest : List ConnectorFunctor} (idle : s.todo = []) (running : s.loop.phase = .running)
      (first : s.loop.functors = .resetChannel :: rest) :
      Step s .next { s with loop := { s.loop with functors := rest }, channel := none }
  | finish (idle : s.todo = []) (running : s.loop.phase = .running) (called : s.loop.functors = []) :
      Step s .finish { s with loop := { s.loop with phase := .polling } }
  | closeHanded {fd : Fd} {socket : SocketId} (opened : s.sockets fd = some socket)
      (handed : some socket ∈ s.handOvers.map HandOver.socket) :
      Step s (.closeHanded fd) { s with sockets := Function.update s.sockets fd none }

/-! ### The functions in a state that satisfies the invariant -/

theorem watching_mirrors (events : c.events = kWriteEvent) (index : c.index = .kAdded) :
    (watching c.addr c.fd).Mirrors c := by
  constructor
  · simp [watching, index]
  · simp [watching, index, events]

/-- A new channel comes into an empty poller. -/
theorem enableWriting_eq (addr : ChannelId) (fd : Fd) :
    (Channel.new addr fd).enableWriting Epoll.new = .ok (watching addr fd,
      { Channel.new addr fd with events := kWriteEvent, addedToLoop := true, index := .kAdded }) := by
  have tracks : Epoll.new.Tracks { Channel.new addr fd with events := kNoneEvent ||| kWriteEvent } kNoneEvent :=
    ⟨rfl, rfl⟩
  exact tracks.update_eq

theorem connecting_eq (sockfd : Fd) (empty : s.channel = none) (poller : s.poller = .new) :
    s.connecting sockfd = .ok (s.attempt sockfd) := by
  apply Returns.eq_ok
  simp only [connecting, returns_bind, returns_ensure, returns_lift, poller, enableWriting_eq, returns_ok,
    returns_pure]
  exact ⟨empty, rfl⟩

/-- What `DisableAll()` and `Remove()` leave. -/
theorem Attached.remove_eq (attached : s.Attached c) :
    ∃ poller channel, c.disableAll s.poller = .ok (poller, channel) ∧
      channel.remove true poller =
        .ok (.new, { c with events := kNoneEvent, addedToLoop := false, index := .kNew }) := by
  have mirrors := watching_mirrors attached.events attached.index
  have disabled := (mirrors.tracks kNoneEvent).update_eq
  have removed := (Epoll.afterUpdate_mirrors (watching c.addr c.fd)
    { c with events := kNoneEvent }).remove_eq (by simp [Channel.afterUpdate, attached.index]) rfl
  refine ⟨_, _, by rw [attached.poller]; exact disabled, removed.trans ?_⟩
  -- the poller had no other channel
  have empty : ((watching c.addr c.fd).afterUpdate { c with events := kNoneEvent }).afterRemove
      ({ c with events := kNoneEvent }).afterUpdate = Epoll.new := by
    simp only [Epoll.afterRemove, Epoll.afterUpdate, Channel.afterUpdate, watching, Function.update_idem,
      Epoll.new, Epoll.mk.injEq]
    constructor <;> exact Function.update_eq_self ..
  rw [empty]
  rfl

theorem removeAndResetChannel_eq (attached : s.Attached c) (removable : s.removable = true) :
    s.removeAndResetChannel = .ok (c.fd, s.detach c) := by
  obtain ⟨poller, channel, disabled, removed⟩ := attached.remove_eq
  apply Returns.eq_ok
  simp only [removeAndResetChannel, attached.channel, demand, returns_bind, returns_ok, returns_lift,
    disabled, removable, removed, returns_pure]
  rfl

theorem startInLoop_eq (idle : s.state = .kDisconnected) : s.startInLoop = .ok s.begin := by
  apply Returns.eq_ok
  simp only [startInLoop, returns_bind, returns_ensure, returns_pure]
  exact ⟨idle, rfl⟩

/-! ### Where the loop thread is -/

variable {p : Place}

/-- All tasks but the two of `Start` belong to an event of the channel. -/
theorem Tasked.event (tasked : Tasked s p) {task : ConnectorTask} {rest : List ConnectorTask}
    (top : s.todo = task :: rest) (start : task ≠ .startInLoop) (connect : task ≠ .connect) :
    s.active = .current ∧ EventTasks s.state (task :: rest) := by
  have current : s.active = .current := by
    by_contra outside
    have tasks := tasked.outside outside
    rw [top] at tasks
    cases p <;> simp_all [Place.tasks]
  rw [← top]
  exact ⟨current, (tasked.inside current).1⟩

/-- The two handlers are called in the event of the channel. -/
theorem Tasked.handler (tasked : Tasked s p) {task : ConnectorTask} {rest : List ConnectorTask}
    (top : s.todo = task :: rest) (event : task = .handleError ∨ task = .handleWrite) :
    s.active = .current ∧ EventTasks s.state (task :: rest) := by
  rcases event with rfl | rfl
  · exact tasked.event top (by simp) (by simp)
  · exact tasked.event top (by simp) (by simp)

theorem Tasked.called (tasked : Tasked s p) {rest : List ConnectorTask}
    (top : s.todo = .startInLoop :: rest) : p = .called ∧ rest = [] ∧ s.active ≠ .current := by
  have outside : s.active ≠ .current := by
    intro inside
    have tasks := (tasked.inside inside).1
    rw [top] at tasks
    cases tasks
  have tasks := tasked.outside outside
  rw [top] at tasks
  cases p <;> simp_all [Place.tasks]

theorem Tasked.connect (tasked : Tasked s p) {rest : List ConnectorTask}
    (top : s.todo = .connect :: rest) : p = .connect ∧ rest = [] ∧ s.active ≠ .current := by
  have outside : s.active ≠ .current := by
    intro inside
    have tasks := (tasked.inside inside).1
    rw [top] at tasks
    cases tasks
  have tasks := tasked.outside outside
  rw [top] at tasks
  cases p <;> simp_all [Place.tasks]

theorem Tasked.idle (tasked : Tasked s p) (idle : s.todo = []) : s.active ≠ .current := by
  intro inside
  have tasks := (tasked.inside inside).1
  rw [idle] at tasks
  cases tasks

theorem Tasked.served (tasked : Tasked s p) (past : s.loop.phase ≠ .handling) : s.active ≠ .waiting := by
  intro waiting
  exact past (tasked.waiting waiting).1

/-- The kernel watches a descriptor only for the attempt. -/
theorem Wired.watched (wired : Wired s) {fd : Fd} (known : s.registered fd = true) :
    s.state = .kConnecting := by
  by_contra ended
  simp [registered, wired.detached ended, Epoll.new] at known

theorem Attached.of_channel (attached : ∃ d, s.Attached d) (channel : s.channel = some c) :
    s.Attached c := by
  obtain ⟨d, attached⟩ := attached
  obtain rfl : c = d := Option.some.inj (channel.symm.trans attached.channel)
  exact attached

/-! ### What each action does -/

theorem poll_spec (inv : Inv s p) (revents : Option Events) :
    Safe (s.Step (.poll revents)) (s.poll revents) := by
  simp only [poll, EventLoop.poll, safe_bind, safe_require, safe_pure]
  intro idle polling
  cases revents with
  | none => exact .pollIdle idle polling
  | some revents =>
    simp only [safe_bind, safe_given, safe_require, safe_lift, safe_pure, Epoll.fillActiveChannel, safe_ensure]
    intro c channel watched
    have known : s.registered c.fd = true := by simp [registered, watched]
    have connecting := inv.wired.watched known
    have attached := Attached.of_channel (inv.wired.attached connecting) channel
    have listed : s.poller.channels c.fd = some c.addr := by simp [attached.poller, watching]
    exact ⟨by simp [listed], listed, .pollEvent idle polling connecting attached⟩

theorem dispatch_spec (inv : Inv s p) : Safe (s.Step .dispatch) s.dispatch := by
  simp only [dispatch, safe_bind, safe_require, safe_demand, safe_pure]
  intro ready
  obtain ⟨c, attached⟩ := inv.wired.attached (inv.tasked.waiting ready.2.1).2
  exact ⟨c, attached.channel, .dispatch ready.2.1 attached⟩

/-- The two handlers find the channel in the poller, and it is the current one. -/
theorem Inv.removable (inv : Inv s p) {task : ConnectorTask} {rest : List ConnectorTask}
    (top : s.todo = task :: rest) (start : task ≠ .startInLoop) (connect : task ≠ .connect) :
    { s with todo := rest }.removable = true := by
  simp [Connector.removable, (inv.tasked.event top start connect).1]

theorem handleError_spec (inv : Inv s p) (answer : KernelAnswer) {rest : List ConnectorTask}
    (top : s.todo = .handleError :: rest) :
    Safe (s.Step (.resume answer)) { s with todo := rest }.handleError := by
  unfold handleError
  split
  next connecting =>
    obtain ⟨c, attached⟩ := inv.wired.attached connecting
    rw [removeAndResetChannel_eq (s := { s with todo := rest }) attached (inv.removable top (by simp) (by simp))]
    exact .failed top (Or.inl rfl) connecting attached
  next ended => exact .late top (Or.inl rfl) ended

theorem handleWrite_spec (inv : Inv s p) (answer : KernelAnswer) {rest : List ConnectorTask}
    (top : s.todo = .handleWrite :: rest) :
    Safe (s.Step (.resume answer)) ({ s with todo := rest }.handleWrite answer.err answer.selfConnect) := by
  unfold handleWrite
  split
  next connecting =>
    obtain ⟨c, attached⟩ := inv.wired.attached connecting
    rw [removeAndResetChannel_eq (s := { s with todo := rest }) attached (inv.removable top (by simp) (by simp))]
    have failed : s.Step (.resume answer) (({ s with todo := rest }.detach c).retry c.fd) :=
      .failed top (Or.inr rfl) connecting attached
    simp only [safe_bind, safe_ok]
    split
    · exact failed
    split
    · exact failed
    · exact .connected top connecting attached
  next ended =>
    have inside := (inv.tasked.event top (by simp) (by simp)).2
    simp only [safe_bind, safe_ensure, safe_pure]
    refine ⟨?_, .late top (Or.inr rfl) ended⟩
    cases inside with
    | write unmade => cases closed : s.state <;> simp_all

theorem connect_spec (inv : Inv s p) (answer : KernelAnswer) {rest : List ConnectorTask}
    (top : s.todo = .connect :: rest) :
    Safe (s.Step (.resume answer)) ({ s with todo := rest }.connect answer.sockfd answer.errno) := by
  obtain ⟨rfl, -, -⟩ := inv.tasked.connect top
  have idle : s.state = .kDisconnected := inv.placed.idle (by simp) (by simp)
  have empty : s.channel = none := inv.placed.clear (Or.inr (Or.inr rfl))
  have poller : s.poller = .new := inv.wired.detached (by simp [idle])
  simp only [Connector.connect, safe_bind, safe_require]
  intro free
  split
  · have made : ({ s with todo := rest }.createNonblocking answer.sockfd).connecting answer.sockfd =
        .ok (({ s with todo := rest }.createNonblocking answer.sockfd).attempt answer.sockfd) :=
      connecting_eq answer.sockfd empty poller
    rw [made]
    exact .connecting top free
  · exact .connectRetry top free
  · exact .connectClose top free

theorem resume_spec (inv : Inv s p) (answer : KernelAnswer) :
    Safe (s.Step (.resume answer)) (s.resume answer) := by
  unfold resume
  split
  next => trivial
  next rest top =>
    obtain ⟨rfl, -, -⟩ := inv.tasked.called top
    rw [startInLoop_eq (s := { s with todo := rest, begun := s.begun + 1 }) (inv.placed.idle (by simp) (by simp))]
    exact .startInLoop top
  next rest top => exact connect_spec inv answer top
  next rest top => exact handleError_spec inv answer top
  next rest top => exact handleWrite_spec inv answer top
  next sockfd tested rest top => exact .newConnection top
  next rest top => exact .user top
  next rest top => exact .handled top

theorem Placed.timer (placed : Placed s p) {n : Nat} (armed : n < s.timers.length) : p = .timer := by
  by_contra other
  simp [placed.timers, other] at armed

/-- A functor that is queued first belongs to the attempt. -/
theorem Placed.first (placed : Placed s p) {rest : List ConnectorFunctor}
    (first : s.loop.functors = .startInLoop :: rest) : p = .queued := by
  rw [← placed.queued]
  exact Or.inl (by simp [EventLoop.queued, first, startKey])

theorem next_spec (inv : Inv s p) : Safe (s.Step .next) s.next := by
  simp only [next, EventLoop.next, safe_bind, safe_require]
  intro idle running
  split
  · trivial
  next f rest first =>
    simp only [safe_pure]
    cases f with
    | startInLoop =>
      obtain rfl := inv.placed.first first
      simp only [run]
      rw [startInLoop_eq (s := { s with loop := { s.loop with functors := rest }, begun := s.begun + 1 })
        (inv.placed.idle (by simp) (by simp))]
      exact .nextStart idle running first
    | stopInLoop =>
      simp only [run, stopInLoop]
      split
      next connecting =>
        obtain ⟨c, attached⟩ := inv.wired.attached connecting
        let taken := { s with loop := { s.loop with functors := rest }, state := .kDisconnected }
        rw [removeAndResetChannel_eq (s := taken) attached (by simp [taken, Connector.removable, running])]
        exact .nextStop idle running first connecting attached
      next ended => exact .nextStopLate idle running first ended
    | resetChannel =>
      have queued : 0 < s.loop.queued.count .resetChannel := by simp [EventLoop.queued, first]
      rw [inv.wired.resets] at queued
      split at queued
      next pending =>
        obtain ⟨ended, present⟩ := pending
        obtain ⟨c, channel⟩ := Option.ne_none_iff_exists'.mp present
        have quiet : c.eventHandling = false := by
          rw [← Bool.not_eq_true]
          intro handling
          exact inv.tasked.idle idle (inv.wired.handling c channel handling)
        simp only [run, resetChannel, channel, safe_bind, safe_ensure, safe_pure]
        exact ⟨quiet, inv.wired.removed ended c channel, by simp [inv.wired.detached ended, Epoll.new],
          .nextReset idle running first⟩
      next => exact absurd queued (Nat.lt_irrefl 0)

/-- No assert fails in an orderly step from a state that satisfies the invariant. -/
theorem step_spec (inv : Inv s p) (a : Action) (orderly : s.Orderly a) : Safe (s.Step a) (s.step a) := by
  cases a with
  | start =>
    simp only [step, start, safe_bind, safe_require, safe_pure]
    exact fun user => .start user
  | stop =>
    simp only [step, stop, safe_bind, safe_require, safe_pure]
    exact fun user => .stop user
  | restart =>
    simp only [step, restart, safe_bind, safe_require, safe_pure]
    exact fun user => .restart user
  | callStart t =>
    simp only [step, callStart, EventLoop.enter, safe_bind, safe_require, safe_pure]
    exact fun free => .callStart free
  | callStop t =>
    simp only [step, callStop, EventLoop.enter, safe_bind, safe_require, safe_pure]
    exact fun free => .callStop free
  | push t =>
    simp only [step, EventLoop.push, safe_bind, safe_given, safe_pure]
    exact fun f found => .push found
  | poll revents => exact poll_spec inv revents
  | dispatch => exact dispatch_spec inv
  | resume answer => exact resume_spec inv answer
  | fire n =>
    simp only [step, fire, safe_bind, safe_require]
    intro ready
    obtain rfl := inv.placed.timer ready.2.2
    rw [startInLoop_eq (s := { s with timers := s.timers.eraseIdx n }) (inv.placed.idle (by simp) (by simp))]
    exact .fire ready.1 ready.2.1 ready.2.2
  | swap =>
    simp only [step, EventLoop.swap, safe_bind, safe_require, safe_pure]
    exact fun idle ready => .swap idle.1 idle.2 ready.1 ready.2
  | next => exact next_spec inv
  | finish =>
    simp only [step, EventLoop.finish, safe_bind, safe_require, safe_pure]
    exact fun idle done => .finish idle done.1 done.2
  | closeHanded fd =>
    simp only [step, closeHanded, safe_bind, safe_given, safe_require, safe_pure]
    exact fun socket opened handed => .closeHanded opened handed

end Connector

end Rnet.Network
