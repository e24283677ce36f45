import Rnet.Network.ConnectionSteps
import Rnet.Network.StreamDelivery

/-!
# The lifecycle of a connection

Every step of a connection keeps the invariant `Life`, as long as four things do not happen:
reading is started again after the close, reading is stopped when the channel has been removed,
the poller reports an event of a closed connection, and an event that hung up is read to its
end as well. The code withstands none of the four.
-/
namespace Rnet.Network.Connection

open Check File Rnet.Network.Core

variable {alive : Bool} {s : Connection}

/-! ### What a step runs -/

/-- The poller reports an event of the channel. -/
def Action.reports : Action → Bool
  | .poll (some _) => true
  | _ => false

/-- The orders of events the code withstands. -/
structure Regular (s : Connection) (a : Action) : Prop where
  startRead : a.runs s = some .startReadInLoop → s.state ≠ .kDisconnected
  stopRead : a.runs s = some .stopReadInLoop → s.reading = true → s.channel.index ≠ .kNew
  report : a.reports = true → s.state ≠ .kDisconnected
  readEnd : a.readsEnd s = true → s.channel.hungUp = false

instance (s : Connection) (a : Action) : Decidable (s.Regular a) :=
  decidable_of_iff
    ((a.runs s = some .startReadInLoop → s.state ≠ .kDisconnected) ∧
      (a.runs s = some .stopReadInLoop → s.reading = true → s.channel.index ≠ .kNew) ∧
      (a.reports = true → s.state ≠ .kDisconnected) ∧
      (a.readsEnd s = true → s.channel.hungUp = false))
    ⟨fun ⟨start, stop, report, readEnd⟩ => ⟨start, stop, report, readEnd⟩,
      fun ⟨start, stop, report, readEnd⟩ => ⟨start, stop, report, readEnd⟩⟩

/-! ### Where the loop thread stands -/

/-- Outside the handling of events the channel is not among those to come. -/
theorem waiting_of_phase (controlled : Controlled s.core) (phase : s.loop.phase ≠ .handling) : s.waiting = false :=
  controlled.idle (removable_of_phase phase)

/-- The event of the channel is dispatched only with its `HandleWrite` on the stack. -/
theorem current_of_absent (controlled : Controlled s.core) (absent : .handleWrite ∉ s.todo) : s.current = false := by
  by_contra current
  rw [Bool.not_eq_false] at current
  exact absent (controlled.current.mp current)

/-! ### Events -/

/-- `HandleRead`, after the task was taken from the stack. An end of file closes the connection,
unless the event has closed it before. -/
theorem handleRead_life (life : Life alive s.core) (top : s.todo = [.handleRead, .handleWrite])
    (read : ReadResult) (closes : read = .delivered [] →
      alive = true ∧ s.core.Up) :
    Safe (fun t => Life alive t.core) ({ s with todo := [.handleWrite] }.handleRead read) := by
  have controlled := life.controlled.pop (c := s.core) top (by simp)
  have popped : Life alive { s with todo := [.handleWrite] }.core :=
    { life.toSteady.pop (c := s.core) top (by simp) (by simp) (by simp) with controlled := controlled }
  have established : s.state ≠ .kConnecting := life.queued.top_established (c := s.core) top (by simp)
  have current : s.current = true := by
    apply life.controlled.current.mpr
    change _ ∈ s.todo
    simp [top]
  cases read with
  | failed => exact popped
  | delivered data =>
    simp only [handleRead, safe_bind, safe_require]
    intro _
    split
    · exact popped.invoke established (by simp [core])
    next empty =>
      obtain ⟨served, up⟩ := closes (by simpa using empty)
      exact handleClose_life
        (s := { s with todo := [.handleWrite], inputBuffer := s.inputBuffer.readFd data })
        popped up served (life.controlled.idle (removable_of_current current)) (by simp)

/-- The beginning of a dispatch. -/
theorem dispatching_life (life : Life alive s.core) (up : s.core.Up) (empty : s.todo = []) :
    Life alive { s with
      waiting := false
      current := true
      channel := { s.channel with eventHandling := true }
      todo := [.handleRead, .handleWrite] }.core := by
  have retouched : Registered { s with channel := { s.channel with eventHandling := true } }.core :=
    life.registered.retouch _ rfl rfl rfl rfl
  refine ⟨⟨?registered, ?counted, ?queued⟩, ?controlled⟩
  case registered =>
    refine { retouched with index := ?_, removing := ?_ }
    · exact fun down => absurd down up.ne_disconnected
    · simp [core]
  case counted =>
    -- neither the old stack nor the new one has a `closeCallback_`
    have counted := life.counted
    have absent : s.core.todo.count .closeCallback = 0 := by simp [core, empty]
    refine { counted with closes := ?_, stages := ?_, gone := fun dead => ⟨rfl, (counted.gone dead).2⟩ }
    · have closes := counted.closes
      rw [absent] at closes
      exact closes
    · have stages := counted.stages
      rw [absent] at stages
      exact stages
  case queued =>
    refine { life.queued with fresh := fun fresh => absurd fresh up.ne_connecting, established := ?_ }
    have established := life.queued.established
    simp only [core, empty, List.count_nil] at established
    exact established
  case controlled =>
    constructor
    case waiting => rintro ⟨⟩
    case stacked => exact rfl
    case reads => exact fun _ => Or.inl ⟨rfl, up⟩
    case current | removable => simp [core]

/-- `Loop()` comes to the channel, and `HandleEventWithGuard` tests for a hang-up. -/
theorem dispatch_life (life : Life alive s.core)
    (closes : s.channel.hungUp = true → alive = true) :
    Safe (fun t => Life alive t.core) s.dispatch := by
  simp only [dispatch, safe_bind, safe_require]
  rintro ⟨_, waits, empty⟩
  have up : s.core.Up := (life.controlled.waiting waits).1
  have entered := dispatching_life life up empty
  simp only [handleEvent, empty]
  split
  next hungUp =>
    exact handleClose_life entered up (closes hungUp) rfl fun _ => hungUp
  next => exact entered

/-! ### The tasks of the loop thread -/

section Tasks

variable {rest : List ConnTask}

/-- `ConnectEstablished` is on the stack only where `NewConnection` put it. -/
theorem establishTask_life (life : Life alive s.core) (top : s.todo = .connectEstablished :: rest) :
    Safe (fun t => Life alive t.core) { s with todo := rest }.connectEstablished := by
  have top' : s.core.todo = .connectEstablished :: rest := top
  have counted : s.loop.queued.count .connectEstablished + s.todo.count .connectEstablished =
      if s.state = .kConnecting then 1 else 0 := life.queued.established
  rw [top, List.count_cons_self] at counted
  have fresh : s.state = .kConnecting := by
    by_contra past
    rw [if_neg past] at counted
    omega
  obtain rfl : rest = [] := by
    rcases life.queued.fresh fresh with ⟨_, only⟩ | ⟨_, empty, _⟩
    · simpa [top'] using only
    · simp [top'] at empty
  have taken : .connectEstablished ∉ s.loop.queued := by
    rw [if_pos fresh] at counted
    apply List.count_eq_zero.mp
    omega
  have idle : s.waiting = false := by
    by_contra waits
    rw [Bool.not_eq_false] at waits
    exact (life.controlled.waiting waits).1.ne_connecting fresh
  have current : s.current = false := current_of_absent life.controlled (by simp [top])
  exact connectEstablished_life (s := { s with todo := [] }) (life.registered.pop top' (by simp))
    (life.counted.pop top' (by simp)) fresh rfl idle current taken life.queued.destroys life.queued.inFlight

theorem removeTask_life (life : Life alive s.core) (top : s.todo = .remove :: rest) :
    Safe (fun t => Life alive t.core) { s with todo := rest }.removeChannel := by
  have top' : s.core.todo = .remove :: rest := top
  have member : .remove ∈ s.core.todo := by simp [top']
  have stacked : Stacked (.remove :: rest) := top' ▸ life.controlled.stacked
  have registered := life.registered
  obtain ⟨down, known, destroyed⟩ := registered.removing member
  have removed := removeChannel_eq (s := { s with todo := rest }) registered.mirrors known
    (registered.down down) (life.controlled.removable member)
  rw [removed]
  refine ⟨⟨?_, ?_, ?_⟩, ?_⟩
  · exact unlisted_registered (s := { s with todo := rest }) registered.callbacks
      (registered.down down) down destroyed stacked.1
  · exact { life.counted.pop top' (by simp) with }
  · exact { life.queued.pop top' (by simp) with }
  · exact { life.controlled.pop top' (by simp) with }

theorem readTask_life (life : Life alive s.core) (top : s.todo = .handleRead :: rest)
    (read : ReadResult) (closes : read = .delivered [] → alive = true ∧ s.channel.hungUp = false) :
    Safe (fun t => Life alive t.core) ({ s with todo := rest }.handleRead read) := by
  have top' : s.core.todo = .handleRead :: rest := top
  have stacked : Stacked (.handleRead :: rest) := top' ▸ life.controlled.stacked
  obtain rfl : rest = [.handleWrite] := stacked
  refine handleRead_life life top read fun ends => ?_
  obtain ⟨served, quiet⟩ := closes ends
  -- the event did not hang up, so this is the first close
  rcases life.controlled.reads (by simp [top']) with ⟨_, up⟩ | hungUp
  · exact ⟨served, up⟩
  · exact absurd (hungUp.symm.trans quiet) (by simp)

/-- The end of a dispatch. -/
theorem dispatched_life {t : Connection} (kept : Kept alive { s with todo := [] }.core t.core)
    (idle : s.waiting = false) :
    Life alive { t with channel := { t.channel with eventHandling := false }, current := false }.core := by
  have todo : t.todo = [] := kept.control.todo
  have waiting : t.waiting = false := kept.control.waiting.trans idle
  have retouched := kept.steady.registered.retouch
    { t.channel with eventHandling := false } rfl rfl rfl rfl
  refine ⟨⟨{ retouched with }, { kept.steady.counted with }, { kept.steady.queued with }⟩, ?_⟩
  constructor
  · simp [core, waiting]
  · simp [core, todo, Stacked]
  · simp [core, todo]
  · simp [core, todo]
  · simp [core, todo]

theorem writeTask_life (life : Life alive s.core) (top : s.todo = .handleWrite :: rest)
    (read : ReadResult) (answer : WriteResult) :
    Safe (fun t => Life alive t.core) (s.resume alive read answer) := by
  have top' : s.core.todo = .handleWrite :: rest := top
  have stacked : Stacked (.handleWrite :: rest) := top' ▸ life.controlled.stacked
  obtain rfl : rest = [] := stacked
  have current := life.controlled.current.mpr (by simp [top'])
  have idle : s.waiting = false := life.controlled.idle (removable_of_current current)
  have established : s.state ≠ .kConnecting := life.queued.top_established top' (by simp)
  have steady : Steady alive { s with todo := [] }.core := life.toSteady.pop top' (by simp) (by simp) (by simp)
  simp only [resume, top]
  split
  · refine (handleWrite_kept steady established answer).bind fun t kept => ?_
    exact dispatched_life kept idle
  · exact dispatched_life ⟨steady, .refl _⟩ idle

end Tasks

/-- The loop thread goes on with the tasks on its stack, one case a task. -/
theorem resume_life (life : Life alive s.core) (read : ReadResult) (answer : WriteResult)
    (regular : s.Regular (.resume read answer))
    (served : Action.closes s (.resume read answer) = true → alive = true) :
    Safe (fun t => Life alive t.core) (s.resume alive read answer) := by
  cases top : s.todo with
  | nil => simp only [resume, top, safe_disabled]
  | cons task rest =>
    have top' : s.core.todo = task :: rest := top
    cases task with
    | user =>
      simp only [resume, top]
      exact ⟨life.toSteady.pop top' (by simp) (by simp) (by simp), life.controlled.pop top' (by simp)⟩
    | connectEstablished =>
      simp only [resume, top]
      exact establishTask_life life top
    | closeCallback =>
      simp only [resume, top]
      exact removeConnection_life life top
    | remove =>
      simp only [resume, top]
      exact removeTask_life life top
    | handleRead =>
      simp only [resume, top]
      split
      next readable =>
        refine readTask_life life top read fun isEnd => ?_
        subst isEnd
        have ends : Action.readsEnd s (.resume (.delivered []) answer) = true := by
          simp [Action.readsEnd, top, readable]
        exact ⟨served (by simp [Action.closes, ends]), regular.readEnd ends⟩
      next =>
        exact ⟨life.toSteady.pop top' (by simp) (by simp) (by simp), life.controlled.pop top' (by simp)⟩
    | handleWrite => exact writeTask_life life top read answer

/-! ### The functors of the queue -/

section Functors

variable {f : ConnFunctor} {loop : EventLoop ConnFunctor}

/-- A functor has been taken from the queue, with nothing on the stack of the loop thread. -/
structure Taken (s : Connection) (f : ConnFunctor) (loop : EventLoop ConnFunctor) : Prop where
  empty : s.todo = []
  queued : s.loop.queued = f :: loop.queued
  inFlight : loop.inFlight = s.loop.inFlight
  before : s.loop.phase = .running
  phase : loop.phase = .running

theorem Taken.idle (taken : Taken s f loop) (life : Life alive s.core) : s.waiting = false :=
  waiting_of_phase life.controlled (by simp [taken.before])

theorem Taken.controlled (taken : Taken s f loop) (life : Life alive s.core) :
    Controlled { s with loop := loop }.core :=
  life.controlled.turn taken.empty (taken.idle life) loop

/-- Before `ConnectEstablished` nothing else is taken. -/
theorem Taken.established (taken : Taken s f loop) (life : Life alive s.core)
    (other : f ≠ .connectEstablished) : s.state ≠ .kConnecting := by
  intro fresh
  rcases life.queued.fresh fresh with ⟨_, only⟩ | ⟨_, _, head⟩
  · have empty : s.core.todo = [] := taken.empty
    simp [empty] at only
  · have queued : s.core.loop.queued = f :: loop.queued := taken.queued
    simp [queued, other] at head

theorem Taken.count_established (taken : Taken s f loop) (life : Life alive s.core) :
    (f :: loop.queued).count .connectEstablished = if s.state = .kConnecting then 1 else 0 := by
  have counted : s.loop.queued.count .connectEstablished + s.todo.count .connectEstablished =
    if s.state = .kConnecting then 1 else 0 := life.queued.established
  rw [taken.queued, taken.empty] at counted
  exact counted

theorem Taken.count_destroyed (taken : Taken s f loop) (life : Life alive s.core) :
    s.destroys + (f :: loop.queued).count .connectDestroyed = if s.inMap = true then 0 else 1 := by
  have counted : s.destroys + s.loop.queued.count .connectDestroyed = if s.inMap = true then 0 else 1 :=
    life.queued.destroys
  rw [taken.queued] at counted
  exact counted

theorem Taken.flights (taken : Taken s f loop) (life : Life alive s.core) :
    ∀ t g, loop.inFlight t = some g → g ≠ .connectEstablished ∧ g ≠ .connectDestroyed := by
  rw [taken.inFlight]
  exact life.queued.inFlight

theorem Taken.life (taken : Taken s f loop) (life : Life alive s.core)
    (first : f ≠ .connectEstablished) (last : f ≠ .connectDestroyed) :
    Life alive { s with loop := loop }.core := by
  have established := taken.established life first
  refine ⟨⟨{ life.registered with }, { life.counted with }, ?_⟩, taken.controlled life⟩
  constructor
  · exact fun fresh => absurd fresh established
  · have counted := taken.count_established life
    rw [List.count_cons_of_ne first] at counted
    change loop.queued.count _ + s.todo.count _ = _
    rw [taken.empty]
    exact counted
  · have counted := taken.count_destroyed life
    rw [List.count_cons_of_ne last] at counted
    exact counted
  · exact taken.flights life

theorem Taken.connectEstablished_life (taken : Taken s .connectEstablished loop) (life : Life alive s.core) :
    Safe (fun t => Life alive t.core) { s with loop := loop }.connectEstablished := by
  have counted := taken.count_established life
  rw [List.count_cons_self] at counted
  have fresh : s.state = .kConnecting := by
    by_contra past
    rw [if_neg past] at counted
    omega
  have gone : .connectEstablished ∉ loop.queued := by
    rw [if_pos fresh] at counted
    apply List.count_eq_zero.mp
    omega
  have destroys := taken.count_destroyed life
  rw [List.count_cons_of_ne (by decide)] at destroys
  have current : s.current = false := current_of_absent life.controlled (by simp [taken.empty])
  exact Connection.connectEstablished_life (s := { s with loop := loop }) { life.registered with }
    { life.counted with } fresh taken.empty (taken.idle life) current gone destroys (taken.flights life)

theorem Taken.due (taken : Taken s .connectDestroyed loop) (life : Life alive s.core) :
    Due { s with loop := loop } where
  destroys := by
    have due := taken.count_destroyed life
    rw [List.count_cons_self] at due
    rw [Nat.add_right_comm]
    exact due
  established := by
    have absent := taken.count_established life
    rw [List.count_cons_of_ne (by decide), if_neg (taken.established life (by simp))] at absent
    simp only [taken.empty, List.count_nil]
    exact absent
  inFlight := taken.flights life

theorem Taken.connectDestroyed_life (taken : Taken s .connectDestroyed loop) (life : Life alive s.core)
    (settled : alive = false → s.state ≠ .kDisconnecting) :
    Safe (fun t => Life alive t.core) { s with loop := loop }.connectDestroyed := by
  have final : s.state = .kConnected ∨ s.state = .kDisconnected := by
    cases alive with
    | true =>
      refine Or.inr (life.toSteady.destroy_down ?_)
      change _ ∈ s.loop.queued
      rw [taken.queued]
      exact List.mem_cons_self
    | false =>
      -- it was established before, and by assumption it is not shutting down
      have established : s.state ≠ .kConnecting := taken.established life (by simp)
      have notHalf := settled rfl
      cases state : s.state <;> simp_all
  refine Connection.connectDestroyed_life (taken.due life) { life.registered with } (taken.controlled life)
    { life.counted with } final ?_ ?_
  · apply removable_of_phase
    change loop.phase ≠ _
    rw [taken.phase]
    simp
  · simp [taken.empty]

/-- `DoPendingFunctors` calls a functor, one case a functor. -/
theorem Taken.run_life (taken : Taken s f loop) (life : Life alive s.core) (answer : WriteResult)
    (startRead : f = .startReadInLoop → s.state ≠ .kDisconnected)
    (stopRead : f = .stopReadInLoop → s.reading = true → s.channel.index ≠ .kNew)
    (served : f = .forceCloseInLoop → s.core.Up → alive = true)
    (settled : f = .connectDestroyed → alive = false → s.state ≠ .kDisconnecting) :
    Safe (fun t => Life alive t.core) ({ s with loop := loop }.run f answer) := by
  cases f with
  | connectEstablished => exact taken.connectEstablished_life life
  | connectDestroyed => exact taken.connectDestroyed_life life (settled rfl)
  | sendInLoop message =>
    have popped := taken.life life (by simp) (by simp)
    have sent := doSendInLoop_kept popped.toSteady (taken.established life (by simp)) message answer
    exact sent.mono fun t kept => kept.life popped.controlled
  | shutdownInLoop =>
    have popped := taken.life life (by simp) (by simp)
    simp only [run, safe_pure, shutdownInLoop_core]
    exact popped
  | forceCloseInLoop =>
    have popped := taken.life life (by simp) (by simp)
    simp only [run, forceCloseInLoop]
    split
    next up =>
      exact handleClose_life popped up (served rfl up) (taken.idle life) (by simp [taken.empty])
    next => exact popped
  | startReadInLoop =>
    have popped := taken.life life (by simp) (by simp)
    have up : s.core.Up := up_of_ne (taken.established life (by simp)) (startRead rfl)
    exact (startReadInLoop_kept popped.toSteady up).mono fun t kept => kept.life popped.controlled
  | stopReadInLoop =>
    have popped := taken.life life (by simp) (by simp)
    have stopped := stopReadInLoop_kept popped.toSteady (stopRead rfl) (taken.established life (by simp))
    exact stopped.mono fun t kept => kept.life popped.controlled
  | writeCompleteCallback =>
    have established := taken.established life (by simp)
    exact (taken.life life (by simp) (by simp)).invoke established (by simp [core, taken.empty])
  | highWaterMarkCallback size =>
    have established := taken.established life (by simp)
    exact (taken.life life (by simp) (by simp)).invoke established (by simp [core, taken.empty])

end Functors

theorem next_life (life : Life alive s.core) (answer : WriteResult) (regular : s.Regular (.next answer))
    (served : Action.closes s (.next answer) = true → alive = true)
    (settled : Action.runs s (.next answer) = some .connectDestroyed → alive = false →
      s.state ≠ .kDisconnecting) :
    Safe (fun t => Life alive t.core) (s.next answer) := by
  simp only [next, safe_bind, safe_require]
  intro empty
  refine (s.loop.next_safe.and s.loop.next_phase.yields).mono ?_
  rintro ⟨f, loop⟩ ⟨⟨functors, queued, inFlight⟩, before, phase⟩
  have runs : Action.runs s (.next answer) = some f := by simp [Action.runs, functors]
  have taken : Taken s f loop := ⟨empty, queued, inFlight, before, phase⟩
  refine taken.run_life life answer ?_ ?_ ?_ ?_
  · rintro rfl
    exact regular.startRead runs
  · rintro rfl
    exact regular.stopRead runs
  · rintro rfl up
    apply served
    have isUp : s.state = .kConnected ∨ s.state = .kDisconnecting := up
    simp [Action.closes, functors, isUp]
  · rintro rfl
    exact settled runs

/-! ### Requests -/

theorem callInLoop_life (life : Life alive s.core) (handed : s.handed = true) (request : Request)
    (answer : WriteResult) (regular : s.Regular (.callInLoop request answer)) :
    Safe (fun t => Life alive t.core) (s.callInLoop answer request) := by
  have established : s.state ≠ .kConnecting := by
    have given : s.callbacks ≠ [] := by simpa [Connection.handed] using handed
    exact life.registered.handed given
  cases request with
  | send message =>
    simp only [callInLoop]
    split
    · exact (doSendInLoop_kept (s := s.accept ⟨none, message⟩) life.toSteady established _ answer).mono
        fun t kept => kept.life life.controlled
    · exact life
  | sendBuffer buf =>
    simp only [callInLoop]
    split
    · exact (doSendInLoop_kept (s := s.accept ⟨none, buf.content⟩) life.toSteady established _ answer).mono
        fun t kept => kept.life life.controlled
    · exact life
  | shutdown =>
    simp only [callInLoop]
    split
    next connected =>
      simp only [safe_pure, shutdownInLoop_core]
      exact life.disconnecting (Or.inl connected)
    next => exact life
  | forceClose =>
    simp only [callInLoop]
    split
    next up =>
      have half := life.disconnecting (c := s.core) up
      have queued := queueInLoop_kept (s := { s with state := .kDisconnecting })
        (f := .forceCloseInLoop) half.toSteady (by simp) (by simp)
      exact queued.life half.controlled
    next => exact life
  | startRead =>
    have up := up_of_ne established (regular.startRead rfl)
    exact (startReadInLoop_kept life.toSteady up).mono fun t kept => kept.life life.controlled
  | stopRead =>
    have stopped := stopReadInLoop_kept life.toSteady (regular.stopRead rfl) established
    exact stopped.mono fun t kept => kept.life life.controlled

/-- Another thread is about to push a functor of a request. -/
theorem enter_life (life : Life alive s.core) (t : Tid) {f : ConnFunctor}
    (first : f ≠ .connectEstablished) (last : f ≠ .connectDestroyed) :
    Safe (fun u => Life alive u.core) (s.enter t f) := by
  simp only [enter, EventLoop.enter, safe_bind, safe_require, safe_pure]
  intro _
  have pushes : Pushes s.core { s.loop with inFlight := Function.update s.loop.inFlight t (some f) } := by
    refine ⟨rfl, ⟨[], (List.append_nil _).symm, by simp, by simp⟩, fun u g found => ?_⟩
    by_cases same : u = t
    · subst same
      simp only [Function.update_self, Option.some.injEq] at found
      exact found ▸ ⟨first, last⟩
    · simp only [Function.update_of_ne same] at found
      exact life.queued.inFlight u g found
  exact (life.toSteady.pushes pushes).life life.controlled

theorem call_life (life : Life alive s.core) (t : Tid) (request : Request) :
    Safe (fun u => Life alive u.core) (s.call t request) := by
  cases request with
  | send message =>
    simp only [call]
    split
    · exact enter_life (s := s.accept ⟨some t, message⟩) life t (by simp) (by simp)
    · exact life
  | sendBuffer buf =>
    simp only [call]
    split
    · exact enter_life (s := s.accept ⟨some t, buf.retrieveAllAsString.2⟩) life t (by simp) (by simp)
    · exact life
  | shutdown =>
    simp only [call]
    split
    next connected =>
      exact enter_life (s := { s with state := .kDisconnecting }) (life.disconnecting (Or.inl connected)) t
        (by simp) (by simp)
    next => exact life
  | forceClose =>
    simp only [call]
    split
    next up =>
      exact enter_life (s := { s with state := .kDisconnecting }) (life.disconnecting (c := s.core) up) t
        (by simp) (by simp)
    next => exact life
  | startRead => exact enter_life life t (by simp) (by simp)
  | stopRead => exact enter_life life t (by simp) (by simp)

theorem push_life (life : Life alive s.core) (t : Tid) :
    Safe (fun u => Life alive u.core) (s.step alive (.push t)) := by
  simp only [step, EventLoop.push, safe_bind, safe_given, safe_pure]
  intro f found
  have other := life.queued.inFlight t f found
  have pushes : Pushes s.core { s.loop with
      pendingFunctors := s.loop.pendingFunctors ++ [f]
      inFlight := Function.update s.loop.inFlight t none } := by
    refine ⟨rfl, ⟨[f], ?_, by simpa using other.1.symm, by simpa using other.2.symm⟩, fun u g held => ?_⟩
    · simp [EventLoop.queued, core]
    by_cases same : u = t
    · subst same
      simp at held
    · simp only [Function.update_of_ne same] at held
      exact life.queued.inFlight u g held
  exact (life.toSteady.pushes pushes).life life.controlled

/-! ### The loop -/

/-- The poll returns. What it reports of the channel shows that the kernel has it. -/
theorem poll_life (life : Life alive s.core) (revents : Option Events)
    (regular : s.Regular (.poll revents)) : Safe (fun t => Life alive t.core) (s.poll revents) := by
  simp only [poll, EventLoop.poll, safe_bind, safe_require, safe_pure]
  intro empty polling
  have current : s.current = false := current_of_absent life.controlled (by simp [empty])
  have idle : s.waiting = false := waiting_of_phase life.controlled (by simp [polling])
  have turned : Life alive { s with loop := { s.loop with phase := .handling } }.core :=
    life.turns empty idle ⟨rfl, rfl⟩
  cases revents with
  | none =>
    refine ⟨⟨{ turned.registered with }, { turned.counted with }, { turned.queued with }⟩, ?_⟩
    exact { turned.controlled with
      waiting := by rintro ⟨⟩, removable := fun member => by simp [core, empty] at member }
  | some revents =>
    simp only [safe_bind, safe_require, safe_lift, Epoll.fillActiveChannel, safe_ensure, safe_pure]
    rintro ⟨mask, kernel, _⟩
    -- the kernel has it, so `FillActiveChannels` finds it in `channels_`
    have mirrors : s.poller.Mirrors s.channel := life.registered.mirrors
    have added : s.channel.index = .kAdded := by
      by_contra out
      simp [mirrors.kernel, out] at kernel
    have listed : s.poller.channels s.channel.fd = some s.channel.addr := by
      simp [mirrors.listed, added]
    have up : s.core.Up := by
      apply up_of_ne
      · intro fresh
        have new : s.channel.index = .kNew := life.registered.fresh fresh
        simp [added] at new
      · exact regular.report rfl
    refine ⟨by simp [listed], listed, ?_⟩
    have retouched := turned.registered.retouch
      { s.channel with revents := revents } rfl rfl rfl rfl
    refine ⟨⟨{ retouched with }, { turned.counted with }, { turned.queued with }⟩, ?_⟩
    constructor
    case waiting => exact fun _ => ⟨up, by simp [core, Core.removable, current]⟩
    case stacked => exact life.controlled.stacked
    case current => exact life.controlled.current
    case reads | removable => simp [core, empty]

theorem step_life (life : Life alive s.core) (a : Action) (regular : s.Regular a)
    (served : a.closes s = true → alive = true)
    (settled : a.runs s = some .connectDestroyed → alive = false → s.state ≠ .kDisconnecting) :
    Safe (fun t => Life alive t.core) (s.step alive a) := by
  cases a with
  | callInLoop request answer =>
    simp only [step, safe_bind, safe_require]
    exact fun allowed => callInLoop_life life allowed.1 request answer regular
  | call t request =>
    simp only [step, safe_bind, safe_require]
    exact fun _ => call_life life t request
  | push t => exact push_life life t
  | poll revents => exact poll_life life revents regular
  | dispatch => exact dispatch_life life fun hungUp => served (by simp [Action.closes, hungUp])
  | resume read answer => exact resume_life life read answer regular served
  | swap =>
    simp only [step, safe_bind, safe_require, safe_pure]
    intro ready
    exact s.loop.swap_safe.mono fun loop same => life.turns ready.1 ready.2 same
  | next answer => exact next_life life answer regular served settled
  | finish =>
    simp only [step, EventLoop.finish, safe_bind, safe_require, safe_pure]
    intro empty running
    have idle : s.waiting = false := waiting_of_phase life.controlled (by simp [running.1])
    exact life.turns empty idle ⟨rfl, rfl⟩
  | removeConnectionInLoop =>
    simp only [step, safe_bind, safe_require]
    exact removeQueued_life life
  | retrieveInput len =>
    simp only [step, safe_bind, safe_require, safe_lift, safe_pure]
    intro within
    exact (s.inputBuffer.retrieve_returns len within.2).safe.mono fun _ _ => life

theorem life_start (alive : Bool) (cfg : ConnConfig) : Life alive (start cfg).core := by
  obtain ⟨addr, fd, onBase, phase, writeComplete, highWater, mark⟩ := cfg
  refine ⟨⟨?_, ?_, ?_⟩, ?_⟩
  · refine ⟨⟨rfl, rfl⟩, rfl, fun _ => rfl, ?_, by rintro ⟨⟩, by rintro ⟨⟩, ?_⟩
    · exact fun up => absurd rfl up.ne_connecting
    · cases onBase <;> simp [core, start]
  · constructor <;> cases onBase <;> simp [core, start]
  · constructor
    · intro _
      cases onBase
      · exact Or.inr ⟨rfl, rfl, rfl⟩
      · exact Or.inl ⟨rfl, rfl⟩
    · cases onBase <;> rfl
    · cases onBase <;> rfl
    · cases onBase <;> simp [core, start, EventLoop.start]
  · constructor <;> cases onBase <;> simp [core, start, Stacked]

/-! ### Whole runs -/

/-- A closed connection stays closed, whatever happens. -/
theorem Effect.disconnected {t : Connection} {a : Action} (effect : s.Effect a t) (down : s.state = .kDisconnected) :
    t.state = .kDisconnected := by
  have stays (v u : OutStream) (step : OutStream.Step anything v u) (before : v.state = .kDisconnected) :
      u.state = .kDisconnected := step.disconnected before
  exact effect.steps_anyhow.keeps stays down

theorem step_disconnected (alive : Bool) (s : Connection) (a : Action) (t : Connection)
    (before : s.Mirrored ∧ s.state = .kDisconnected) (taken : s.step alive a = .ok t) :
    t.Mirrored ∧ t.state = .kDisconnected := by
  have effect := step_effect before.1 alive a t taken
  exact ⟨effect.mirrored before.1, effect.disconnected before.2⟩

theorem exec_life (cfg : ConnConfig) (acts : List Action)
    (meets : Run.Meets (step true) Regular (start cfg) acts) :
    Safe (fun s => Life true s.core) (Run.exec (step true) (start cfg) acts) := by
  have preserved (s : Connection) (a : Action) (life : Life true s.core) (regular : s.Regular a) :
      Safe (fun t => Life true t.core) (s.step true a) :=
    step_life life a regular (fun _ => rfl) (by simp)
  exact Run.exec_safe preserved (start cfg) acts (life_start true cfg) meets

/-- In every run of regular steps no assert fails. `connectionCallback_` is called on entering
`kConnected` and on entering `kDisconnected` and at no other time; `HandleClose` and
`closeCallback_` are called at most once; and a connection that is down stays down, with an empty
mask. -/
theorem lifecycle_once (cfg : ConnConfig) (acts : List Action)
    (meets : Run.Meets (step true) Regular (start cfg) acts) :
    (∀ f, Run.exec (step true) (start cfg) acts ≠ .error (.fault f)) ∧
    (∀ s, Run.exec (step true) (start cfg) acts = .ok s →
      s.callbacks = s.state.callbacks ∧ s.closes ≤ 1 ∧ s.closeCallbacks ≤ 1 ∧
        (s.state = .kDisconnected → s.channel.events = kNoneEvent)) ∧
    ∀ first second s t, acts = first ++ second → Run.exec (step true) (start cfg) first = .ok s →
      Run.exec (step true) s second = .ok t → s.state = .kDisconnected →
        t.state = .kDisconnected ∧ t.channel.events = kNoneEvent := by
  have living := exec_life cfg acts meets
  refine ⟨living.no_fault, ?_, ?_⟩
  · intro s reached
    have life := living.result reached
    have closes : s.closes = s.closeCallbacks + s.todo.count .closeCallback := life.counted.closes
    have once : s.closes ≤ 1 := life.counted.once
    exact ⟨life.registered.callbacks, once, by omega, life.registered.down⟩
  · intro first second s t split reached later down
    have mirrored : s.Mirrored :=
      Run.exec_keeps_all (fun s a t kept taken => step_mirrored kept true a t taken) (start cfg) s first
        (mirrored_start cfg) reached
    have stays : t.state = .kDisconnected :=
      (Run.exec_keeps_all (step_disconnected true) s t second ⟨mirrored, down⟩ later).2
    have whole : Run.exec (step true) (start cfg) acts = .ok t := by
      rw [split, Run.exec_append, reached]
      exact later
    have life := living.result whole
    exact ⟨stays, life.registered.down stays⟩

/-- The peer sends and closes; the user shuts down in the message callback and stops reading in
the last callback. -/
def peerCloses : List Action :=
  [.resume (.delivered []) (.count 0), .resume (.delivered []) (.count 0), .swap, .finish,
    .poll (some epollIn), .dispatch, .resume (.delivered [1]) (.count 0), .callInLoop .shutdown (.count 0),
    .resume (.delivered []) (.count 0), .resume (.delivered []) (.count 0), .swap, .finish,
    .poll (some (epollIn ||| epollHup)), .dispatch, .resume (.delivered []) (.count 0),
    .callInLoop .stopRead (.count 0), .resume (.delivered []) (.count 0), .resume (.delivered []) (.count 0),
    .resume (.delivered []) (.count 0), .swap, .next (.count 0), .finish]

theorem lifecycle_once_peerCloses :
    Run.Meets (step true) Regular (start ownLoop) peerCloses ∧
    ∃ s, Run.exec (step true) (start ownLoop) peerCloses = .ok s ∧
      s.callbacks = [.kConnected, .kDisconnected] ∧ s.closeCallbacks = 1 ∧ s.channel.events = kNoneEvent := by
  have meets : Run.Meets (step true) Regular (start ownLoop) peerCloses := by decide +kernel
  have last : (Run.exec (step true) (start ownLoop) peerCloses).toOption.map
      (fun s => (s.state, s.closeCallbacks)) = some (.kDisconnected, 1) := by decide +kernel
  obtain ⟨s, reached, ended⟩ := returned_of_map last
  simp only [Prod.mk.injEq] at ended
  obtain ⟨down, closed⟩ := ended
  obtain ⟨_, facts, _⟩ := lifecycle_once ownLoop peerCloses meets
  obtain ⟨callbacks, _, _, quiet⟩ := facts s reached
  rw [down] at callbacks
  exact ⟨meets, s, reached, callbacks, closed, quiet down⟩

/-- A connection of another loop than the server's. -/
def ioLoop : ConnConfig := ⟨1, 7, false, .polling, true, true, kHighWaterMark⟩

/-- Another thread has asked to start reading; the peer closes before the loop comes to it. -/
def startReadLate : List Action :=
  [.poll none, .swap, .next (.count 0), .resume (.delivered []) (.count 0), .finish, .call 5 .startRead, .push 5,
    .poll (some epollIn), .dispatch, .resume (.delivered []) (.count 0), .resume (.delivered []) (.count 0),
    .resume (.delivered []) (.count 0), .resume (.delivered []) (.count 0), .swap, .next (.count 0), .finish]

/-- The end of the file is reported once more. -/
def endOfFileAgain : List Action :=
  [.poll (some epollIn), .dispatch, .resume (.delivered []) (.count 0)]

/-- `StartReadInLoop` enables reading of a closed connection, and before the server removes it
`HandleClose` is called a second time. -/
theorem startRead_reopens :
    (Run.exec (step true) (start ioLoop) startReadLate).toOption.map
        (fun s => (s.state, s.channel.events, s.closes)) = some (.kDisconnected, kReadEvent, 1) ∧
      Run.exec (step true) (start ioLoop) (startReadLate ++ endOfFileAgain) = .error (.fault .handleClose) := by
  constructor
  · decide +kernel
  · apply error_of_halt?
    decide +kernel

end Rnet.Network.Connection
