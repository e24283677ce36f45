import Rnet.Network.ConnectionEffect
import Rnet.Network.ConnectionLife

/-!
# The functions of a connection keep its life in order

From the invariant and what a function needs, no assert in it fails and its result satisfies the
invariant again. What only sends, writes or chooses to read is settled at once, by what it leaves
alone; the functions that open, close and remove take one lemma each.
-/
namespace Rnet.Network.Connection

open Check File Rnet.Network.Core

variable {alive : Bool} {s t : Connection}

/-! ### Changing the mask -/

/-- `Update()` leaves the channel with the poller. -/
theorem setMask_known (s : Connection) (events : Events) : (s.setMask events).channel.index ≠ .kNew := by
  simp only [setMask, Channel.afterUpdate]
  split <;> simp

/-- A channel the poller knows may change its mask, which stays empty after the close. -/
theorem setMask_kept (steady : Steady alive s.core) (known : s.channel.index ≠ .kNew) (events : Events)
    (quiet : s.state = .kDisconnected → events = kNoneEvent) :
    Kept alive s.core (s.setMask events).core := by
  have registered := steady.registered
  have still := s.setMask_known events
  refine ⟨⟨?_, { steady.counted with }, { steady.queued with }⟩, ⟨rfl, rfl, rfl, rfl, rfl, rfl, rfl⟩⟩
  constructor
  · exact Epoll.afterUpdate_mirrors _ _
  · exact registered.callbacks
  · exact fun fresh => absurd (registered.fresh fresh) known
  · exact fun _ => still
  · exact quiet
  · intro down absent
    -- the poller knew the channel before, and knows it now
    have first := (registered.index down absent).not.mp known
    exact ⟨fun gone => absurd gone still, fun destroyed => absurd destroyed first⟩
  · intro member
    obtain ⟨down, _, destroyed⟩ := registered.removing member
    exact ⟨down, still, destroyed⟩

theorem setMask_up (steady : Steady alive s.core) (up : s.core.Up) (events : Events) :
    Kept alive s.core (s.setMask events).core :=
  setMask_kept steady (steady.registered.up up) events fun down => absurd down up.ne_disconnected

/-- Sending, writing and reading do not touch the life of a connection that is up. -/
theorem Touches.kept (touches : Touches s t) (steady : Steady alive s.core) (up : s.core.Up) :
    Kept alive s.core t.core := by
  obtain ⟨frame, mask, notices, loop, only⟩ := touches
  have masked : Kept alive s.core { s.core with poller := t.poller, channel := t.channel } := by
    rcases mask with ⟨poller, channel⟩ | ⟨events, poller, channel⟩
    · rw [poller, channel]
      exact ⟨steady, .refl _⟩
    · rw [poller, channel]
      exact setMask_up steady up events
  have pushes : Pushes { s.core with poller := t.poller, channel := t.channel } t.loop := by
    rw [loop]
    refine ⟨rfl, ⟨notices, (List.append_assoc ..).symm, fun member => ?_, fun member => ?_⟩, steady.queued.inFlight⟩
    · rcases only _ member with notice | ⟨size, notice⟩ <;> cases notice
    · rcases only _ member with notice | ⟨size, notice⟩ <;> cases notice
  have pushed := masked.steady.pushes pushes
  have same : t.core = { s.core with poller := t.poller, channel := t.channel, loop := t.loop } :=
    congrArg core frame
  rw [same]
  exact ⟨pushed.steady, masked.control.trans pushed.control⟩

theorem startReadInLoop_kept (steady : Steady alive s.core) (up : s.core.Up) :
    Safe (fun t => Kept alive s.core t.core) s.startReadInLoop :=
  (startReadInLoop_returns steady.registered.mirrors).safe.mono fun _ sets => sets.touches.kept steady up

/-- `StopReadInLoop` may come after the close, but not when the channel has been removed. -/
theorem stopReadInLoop_kept (steady : Steady alive s.core)
    (known : s.reading = true → s.channel.index ≠ .kNew)
    (established : s.state ≠ .kConnecting) : Safe (fun t => Kept alive s.core t.core) s.stopReadInLoop := by
  unfold stopReadInLoop
  split
  next asked =>
    have listed : s.channel.index ≠ .kNew := by
      rcases state_cases s.core with fresh | up | down
      · exact absurd fresh established
      · exact steady.registered.up up
      · have quiet : s.channel.events = kNoneEvent := steady.registered.down down
        apply known
        simpa [Channel.isReading, quiet, kNoneEvent] using asked
    rw [Channel.disableReading, update_eq steady.registered.mirrors]
    refine setMask_kept steady listed _ fun down => ?_
    have quiet : s.channel.events = kNoneEvent := steady.registered.down down
    rw [quiet]
    rfl
  next => exact ⟨steady, .refl _⟩

/-- A closed channel asks for nothing. -/
theorem isWriting_down (registered : Registered s.core) (down : s.state = .kDisconnected) :
    s.channel.isWriting = false := by
  have quiet : s.channel.events = kNoneEvent := registered.down down
  rw [Channel.isWriting, quiet]
  rfl

/-! ### Sending and writing -/

theorem queueInLoop_kept (steady : Steady alive s.core) {f : ConnFunctor}
    (first : f ≠ .connectEstablished) (last : f ≠ .connectDestroyed) :
    Kept alive s.core (s.queueInLoop f).core :=
  steady.pushes (steady.queued.queueInLoop first last)

theorem up_of_ne (established : s.state ≠ .kConnecting) (notDown : s.state ≠ .kDisconnected) :
    s.core.Up := by
  rcases state_cases s.core with fresh | up | down
  · exact absurd fresh established
  · exact up
  · exact absurd down notDown

theorem doSendInLoop_kept (steady : Steady alive s.core) (established : s.state ≠ .kConnecting)
    (message : Message) (answer : WriteResult) :
    Safe (fun t => Kept alive s.core t.core) (s.doSendInLoop message answer) := by
  by_cases down : s.state = .kDisconnected
  · rw [doSendInLoop, if_pos down]
    exact ⟨steady, .refl _⟩
  · have sent := doSendInLoop_sends steady.registered.mirrors message answer
    exact sent.mono fun t sends => sends.touches.kept steady (up_of_ne established down)

theorem shutdownInLoop_core (s : Connection) : s.shutdownInLoop.core = s.core := by
  unfold shutdownInLoop
  split <;> rfl

theorem handleWrite_kept (steady : Steady alive s.core) (established : s.state ≠ .kConnecting)
    (answer : WriteResult) : Safe (fun t => Kept alive s.core t.core) (s.handleWrite answer) := by
  by_cases down : s.state = .kDisconnected
  · unfold handleWrite
    rw [isWriting_down steady.registered down]
    exact ⟨steady, .refl _⟩
  · have written := handleWrite_writes steady.registered.mirrors answer
    exact written.mono fun t writes => writes.touches.kept steady (up_of_ne established down)

/-! ### Opening and closing -/

theorem core_opened (s : Connection) : s.opened.core =
    let tied : Connection := { s with channel := { s.channel with tied := true } }
    { s.core with
      state := .kConnected
      channel := (tied.setMask (s.channel.events ||| kReadEvent)).channel
      poller := (tied.setMask (s.channel.events ||| kReadEvent)).poller
      todo := .user :: s.todo
      callbacks := s.callbacks ++ [.kConnected] } := rfl

theorem core_closed (s : Connection) : s.closed.core =
    { s.core with
      state := .kDisconnected
      channel := (s.setMask kNoneEvent).channel
      poller := (s.setMask kNoneEvent).poller
      todo := .user :: .closeCallback :: s.todo
      callbacks := s.callbacks ++ [.kDisconnected]
      closes := s.closes + 1 } := rfl

theorem core_destroyed (s : Connection) : s.destroyed.core =
    { s.core with
      state := .kDisconnected
      channel := (s.setMask kNoneEvent).channel
      poller := (s.setMask kNoneEvent).poller
      todo := .user :: .remove :: s.todo
      callbacks := s.callbacks ++ [.kDisconnected]
      destroys := s.destroys + 1 } := rfl

/-- `HandleClose`, called while the server lives. -/
theorem handleClose_life (life : Life alive s.core) (up : s.core.Up) (served : alive = true)
    (idle : s.waiting = false)
    (reads : .handleRead ∈ s.todo → s.channel.hungUp = true) :
    Safe (fun t => Life alive t.core) s.handleClose := by
  have registered := life.registered
  have closes : s.closes = 0 := life.counted.up_closes up
  have destroys : s.destroys = 0 := life.counted.up_destroys up
  have absent : .remove ∉ s.todo := registered.up_remove up
  rw [handleClose_eq registered.mirrors up, safe_ok, core_closed]
  refine ⟨⟨?registered, ?counted, ?queued⟩, ?controlled⟩
  case registered =>
    constructor
    case mirrors => exact Epoll.afterUpdate_mirrors _ _
    case callbacks =>
      have before : s.callbacks = [.kConnected] := registered.up_callbacks up
      rw [before]
      rfl
    case fresh => rintro ⟨⟩
    case up => exact fun again => absurd rfl again.ne_disconnected
    case down => exact fun _ => rfl
    case index =>
      intro _ _
      -- a mask that was empty before has put the channel back into the kernel
      exact ⟨fun gone => absurd gone (s.setMask_known _), fun destroyed => absurd destroys destroyed⟩
    case removing =>
      intro member
      simp [absent] at member
  case counted =>
    -- the close that has begun is the first one
    constructor
    case closes =>
      have before : s.closes = s.closeCallbacks + s.todo.count .closeCallback := life.counted.closes
      change s.closes + 1 = s.closeCallbacks + List.count .closeCallback (.closeCallback :: s.todo)
      rw [List.count_cons_self]
      omega
    case once => simp [closes]
    case closed => exact fun _ => rfl
    case stages =>
      intro _
      have before : s.closes = s.todo.count .closeCallback + s.removals + if s.inMap = true then 0 else 1 :=
        life.counted.stages served
      change s.closes + 1 = List.count .closeCallback (.closeCallback :: s.todo) + s.removals +
        if s.inMap = true then 0 else 1
      rw [List.count_cons_self]
      omega
    case gone =>
      intro dead
      simp [served] at dead
    case destroyed => exact fun _ => rfl
  case queued =>
    have established := life.queued.established
    rw [if_neg up.ne_connecting] at established
    exact ⟨by rintro ⟨⟩, established, life.queued.destroys, life.queued.inFlight⟩
  case controlled =>
    exact { life.controlled.down idle reads (Or.inl rfl) life.controlled.stacked
      fun member => absurd member (by simp [core, absent]) with }

/-- `ConnectEstablished`, which is no longer queued when it is called. -/
theorem connectEstablished_life (registered : Registered s.core) (counted : Counted alive s.core)
    (fresh : s.state = .kConnecting) (empty : s.todo = []) (idle : s.waiting = false)
    (current : s.current = false)
    (taken : .connectEstablished ∉ s.loop.queued)
    (destroys : s.destroys + s.loop.queued.count .connectDestroyed = if s.inMap = true then 0 else 1)
    (inFlight : ∀ t f, s.loop.inFlight t = some f → f ≠ .connectEstablished ∧ f ≠ .connectDestroyed) :
    Safe (fun t => Life alive t.core) s.connectEstablished := by
  have notDown : s.state ≠ .kDisconnected := by simp [fresh]
  have closes : s.closes = 0 := by
    by_contra closed
    exact notDown (counted.closed closed)
  have destroyed : s.destroys = 0 := by
    by_contra done
    exact notDown (counted.destroyed done)
  rw [connectEstablished_eq registered.mirrors fresh, safe_ok, core_opened]
  simp only [empty]
  refine ⟨⟨?registered, ?counted, ?queued⟩, ?controlled⟩
  case registered =>
    constructor
    case mirrors => exact Epoll.afterUpdate_mirrors _ _
    case callbacks =>
      have called : s.callbacks = s.state.callbacks := registered.callbacks
      rw [called, fresh]
      rfl
    case up => exact fun _ => setMask_known _ _
    case removing =>
      intro member
      simp at member
    case fresh | down | index => rintro ⟨⟩
  case counted =>
    -- nothing of the end of a connection has happened yet
    have begun : s.core = { s.core with todo := [] } := by rw [← empty]; rfl
    rw [begun] at counted
    exact { counted with
      closed := fun closed => absurd closes closed
      destroyed := fun done => absurd destroyed done }
  case queued =>
    constructor
    case fresh => rintro ⟨⟩
    case established => simp [core, List.count_eq_zero_of_not_mem taken]
    case destroys => exact destroys
    case inFlight => exact inFlight
  case controlled =>
    constructor
    case waiting =>
      intro waits
      simp [core, idle] at waits
    case stacked => trivial
    case current => simp [core, current]
    case reads | removable =>
      intro member
      simp at member

/-! ### Removing -/

/-- A closed connection whose channel has been taken from the poller. -/
theorem unlisted_registered (callbacks : s.callbacks = s.state.callbacks)
    (quiet : s.channel.events = kNoneEvent) (down : s.state = .kDisconnected)
    (destroys : s.destroys ≠ 0) (absent : .remove ∉ s.todo) : Registered s.unlisted.core := by
  constructor
  · exact Epoll.afterRemove_mirrors _ _
  · exact callbacks
  · intro fresh
    exact absurd (down.symm.trans fresh) (by simp)
  · intro up
    exact absurd down up.ne_disconnected
  · exact fun _ => quiet
  · intro _ _
    exact ⟨fun _ => destroys, fun _ => rfl⟩
  · exact fun member => absurd member absent

/-- What `ConnectDestroyed` finds where it is called from the queue or by the server: it is no longer
queued, and it was never called. -/
structure Due (s : Connection) : Prop where
  destroys : s.destroys + 1 + s.loop.queued.count .connectDestroyed = if s.inMap = true then 0 else 1
  established : s.loop.queued.count .connectEstablished + s.todo.count .connectEstablished = 0
  inFlight : ∀ t f, s.loop.inFlight t = some f → f ≠ .connectEstablished ∧ f ≠ .connectDestroyed

theorem Due.first (due : s.Due) : s.destroys = 0 := by
  have destroys := due.destroys
  split at destroys <;> omega

theorem Due.absent (due : s.Due) (registered : Registered s.core) : .remove ∉ s.todo :=
  fun member => (registered.removing member).2.2 due.first

/-- A connection that is up is closed first; the channel is removed after the callback. -/
theorem destroyConnected_life (due : s.Due) (registered : Registered s.core) (controlled : Controlled s.core)
    (counted : Counted alive s.core) (connected : s.state = .kConnected) (removable : s.core.removable = true)
    (reads : .handleRead ∈ s.todo → s.channel.hungUp = true) :
    Life alive s.destroyed.core := by
  rw [core_destroyed]
  refine ⟨⟨?registered, ?counted, ?queued⟩, ?controlled⟩
  case registered =>
    constructor
    case mirrors => exact Epoll.afterUpdate_mirrors _ _
    case callbacks =>
      have before : s.callbacks = [.kConnected] := registered.up_callbacks (Or.inl connected)
      rw [before]
      rfl
    case fresh => rintro ⟨⟩
    case up => exact fun again => absurd rfl again.ne_disconnected
    case down => exact fun _ => rfl
    case index =>
      intro _ unlisted
      simp at unlisted
    case removing => exact fun _ => ⟨rfl, s.setMask_known _, Nat.succ_ne_zero _⟩
  case counted => exact { counted with closed := fun _ => rfl, destroyed := fun _ => rfl }
  case queued => exact ⟨by rintro ⟨⟩, due.established, due.destroys, due.inFlight⟩
  case controlled =>
    exact { controlled.down (controlled.idle removable) reads (Or.inr rfl)
      ⟨due.absent registered, controlled.stacked⟩ fun _ => removable with }

/-- The channel of a closed connection is removed at once. -/
theorem destroyClosed_life (due : s.Due) (registered : Registered s.core) (controlled : Controlled s.core)
    (counted : Counted alive s.core) (down : s.state = .kDisconnected) :
    Life alive { s with destroys := s.destroys + 1 }.unlisted.core := by
  refine ⟨⟨?registered, ?counted, ?queued⟩, { controlled with }⟩
  case registered =>
    exact unlisted_registered (s := { s with destroys := s.destroys + 1 }) registered.callbacks
      (registered.down down) down (Nat.succ_ne_zero _) (due.absent registered)
  case counted => exact { counted with destroyed := fun _ => down }
  case queued =>
    constructor
    case fresh =>
      intro fresh
      exact absurd (down.symm.trans fresh) (by simp)
    case established =>
      have past : s.state ≠ .kConnecting := by simp [down]
      change _ = if s.state = .kConnecting then 1 else 0
      rw [if_neg past]
      exact due.established
    case destroys => exact due.destroys
    case inFlight => exact due.inFlight

/-- A connection that is shutting down is not let through `ConnectDestroyed`: its channel still asks
for events. -/
theorem connectDestroyed_life (due : s.Due) (registered : Registered s.core) (controlled : Controlled s.core)
    (counted : Counted alive s.core)
    (settled : s.state = .kConnected ∨ s.state = .kDisconnected) (removable : s.core.removable = true)
    (reads : .handleRead ∈ s.todo → s.channel.hungUp = true) :
    Safe (fun t => Life alive t.core) s.connectDestroyed := by
  rcases settled with connected | down
  · rw [connectDestroyed_eq registered.mirrors connected, safe_ok]
    exact destroyConnected_life due registered controlled counted connected removable reads
  · rw [connectDestroyed, if_neg (by simp [down])]
    -- it was never destroyed, so the poller still knows the channel
    have known : s.channel.index ≠ .kNew :=
      fun gone => (registered.index down (due.absent registered)).mp gone due.first
    have removed := removeChannel_eq (s := { s with destroys := s.destroys + 1 })
      registered.mirrors known (registered.down down) removable
    rw [removed]
    exact destroyClosed_life due registered controlled counted down

/-! ### The server's part -/

/-- The server lets go of a connection it still has, and queues its `ConnectDestroyed`. -/
theorem queueDestroyed_life (registered : Registered s.core) (controlled : Controlled s.core)
    (queued : Queued s.core) (counted : Counted alive { s with inMap := false }.core)
    (entry : s.inMap = true) :
    Life alive ({ s with inMap := false }.queueInLoop .connectDestroyed).core := by
  have undestroyed : s.destroys + s.loop.queued.count .connectDestroyed = 0 := by
    have destroys : s.destroys + s.loop.queued.count .connectDestroyed = if s.inMap = true then 0 else 1 :=
      queued.destroys
    rw [if_pos entry] at destroys
    exact destroys
  have extended := s.loop.queueInLoop_queued .connectDestroyed
  refine ⟨⟨{ registered with }, { counted with }, ?_⟩, { controlled with }⟩
  constructor
  · intro fresh
    rcases queued.fresh fresh with onLoop | ⟨away, empty, head⟩
    · exact Or.inl onLoop
    · -- `ConnectEstablished` comes before it
      refine Or.inr ⟨away, empty, ?_⟩
      change (s.loop.queueInLoop .connectDestroyed).queued.head? = _
      change s.loop.queued.head? = _ at head
      rw [extended, List.head?_append, head]
      rfl
  · change (s.loop.queueInLoop .connectDestroyed).queued.count _ + _ = _
    rw [extended, List.count_append]
    exact queued.established
  · change s.destroys + (s.loop.queueInLoop .connectDestroyed).queued.count _ = 1
    rw [extended, List.count_append, List.count_singleton_self]
    omega
  · exact queued.inFlight

theorem removeConnectionInLoop_life (registered : Registered s.core) (controlled : Controlled s.core)
    (queued : Queued s.core) (counted : Counted true { s with inMap := false }.core)
    (entry : s.inMap = true) :
    Safe (fun t => Life true t.core) (s.removeConnectionInLoop true) := by
  simp only [removeConnectionInLoop, safe_bind, safe_ensure, safe_pure]
  exact ⟨trivial, entry, queueDestroyed_life registered controlled queued counted entry⟩

/-- `closeCallback_`, taken from the stack. -/
theorem removeConnection_life {rest : List ConnTask} (life : Life alive s.core)
    (top : s.todo = .closeCallback :: rest) :
    Safe (fun t => Life alive t.core) ({ s with todo := rest }.removeConnection alive) := by
  have counted := life.counted
  have top' : s.core.todo = .closeCallback :: rest := top
  have registered := life.registered.pop top' (by simp)
  have controlled := life.controlled.pop top' (by simp)
  have queued := life.queued.pop top' (by simp)
  have more : s.todo.count .closeCallback = rest.count .closeCallback + 1 := by
    rw [top, List.count_cons_self]
  cases alive with
  | false =>
    have gone : s.todo.count .closeCallback = 0 := (counted.gone rfl).1
    omega
  | true =>
    have closes : s.closes = s.closeCallbacks + s.todo.count .closeCallback := counted.closes
    have last := Counted.entry counted (by change 0 < s.todo.count .closeCallback + s.removals; omega)
    obtain ⟨entry, one, closed⟩ : s.inMap = true ∧
      s.todo.count .closeCallback + s.removals = 1 ∧ s.closes = 1 := last
    simp only [removeConnection, safe_bind, safe_ensure]
    refine ⟨trivial, ?_⟩
    split
    · refine removeConnectionInLoop_life
        (s := { s with todo := rest, closeCallbacks := s.closeCallbacks + 1 })
        { registered with } { controlled with } { queued with } ?_ entry
      refine { counted with closes := ?_, stages := fun _ => ?_, gone := by simp }
      · change s.closes = s.closeCallbacks + 1 + rest.count .closeCallback
        omega
      · change s.closes = rest.count .closeCallback + s.removals + 1
        omega
    · refine ⟨⟨{ registered with }, ?_, { queued with }⟩, { controlled with }⟩
      refine { counted with closes := ?_, stages := fun _ => ?_, gone := by simp }
      · change s.closes = s.closeCallbacks + 1 + rest.count .closeCallback
        omega
      · change s.closes = rest.count .closeCallback + (s.removals + 1) + if s.inMap = true then 0 else 1
        rw [if_pos entry]
        omega

/-- A functor `RemoveConnectionInLoop` runs on the loop of the server. -/
theorem removeQueued_life (life : Life alive s.core) (pending : 0 < s.removals) :
    Safe (fun t => Life alive t.core)
      ({ s with removals := s.removals - 1 }.removeConnectionInLoop alive) := by
  have counted := life.counted
  cases alive with
  | false =>
    have gone : s.removals = 0 := (counted.gone rfl).2
    omega
  | true =>
    have last := Counted.entry counted (by change 0 < s.todo.count .closeCallback + s.removals; omega)
    obtain ⟨entry, one, closed⟩ : s.inMap = true ∧
      s.todo.count .closeCallback + s.removals = 1 ∧ s.closes = 1 := last
    refine removeConnectionInLoop_life (s := { s with removals := s.removals - 1 })
      { life.registered with } { life.controlled with } { life.queued with } ?_ entry
    refine { counted with stages := fun _ => ?_, gone := by simp }
    change s.closes = s.todo.count .closeCallback + (s.removals - 1) + 1
    omega

end Rnet.Network.Connection
