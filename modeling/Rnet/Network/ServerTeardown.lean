import Rnet.Network.TcpServer

/-!
# Teardown of a server

`ConnectDestroyed` reaches every connection once, from the removal of a closed connection or from
the destructor of the server, and leaves it down and unknown to the poller. The destructor does
not withstand every state of the connections and of their loops: `Legal` says what it needs. A
functor that is queued runs only if the loop still comes to its queue, and `threadPool_` quits the
loops at the end of `~TcpServer`.
-/
namespace Rnet.Network

open Check Rnet.Network.Core

/-- The destructor is entered while no close of a connection is on its way to the server. -/
theorem Core.Life.destruct {c : Core} (life : Life true c)
    (attached : c.inMap = true → c.state ≠ .kDisconnected) : Life false c := by
  have counted := life.counted
  have stages := counted.stages rfl
  have once := counted.once
  have pending : c.todo.count .closeCallback + c.removals = 0 := by
    by_cases entry : c.inMap = true
    · rw [if_pos entry] at stages
      have closes : c.closes = 0 := by
        by_contra closed
        exact attached entry (counted.closed closed)
      omega
    · -- the one close has been through
      rw [if_neg entry] at stages
      omega
  refine { life with counted := { counted with stages := by simp, gone := fun _ => ?_ } }
  omega

/-- Once `ConnectDestroyed` is through, neither `channels_` nor the kernel has the channel. -/
theorem Core.Life.unlisted {alive : Bool} {c : Core} (life : Life alive c) (destroyed : c.destroys ≠ 0)
    (finished : .remove ∉ c.todo) :
    c.state = .kDisconnected ∧ c.poller.channels c.channel.fd = none ∧ c.poller.kernel c.channel.fd = none := by
  have registered := life.registered
  have down := life.counted.destroyed destroyed
  have new : c.channel.index = .kNew := (registered.index down finished).mpr destroyed
  refine ⟨down, ?_, ?_⟩
  · rw [registered.mirrors.listed, if_pos new]
  · rw [registered.mirrors.kernel, if_neg (by simp [new])]

namespace Connection

variable {s t : Connection} {quit : Bool}

/-! ### The end of a loop -/

/-- `DoPendingFunctors` has swapped the functors out for the last time. -/
def LastBatch (quit : Bool) (c : Connection) : Prop := quit = true ∧ c.loop.phase = .running

instance (quit : Bool) (c : Connection) : Decidable (c.LastBatch quit) := inferInstanceAs (Decidable (_ ∧ _))

/-- `Loop()` has called everything it will call. -/
structure Ended (quit : Bool) (c : Connection) : Prop where
  last : c.LastBatch quit
  functors : c.loop.functors = []
  todo : c.todo = []

instance (quit : Bool) (c : Connection) : Decidable (c.Ended quit) :=
  decidable_of_iff (c.LastBatch quit ∧ c.loop.functors = [] ∧ c.todo = [])
    ⟨fun h => ⟨h.1, h.2.1, h.2.2⟩, fun h => ⟨h.last, h.functors, h.todo⟩⟩

/-- No `ConnectDestroyed` is left behind. -/
def Heard (quit : Bool) (c : Connection) : Prop := c.LastBatch quit → .connectDestroyed ∉ c.loop.pendingFunctors

/-- The step lets the server queue `ConnectDestroyed`. -/
def Action.releases (c : Connection) : Action → Bool
  | .removeConnectionInLoop => true
  | .resume _ _ => c.todo.head? = some .closeCallback && c.onBase
  | _ => false

theorem heard_start (quit : Bool) (cfg : ConnConfig) : (start cfg).Heard quit := by
  intro _
  unfold start
  cases cfg.onBase <;> simp [EventLoop.start]

/-- Something else is queued. -/
theorem Heard.queue (heard : s.Heard quit) (phase : t.loop.phase = s.loop.phase) {more : List ConnFunctor}
    (pending : t.loop.pendingFunctors = s.loop.pendingFunctors ++ more) (other : .connectDestroyed ∉ more) :
    t.Heard quit := by
  intro last
  rw [pending, List.mem_append, not_or]
  exact ⟨heard ⟨last.1, phase ▸ last.2⟩, other⟩

theorem Touches.heard (touches : Touches s t) (heard : s.Heard quit) : t.Heard quit := by
  obtain ⟨notices, loop, only⟩ := touches.loop
  refine heard.queue (by rw [loop]) (by rw [loop]) fun member => ?_
  rcases only _ member with notice | ⟨size, notice⟩ <;> cases notice

theorem Effect.heard {a : Action} (effect : s.Effect a t) (heard : s.Heard quit)
    (inFlight : ∀ u f, s.loop.inFlight u = some f → f ≠ .connectDestroyed)
    (releases : a.releases s = true → ¬ s.LastBatch quit) : t.Heard quit := by
  cases effect with
  | sendNow _ _ _ _ _ _ sends => exact sends.touches.heard heard
  | runSend _ _ _ _ _ sends => exact sends.touches.heard heard
  | shutdownNow => exact (shutdownInLoop_touches { s with state := .kDisconnecting }).heard heard
  | runShutdown _ rest => exact (s.popped rest).shutdownInLoop_touches.heard heard
  | readNow _ _ _ sets => exact sets.touches.heard heard
  | runRead _ _ _ _ _ _ sets => exact sets.touches.heard heard
  | write _ _ _ _ _ _ writes => exact writes.touches.heard heard
  | forceCloseNow => exact heard.queue rfl rfl (by simp)
  | push u f found =>
    refine heard.queue rfl rfl fun member => ?_
    exact inFlight u f found (List.mem_singleton.mp member).symm
  -- the server queues it while another swap is still to come
  | releaseHere _ _ _ top onBase => exact fun last => absurd last (releases (by simp [Action.releases, top, onBase]))
  | release => exact fun last => absurd last (releases rfl)
  | swap => exact fun _ => List.not_mem_nil
  -- outside `DoPendingFunctors` a swap is to come in any case
  | poll | report | finish =>
    rintro ⟨_, running⟩
    cases running
  | ignore | ignoreCall | sendLater | shutdownLater | forceCloseLater | readLater | dispatch | hangUp | leave
  | establish | reportClose | remove | passRead | read | readEnd | passWrite | runEstablished | runDestroyed
  | runRemoved | runForceClose | passForceClose | notify | retrieve => exact heard

theorem connectDestroyed_loop (mirrored : s.Mirrored) : Yields (fun t => t.loop = s.loop) s.connectDestroyed := by
  by_cases connected : s.state = .kConnected
  · rw [connectDestroyed_eq mirrored connected, yields_ok]
    rfl
  · simp only [connectDestroyed]
    rw [if_neg connected]
    refine (removeChannel_yields (s := { s with destroys := s.destroys + 1 }) mirrored).mono ?_
    rintro t rfl
    rfl

theorem reset_heard (mirrored : s.Mirrored) (heard : s.Heard quit) (swaps : s.onBase = false → ¬ s.LastBatch quit) :
    Yields (Heard quit) s.reset := by
  simp only [reset, yields_bind, yields_require]
  intro _
  split
  · simp only [yields_bind, yields_require]
    intro _
    refine (connectDestroyed_loop (s := { s with inMap := false }) mirrored).mono fun t loop => ?_
    exact heard.queue (by rw [loop]) (by rw [loop]; exact (List.append_nil _).symm) List.not_mem_nil
  next away =>
    rw [yields_pure]
    exact fun last => absurd last (swaps (eq_false_of_ne_true away))

/-- Where `ConnectDestroyed` has not been called yet, its turn is still to come. -/
theorem Heard.turn (heard : s.Heard quit) (queued : .connectDestroyed ∈ s.loop.queued) :
    .connectDestroyed ∈ s.loop.functors ∨ (.connectDestroyed ∈ s.loop.pendingFunctors ∧ ¬ s.LastBatch quit) := by
  refine (List.mem_append.mp queued).imp_right fun pending => ⟨pending, fun last => heard last pending⟩

/-! ### The destructor comes to a connection -/

/-- `~TcpServer` comes to the connection. In place, the user may be in a callback of it, but the
rest of its event is not one that has still to be read. -/
theorem reset_life (life : Life false s.core) (settled : s.onBase = true → s.state ≠ .kDisconnecting)
    (removable : s.onBase = true → s.core.removable = true) :
    Safe (fun t => Life false t.core) s.reset := by
  have counted : Counted false { s with inMap := false }.core :=
    { life.counted with stages := by simp }
  simp only [reset, safe_bind, safe_require]
  intro entry
  split
  next onBase =>
    simp only [safe_bind, safe_require]
    intro free
    have established : s.state ≠ .kConnecting := by
      intro fresh
      rcases life.queued.fresh fresh with ⟨_, only⟩ | ⟨away, _⟩
      · -- `NewConnection` has not come to its `ConnectEstablished` yet
        have waits : s.todo = [.connectEstablished] := only
        simp [UserCode, waits] at free
      · exact absurd (onBase.symm.trans away) (by simp)
    have final : s.state = .kConnected ∨ s.state = .kDisconnected := by
      have notHalf := settled onBase
      cases state : s.state <;> simp_all
    have destroys : s.destroys + 1 + s.loop.queued.count .connectDestroyed = 1 := by
      have before : s.destroys + s.loop.queued.count .connectDestroyed = if s.inMap = true then 0 else 1 :=
        life.queued.destroys
      rw [if_pos entry] at before
      omega
    have unqueued : s.loop.queued.count .connectEstablished + s.todo.count .connectEstablished = 0 := by
      have before : s.loop.queued.count .connectEstablished + s.todo.count .connectEstablished =
        if s.state = .kConnecting then 1 else 0 := life.queued.established
      rw [if_neg established] at before
      exact before
    have hungUp : .handleRead ∈ s.todo → s.channel.hungUp = true := by
      intro member
      rcases life.controlled.reads member with ⟨bottom, _⟩ | hungUp
      · have waits : s.todo = [.handleRead, .handleWrite] := bottom
        simp [UserCode, waits] at free
      · exact hungUp
    have due : Due { s with inMap := false } := ⟨destroys, unqueued, life.queued.inFlight⟩
    exact connectDestroyed_life due { life.registered with } { life.controlled with } counted final
      (removable onBase) hungUp
  next => exact queueDestroyed_life life.registered life.controlled life.queued counted entry

end Connection

namespace TcpServer

/-! ### The runs the destructor withstands -/

/-- The connection `i`, if there is one, satisfies `P`. -/
def At (s : TcpServer) (i : Nat) (P : Connection → Prop) : Prop := ∀ c ∈ s.connections[i]?, P c

/-- A step of a connection is regular. After the destructor was entered it does not close the
connection, whose `closeCallback_` is bound to the server, and `ConnectDestroyed` does not find the
connection shutting down. The destructor is entered when no connection of `connections_` is closed
already. It destroys in place only what is not shutting down and, while the loop handles events,
what is `currentActiveChannel_` or not in `activeChannels_` at all. Nobody queues `ConnectDestroyed`
on a loop that does not come to its queue again, and nobody quits a loop that has one on its queue
and would not come to it. -/
def Legal (s : TcpServer) : Action → Prop
  | .newConnection _ => True
  | .connection i a => s.At i fun c => c.Regular a ∧ (a.releases c = true → ¬ c.LastBatch (s.quit i)) ∧
      (s.alive = false →
        a.closes c = false ∧ (a.runs c = some .connectDestroyed → c.state ≠ .kDisconnecting))
  | .destruct => ∀ c ∈ s.connections, c.inMap = true → c.state ≠ .kDisconnected
  | .reset i => s.At i fun c =>
      if c.onBase = true then c.state ≠ .kDisconnecting ∧ c.core.removable = true
      else ¬ c.LastBatch (s.quit i)
  | .quit i => s.At i fun c => c.loop.phase = .running → .connectDestroyed ∉ c.loop.pendingFunctors

instance (s : TcpServer) (i : Nat) (P : Connection → Prop) [DecidablePred P] : Decidable (s.At i P) := by
  unfold At
  infer_instance

instance (s : TcpServer) (a : Action) : Decidable (s.Legal a) := by
  cases a <;> unfold Legal <;> infer_instance

/-- The connection lives as the server does, and its loop will hear of the end. -/
structure Cared (alive quit : Bool) (c : Connection) : Prop where
  life : Life alive c.core
  heard : c.Heard quit

def Tended (s : TcpServer) : Prop := ∀ i c, s.connections[i]? = some c → Cared s.alive (s.quit i) c

theorem update_tended {s : TcpServer} {f : Connection → Comp ConnFault Connection} (tended : s.Tended) (i : Nat)
    (lives : ∀ c ∈ s.connections[i]?, Life s.alive c.core → Safe (fun t => Life s.alive t.core) (f c))
    (hears : ∀ c ∈ s.connections[i]?, Cared s.alive (s.quit i) c → Yields (Connection.Heard (s.quit i)) (f c)) :
    Safe Tended (s.update i f) := by
  simp only [update, safe_bind, safe_given, safe_pure]
  intro c found
  have cared := tended i c found
  refine ((lives c found cared.life).and (hears c found cared)).mono fun after kept j other changed => ?_
  by_cases same : i = j
  · subst same
    rw [List.getElem?_set_self' , found] at changed
    cases changed
    exact ⟨kept.1, kept.2⟩
  · rw [List.getElem?_set_ne same] at changed
    exact tended j other changed

theorem step_tended (s : TcpServer) (a : Action) (tended : s.Tended) (legal : s.Legal a) :
    Safe Tended (s.step a) := by
  cases a with
  | newConnection cfg =>
    simp only [step, safe_bind, safe_require, safe_pure]
    intro _ i c found
    rcases Nat.lt_or_ge i s.connections.length with before | new
    · rw [List.getElem?_append_left before] at found
      exact tended i c found
    · rw [List.getElem?_append_right new] at found
      rw [List.mem_singleton.mp (List.mem_of_getElem? found)]
      exact ⟨Connection.life_start s.alive cfg, Connection.heard_start (s.quit i) cfg⟩
  | connection i a =>
    simp only [step, safe_bind, safe_require]
    intro _
    apply update_tended tended
    · intro c found life
      obtain ⟨regular, _, late⟩ := legal c found
      apply Connection.step_life life a regular
      · -- a close calls the server, which is still there
        intro closes
        by_contra dead
        rw [Bool.not_eq_true] at dead
        simp [(late dead).1] at closes
      · intro runs dead
        exact (late dead).2 runs
    · intro c found cared
      refine (Connection.step_effect cared.life.registered.mirrors s.alive a).mono fun t effect => ?_
      exact effect.heard cared.heard (fun u f flies => (cared.life.queued.inFlight u f flies).2)
        (legal c found).2.1
  | destruct =>
    simp only [step, safe_bind, safe_require, safe_pure]
    intro served i c found
    obtain ⟨life, heard⟩ := tended i c found
    rw [served] at life
    exact ⟨life.destruct (legal c (List.mem_of_getElem? found)), heard⟩
  | reset i =>
    simp only [step, safe_bind, safe_require]
    intro dead
    apply update_tended tended
    · intro c found life
      have ready := legal c found
      rw [dead] at life ⊢
      apply Connection.reset_life life
      · exact fun onBase => ((if_pos onBase).mp ready).1
      · exact fun onBase => ((if_pos onBase).mp ready).2
    · intro c found cared
      have ready := legal c found
      apply Connection.reset_heard cared.life.registered.mirrors cared.heard
      intro away
      simpa [away] using ready
  | quit i =>
    simp only [step, safe_pure]
    intro j c found
    obtain ⟨life, heard⟩ := tended j c found
    refine ⟨life, ?_⟩
    by_cases same : j = i
    · subst same
      exact fun last => legal c found last.2
    · -- the loops of the other connections do not hear of it
      dsimp only
      rw [Function.update_of_ne same]
      exact heard

/-- In every run of legal steps no assert fails, `IsNoneEvent()` in `Channel::Remove` included, and
nothing is called on a server that is gone. `ConnectDestroyed` was called for a connection or is on
the queue of its loop, once, exactly if the server has let go of it; where it is on the queue, it is
in the batch `DoPendingFunctors` is at or another swap is still to come, so that a loop that has come
to its end has called it; and a connection for which it has been called is down and registered
neither in `channels_` nor in the kernel. -/
theorem teardown_legal (acts : List Action) (meets : Run.Meets step Legal start acts) :
    (∀ f, Run.exec step start acts ≠ .error (.fault f)) ∧
    ∀ s, Run.exec step start acts = .ok s → ∀ (i : Nat) (c : Connection), s.connections[i]? = some c →
      (c.destroys + c.loop.queued.count .connectDestroyed = if c.inMap = true then 0 else 1) ∧
      (.connectDestroyed ∈ c.loop.queued → .connectDestroyed ∈ c.loop.functors ∨
        (.connectDestroyed ∈ c.loop.pendingFunctors ∧ ¬ c.LastBatch (s.quit i))) ∧
      (c.inMap = false → c.Ended (s.quit i) → c.destroys = 1) ∧
      (c.destroys ≠ 0 → .remove ∉ c.todo → c.state = .kDisconnected ∧
        c.poller.channels c.channel.fd = none ∧ c.poller.kernel c.channel.fd = none) := by
  have initial : start.Tended := by
    intro i c found
    cases found
  have safe := Run.exec_safe step_tended start acts initial meets
  refine ⟨safe.no_fault, ?_⟩
  intro s reached i c found
  obtain ⟨life, heard⟩ := safe.result reached i c found
  refine ⟨life.queued.destroys, heard.turn, ?_, life.unlisted⟩
  intro gone ended
  have total : c.destroys + c.loop.queued.count .connectDestroyed = if c.inMap = true then 0 else 1 :=
    life.queued.destroys
  have called : c.loop.queued.count .connectDestroyed = 0 := by
    rw [List.count_eq_zero]
    intro queued
    -- the batch is empty, and no other follows
    rcases heard.turn queued with batch | ⟨_, more⟩
    · rw [ended.functors] at batch
      cases batch
    · exact more ended.last
  rw [called, gone] at total
  exact total

/-- Three connections: one on the server's loop, one on another loop that closes and is removed, and
one that has not been established when the destructor runs. -/
def closedAndOpen : List Action :=
  [.newConnection Connection.ownLoop, .newConnection Connection.ioLoop,
    .connection 0 (.resume (.delivered []) (.count 0)), .connection 0 (.resume (.delivered []) (.count 0)),
    -- the peer of the second closes
    .connection 1 (.poll none), .connection 1 .swap, .connection 1 (.next (.count 0)),
    .connection 1 (.resume (.delivered []) (.count 0)), .connection 1 .finish,
    .connection 1 (.poll (some epollIn)), .connection 1 .dispatch,
    .connection 1 (.resume (.delivered []) (.count 0)), .connection 1 (.resume (.delivered []) (.count 0)),
    .connection 1 (.resume (.delivered []) (.count 0)), .connection 1 (.resume (.delivered []) (.count 0)),
    .connection 1 .removeConnectionInLoop, .newConnection ⟨2, 8, false, .polling, true, true, kHighWaterMark⟩,
    -- the destructor, the end of the pool, and what is left to do on the loops
    .destruct, .reset 0, .connection 0 (.resume (.delivered []) (.count 0)),
    .connection 0 (.resume (.delivered []) (.count 0)), .reset 2, .quit 1, .quit 2,
    .connection 1 .swap, .connection 1 (.next (.count 0)),
    .connection 2 (.poll none), .connection 2 .swap, .connection 2 (.next (.count 0)),
    .connection 2 (.resume (.delivered []) (.count 0)), .connection 2 (.next (.count 0)),
    .connection 2 (.resume (.delivered []) (.count 0)), .connection 2 (.resume (.delivered []) (.count 0))]

theorem teardown_legal_closedAndOpen :
    Run.Meets step Legal start closedAndOpen ∧
    ∃ s, Run.exec step start closedAndOpen = .ok s ∧
      s.connections.map (fun c => (c.destroys, c.todo)) = [(1, []), (1, []), (1, [])] ∧
      ∀ (i : Nat) (c : Connection), s.connections[i]? = some c →
        c.state = .kDisconnected ∧ c.poller.kernel c.channel.fd = none := by
  have meets : Run.Meets step Legal start closedAndOpen := by decide +kernel
  have last : (Run.exec step start closedAndOpen).toOption.map
      (fun s => s.connections.map fun c => (c.destroys, c.todo)) = some [(1, []), (1, []), (1, [])] := by
    decide +kernel
  obtain ⟨s, reached, ended⟩ := returned_of_map last
  refine ⟨meets, s, reached, ended, fun i c found => ?_⟩
  have finished : (c.destroys, c.todo) = (1, []) := by
    have among := List.mem_map_of_mem (f := fun c => (c.destroys, c.todo)) (List.mem_of_getElem? found)
    rw [ended] at among
    simpa using among
  rw [Prod.mk.injEq] at finished
  have facts := (teardown_legal closedAndOpen meets).2 s reached i c found
  obtain ⟨down, _, kernel⟩ := facts.2.2.2 (by simp [finished.1]) (by simp [finished.2])
  exact ⟨down, kernel⟩

/-- A connection of the server's loop is shut down, and the server destroyed before the peer has
closed its side. -/
def destructWhileDisconnecting : List Action :=
  [.newConnection Connection.ownLoop, .connection 0 (.resume (.delivered []) (.count 0)),
    .connection 0 (.callInLoop .shutdown (.count 0)), .connection 0 (.resume (.delivered []) (.count 0)),
    .connection 0 .swap, .connection 0 .finish, .destruct, .reset 0]

/-- The loop of a connection has called its last functor and not tested `quit_` yet when the
destructor queues `ConnectDestroyed` and lets the pool go. -/
def destructAfterSwap : List Action :=
  [.newConnection Connection.ioLoop, .connection 0 (.poll none), .connection 0 .swap,
    .connection 0 (.next (.count 0)), .connection 0 (.resume (.delivered []) (.count 0)),
    .destruct, .reset 0, .quit 0]

/-- `ConnectDestroyed` takes a connection in `kDisconnecting` for one that is down: it does not
disable the channel, and the assert of `Channel::Remove` fails. And a loop that the pool quits after
its swap leaves the `ConnectDestroyed` on its queue: the connection stays `kConnected`. -/
theorem teardown_asserts :
    Run.exec step start destructWhileDisconnecting = .error (.fault (.poller .channelRemoveNoneEvent)) ∧
    ∃ s c, Run.exec step start destructAfterSwap = .ok s ∧ s.connections[0]? = some c ∧
      c.Ended (s.quit 0) ∧ c.inMap = false ∧ c.destroys = 0 ∧ c.state = .kConnected := by
  refine ⟨error_of_halt? (by decide +kernel), ?_⟩
  have last : (Run.exec step start destructAfterSwap).toOption.map (fun s => s.connections[0]?.any fun c =>
      decide (c.Ended (s.quit 0) ∧ c.inMap = false ∧ c.destroys = 0 ∧ c.state = .kConnected)) = some true := by
    decide +kernel
  obtain ⟨s, reached, left⟩ := returned_of_map last
  obtain ⟨c, found, facts⟩ := (Option.any_eq_true _ _).mp left
  exact ⟨s, c, reached, found, of_decide_eq_true facts⟩

end TcpServer

end Rnet.Network
