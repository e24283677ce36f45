import Rnet.Network.TcpConnection

/-!
# The life of a connection

`Core` is the part of a connection its life depends on: the state, the channel with its record
in the poller, what the loop thread has to do, and how far the server's removal has come. The
invariant `Life` has four parts. `Registered` says how the channel stands in each state,
`Controlled` what may be on the stack of the loop thread, `Counted` where the one close of a
connection is at any time, and `Queued` where its first and its last functor are.
-/
namespace Rnet.Network

open Check

/-- The part of a connection its life depends on. -/
structure Core where
  state : StateE
  channel : Channel
  poller : Epoll
  loop : EventLoop ConnFunctor
  active : Bool
  waiting : Bool
  current : Bool
  todo : List ConnTask
  onBase : Bool
  inMap : Bool
  removals : Nat
  callbacks : List StateE
  closes : Nat
  closeCallbacks : Nat
  destroys : Nat

def Connection.core (s : Connection) : Core where
  state := s.state
  channel := s.channel
  poller := s.poller
  loop := s.loop
  active := s.active
  waiting := s.waiting
  current := s.current
  todo := s.todo
  onBase := s.onBase
  inMap := s.inMap
  removals := s.removals
  callbacks := s.callbacks
  closes := s.closes
  closeCallbacks := s.closeCallbacks
  destroys := s.destroys

/-- The calls of `connectionCallback_` up to each state: one on entering `kConnected`, one on
entering `kDisconnected`. -/
def StateE.callbacks : StateE → List StateE
  | .kConnecting => []
  | .kConnected | .kDisconnecting => [.kConnected]
  | .kDisconnected => [.kConnected, .kDisconnected]

namespace Core

/-- Established and not closed. -/
def Up (c : Core) : Prop := c.state = .kConnected ∨ c.state = .kDisconnecting

/-- The assert of `EventLoop::RemoveChannel`. -/
def removable (c : Core) : Bool := c.loop.phase ≠ .handling || c.current || !c.active

/-- What is left of `HandleEventWithGuard` lies at the bottom of the stack. -/
def Stacked : List ConnTask → Prop
  | [] => True
  | .handleRead :: rest => rest = [.handleWrite]
  | .handleWrite :: rest => rest = []
  | .remove :: rest => .remove ∉ rest ∧ Stacked rest
  | .user :: rest | .connectEstablished :: rest | .closeCallback :: rest => Stacked rest

structure Registered (c : Core) : Prop where
  mirrors : c.poller.Mirrors c.channel
  callbacks : c.callbacks = c.state.callbacks
  fresh : c.state = .kConnecting → c.channel.index = .kNew
  up : c.Up → c.channel.index ≠ .kNew
  down : c.state = .kDisconnected → c.channel.events = kNoneEvent
  index : c.state = .kDisconnected → .remove ∉ c.todo → (c.channel.index = .kNew ↔ c.destroys ≠ 0)
  removing : .remove ∈ c.todo →
    c.state = .kDisconnected ∧ c.channel.index ≠ .kNew ∧ c.destroys ≠ 0

structure Controlled (c : Core) : Prop where
  waiting : c.waiting = true → c.Up ∧ c.removable = false
  stacked : Stacked c.todo
  current : c.current = true ↔ .handleWrite ∈ c.todo
  /-- The read of an event comes while the connection is up, or after the hang-up of that
  event closed it. -/
  reads : .handleRead ∈ c.todo →
    (c.todo = [.handleRead, .handleWrite] ∧ c.Up) ∨ c.channel.hungUp = true
  removable : .remove ∈ c.todo → c.removable = true

structure Counted (alive : Bool) (c : Core) : Prop where
  closes : c.closes = c.closeCallbacks + c.todo.count .closeCallback
  once : c.closes ≤ 1
  closed : c.closes ≠ 0 → c.state = .kDisconnected
  /-- The close is before its `closeCallback_`, on the queue of the server, or done. -/
  stages : alive = true →
    c.closes = c.todo.count .closeCallback + c.removals + if c.inMap = true then 0 else 1
  gone : alive = false → c.todo.count .closeCallback = 0 ∧ c.removals = 0
  destroyed : c.destroys ≠ 0 → c.state = .kDisconnected

structure Queued (c : Core) : Prop where
  /-- The connection is waiting for its `ConnectEstablished`. -/
  fresh : c.state = .kConnecting →
    (c.onBase = true ∧ c.todo = [.connectEstablished]) ∨
      (c.onBase = false ∧ c.todo = [] ∧ c.loop.queued.head? = some .connectEstablished)
  established : c.loop.queued.count .connectEstablished + c.todo.count .connectEstablished =
    if c.state = .kConnecting then 1 else 0
  /-- `ConnectDestroyed` is queued or was called exactly if the server has let go. -/
  destroys : c.destroys + c.loop.queued.count .connectDestroyed = if c.inMap = true then 0 else 1
  inFlight : ∀ t f, c.loop.inFlight t = some f → f ≠ .connectEstablished ∧ f ≠ .connectDestroyed

/-- The parts that do not look at the stack of the loop thread alone. -/
structure Steady (alive : Bool) (c : Core) : Prop where
  registered : Registered c
  counted : Counted alive c
  queued : Queued c

structure Life (alive : Bool) (c : Core) : Prop extends Steady alive c where
  controlled : Controlled c

/-- The loop thread stands where it stood. -/
structure SameControl (c after : Core) : Prop where
  state : after.state = c.state
  todo : after.todo = c.todo
  waiting : after.waiting = c.waiting
  active : after.active = c.active
  current : after.current = c.current
  phase : after.loop.phase = c.loop.phase
  revents : after.channel.revents = c.channel.revents

/-- What the functions preserve that run to their end without calling the user. -/
structure Kept (alive : Bool) (c after : Core) : Prop where
  steady : Steady alive after
  control : SameControl c after

/-! ### Readings of the invariant -/

variable {alive : Bool} {c : Core}

theorem Up.ne_connecting (up : c.Up) : c.state ≠ .kConnecting := by
  rcases up with h | h <;> simp [h]

theorem Up.ne_disconnected (up : c.Up) : c.state ≠ .kDisconnected := by
  rcases up with h | h <;> simp [h]

/-- The three cases of the state. -/
theorem state_cases (c : Core) : c.state = .kConnecting ∨ c.Up ∨ c.state = .kDisconnected := by
  unfold Up
  cases c.state <;> simp

theorem Counted.up_closes (counted : Counted alive c) (up : c.Up) : c.closes = 0 := by
  by_contra closed
  exact up.ne_disconnected (counted.closed closed)

theorem Counted.up_destroys (counted : Counted alive c) (up : c.Up) : c.destroys = 0 := by
  by_contra destroyed
  exact up.ne_disconnected (counted.destroyed destroyed)

theorem Registered.up_remove (registered : Registered c) (up : c.Up) : .remove ∉ c.todo :=
  fun member => up.ne_disconnected (registered.removing member).1

theorem Registered.up_callbacks (registered : Registered c) (up : c.Up) : c.callbacks = [.kConnected] := by
  rw [registered.callbacks]
  rcases up with connected | disconnecting
  · rw [connected]
    rfl
  · rw [disconnecting]
    rfl

/-- The user has the connection once it is established. -/
theorem Registered.handed (registered : Registered c) (given : c.callbacks ≠ []) :
    c.state ≠ .kConnecting := by
  intro fresh
  rw [registered.callbacks, fresh] at given
  exact given rfl

/-- The loop does not come to a channel that may be removed. -/
theorem Controlled.idle (controlled : Controlled c) (removable : c.removable = true) :
    c.waiting = false := by
  by_contra waits
  rw [Bool.not_eq_false] at waits
  have stuck := (controlled.waiting waits).2
  simp [removable] at stuck

theorem removable_of_current (current : c.current = true) : c.removable = true := by
  simp [removable, current]

theorem removable_of_phase (phase : c.loop.phase ≠ .handling) : c.removable = true := by
  simp [removable, phase]

theorem SameControl.refl (c : Core) : SameControl c c := ⟨rfl, rfl, rfl, rfl, rfl, rfl, rfl⟩

theorem SameControl.trans {d e : Core} (first : SameControl c d) (second : SameControl d e) :
    SameControl c e :=
  ⟨second.state.trans first.state, second.todo.trans first.todo, second.waiting.trans first.waiting,
    second.active.trans first.active, second.current.trans first.current,
    second.phase.trans first.phase, second.revents.trans first.revents⟩

theorem SameControl.up {d : Core} (same : SameControl c d) (up : c.Up) : d.Up := by
  unfold Up
  rw [same.state]
  exact up

theorem SameControl.controlled {d : Core} (same : SameControl c d) (controlled : Controlled c) :
    Controlled d := by
  have removable : d.removable = c.removable := by
    simp only [Core.removable, same.phase, same.current, same.active]
  have hungUp : d.channel.hungUp = c.channel.hungUp := by
    simp only [Channel.hungUp, same.revents]
  constructor
  · rw [same.waiting, removable]
    exact fun waits => ⟨same.up (controlled.waiting waits).1, (controlled.waiting waits).2⟩
  · rw [same.todo]
    exact controlled.stacked
  · rw [same.current, same.todo]
    exact controlled.current
  · rw [same.todo, hungUp]
    exact fun member => (controlled.reads member).imp (fun bottom => ⟨bottom.1, same.up bottom.2⟩) id
  · rw [same.todo, removable]
    exact controlled.removable

theorem Kept.life {d : Core} (kept : Kept alive c d) (controlled : Controlled c) : Life alive d :=
  { kept.steady with controlled := kept.control.controlled controlled }

/-- A close that is still to be reported, or on the queue of the server, is the only one: the
server has the connection. -/
theorem Counted.entry (counted : Counted true c)
    (pending : 0 < c.todo.count .closeCallback + c.removals) :
    c.inMap = true ∧ c.todo.count .closeCallback + c.removals = 1 ∧ c.closes = 1 := by
  have stages := counted.stages rfl
  have once := counted.once
  by_cases entry : c.inMap = true
  · rw [if_pos entry] at stages
    exact ⟨entry, by omega, by omega⟩
  · rw [if_neg entry] at stages
    omega

/-- While the server lives, `ConnectDestroyed` comes after the close. -/
theorem Steady.destroy_down (life : Steady true c) (queued : .connectDestroyed ∈ c.loop.queued) :
    c.state = .kDisconnected := by
  apply life.counted.closed
  have counted : 0 < c.loop.queued.count .connectDestroyed := List.count_pos_iff.mpr queued
  have destroys := life.queued.destroys
  have stages := life.counted.stages rfl
  by_cases entry : c.inMap = true
  · simp only [entry, if_true] at destroys
    omega
  · simp only [entry, Bool.false_eq_true, if_false] at stages
    omega

/-! ### The stack of the loop thread -/

theorem Stacked.tail {t : ConnTask} {rest : List ConnTask} (stacked : Stacked (t :: rest)) :
    Stacked rest := by
  cases t with
  | handleRead =>
    obtain rfl : rest = [.handleWrite] := stacked
    exact rfl
  | handleWrite =>
    obtain rfl : rest = [] := stacked
    trivial
  | remove => exact stacked.2
  | user => exact stacked
  | connectEstablished => exact stacked
  | closeCallback => exact stacked

/-- The connection goes down: a task is left for after the callback, and the callback is entered. -/
theorem Controlled.down (controlled : Controlled c) (idle : c.waiting = false)
    (reads : .handleRead ∈ c.todo → c.channel.hungUp = true) {task : ConnTask}
    (left : task = .closeCallback ∨ task = .remove) (stacked : Stacked (task :: c.todo))
    (removable : .remove ∈ task :: c.todo → c.removable = true) :
    Controlled { c with state := .kDisconnected, todo := .user :: task :: c.todo } := by
  have reading : .handleRead ∈ .user :: task :: c.todo ↔ .handleRead ∈ c.todo := by
    rcases left with rfl | rfl <;> simp
  have writing : .handleWrite ∈ .user :: task :: c.todo ↔ .handleWrite ∈ c.todo := by
    rcases left with rfl | rfl <;> simp
  constructor
  case waiting =>
    intro waits
    exact absurd (idle.symm.trans waits) (by simp)
  case stacked => exact stacked
  case current => exact controlled.current.trans writing.symm
  case reads => exact fun member => Or.inr (reads (reading.mp member))
  case removable => exact fun member => removable ((List.mem_cons.mp member).resolve_left (by simp))

section Pop

variable {t : ConnTask} {rest : List ConnTask} (top : c.todo = t :: rest)
include top

theorem Controlled.pop (controlled : Controlled c) (other : t ≠ .handleWrite) :
    Controlled { c with todo := rest } := by
  have stacked : Stacked (t :: rest) := top ▸ controlled.stacked
  constructor
  · exact controlled.waiting
  · exact stacked.tail
  · rw [controlled.current, top, List.mem_cons, or_iff_right other.symm]
  · intro member
    have before : .handleRead ∈ c.todo := by rw [top]; exact List.mem_cons_of_mem t member
    refine (controlled.reads before).imp_left fun bottom => absurd member ?_
    -- the read was the task popped
    obtain ⟨rfl, rfl⟩ : t = .handleRead ∧ rest = [.handleWrite] := by
      simpa [top] using bottom.1
    simp
  · intro member
    exact controlled.removable (by rw [top]; exact List.mem_cons_of_mem t member)

theorem Registered.pop (registered : Registered c) (other : t ≠ .remove) :
    Registered { c with todo := rest } := by
  have same : .remove ∈ rest ↔ .remove ∈ c.todo := by
    rw [top, List.mem_cons, or_iff_right other.symm]
  refine { registered with index := ?_, removing := ?_ }
  · exact fun down absent => registered.index down fun member => absent (same.mpr member)
  · exact fun member => registered.removing (same.mp member)

theorem Counted.pop (counted : Counted alive c) (other : t ≠ .closeCallback) :
    Counted alive { c with todo := rest } := by
  have same : rest.count .closeCallback = c.todo.count .closeCallback := by
    rw [top, List.count_cons_of_ne other]
  refine { counted with closes := ?_, stages := ?_, gone := ?_ }
  · rw [same]
    exact counted.closes
  · rw [same]
    exact counted.stages
  · rw [same]
    exact counted.gone

/-- A connection with something else on its stack has been established. -/
theorem Queued.top_established (queued : Queued c) (other : t ≠ .connectEstablished) :
    c.state ≠ .kConnecting := by
  intro fresh
  rcases queued.fresh fresh with ⟨_, only⟩ | ⟨_, empty, _⟩
  · simp [top, other] at only
  · simp [top] at empty

theorem Queued.pop (queued : Queued c) (other : t ≠ .connectEstablished) :
    Queued { c with todo := rest } := by
  have begun := queued.top_established top other
  refine { queued with fresh := ?_, established := ?_ }
  · exact fun fresh => absurd fresh begun
  · have established := queued.established
    rw [top, List.count_cons_of_ne other] at established
    exact established

/-- A callback of the user returns, or a part of `HandleEventWithGuard` is passed over. -/
theorem Steady.pop (steady : Steady alive c) (begun : t ≠ .connectEstablished)
    (closing : t ≠ .closeCallback) (removing : t ≠ .remove) : Steady alive { c with todo := rest } :=
  ⟨steady.registered.pop top removing, steady.counted.pop top closing, steady.queued.pop top begun⟩

end Pop

/-- A callback of the user is entered. -/
theorem Life.invoke (life : Life alive c) (established : c.state ≠ .kConnecting)
    (reads : .handleRead ∈ c.todo → c.channel.hungUp = true) :
    Life alive { c with todo := .user :: c.todo } := by
  refine ⟨⟨?_, { life.counted with }, ?_⟩, ?_⟩
  · have registered := life.registered
    refine { registered with index := ?_, removing := ?_ }
    · exact fun down absent => registered.index down fun member => absent (List.mem_cons_of_mem _ member)
    · exact fun member => registered.removing (by simpa using member)
  · exact { life.queued with fresh := fun fresh => absurd fresh established }
  · have controlled := life.controlled
    refine { controlled with stacked := controlled.stacked, current := ?_, reads := ?_, removable := ?_ }
    · simpa using controlled.current
    · exact fun member => Or.inr (reads (by simpa using member))
    · exact fun member => controlled.removable (by simpa using member)

/-- The poller does not look at the other fields of a channel. -/
theorem Registered.retouch (registered : Registered c) (channel : Channel)
    (addr : channel.addr = c.channel.addr) (fd : channel.fd = c.channel.fd)
    (events : channel.events = c.channel.events) (index : channel.index = c.channel.index) :
    Registered { c with channel := channel } := by
  obtain ⟨mirrors, callbacks, fresh, up, down, out, removing⟩ := registered
  refine ⟨⟨?_, ?_⟩, callbacks, ?_, ?_, ?_, ?_, ?_⟩
  · rw [fd, addr, index]
    exact mirrors.listed
  · rw [fd, addr, index, events]
    exact mirrors.kernel
  · rw [index]
    exact fresh
  · rw [index]
    exact up
  · rw [events]
    exact down
  · rw [index]
    exact out
  · rw [index]
    exact removing

/-! ### The queue of the loop -/

/-- Only functors that neither begin nor end the life are pushed. -/
structure Pushes (c : Core) (loop : EventLoop ConnFunctor) : Prop where
  phase : loop.phase = c.loop.phase
  queued : ∃ extra, loop.queued = c.loop.queued ++ extra ∧ .connectEstablished ∉ extra ∧
    .connectDestroyed ∉ extra
  inFlight : ∀ t f, loop.inFlight t = some f → f ≠ .connectEstablished ∧ f ≠ .connectDestroyed

theorem Steady.pushes {loop : EventLoop ConnFunctor} (steady : Steady alive c)
    (pushes : Pushes c loop) : Kept alive c { c with loop := loop } := by
  obtain ⟨extra, queued, first, last⟩ := pushes.queued
  refine ⟨⟨{ steady.registered with }, { steady.counted with }, ?_⟩,
    ⟨rfl, rfl, rfl, rfl, rfl, pushes.phase, rfl⟩⟩
  constructor
  · intro fresh
    rcases steady.queued.fresh fresh with onLoop | ⟨away, idle, head⟩
    · exact Or.inl onLoop
    · refine Or.inr ⟨away, idle, ?_⟩
      rw [queued, List.head?_append, head]
      rfl
  · rw [queued, List.count_append, List.count_eq_zero_of_not_mem first, Nat.add_zero]
    exact steady.queued.established
  · rw [queued, List.count_append, List.count_eq_zero_of_not_mem last, Nat.add_zero]
    exact steady.queued.destroys
  · exact pushes.inFlight

theorem Queued.queueInLoop (queued : Queued c) {f : ConnFunctor} (first : f ≠ .connectEstablished)
    (last : f ≠ .connectDestroyed) : Pushes c (c.loop.queueInLoop f) := by
  refine ⟨rfl, ⟨[f], c.loop.queueInLoop_queued f, ?_, ?_⟩, queued.inFlight⟩
  · simpa using first.symm
  · simpa using last.symm

/-- With nothing of the connection on its stack, the loop thread may turn to something else. -/
theorem Controlled.turn (controlled : Controlled c) (empty : c.todo = []) (ready : c.waiting = false)
    (loop : EventLoop ConnFunctor) : Controlled { c with loop := loop } := by
  refine { controlled with waiting := fun waits => ?_, removable := fun member => ?_ }
  · simp [ready] at waits
  · simp [empty] at member

/-- The loop goes on to its next phase. -/
theorem Life.turns {loop : EventLoop ConnFunctor} (life : Life alive c) (idle : c.todo = [])
    (ready : c.waiting = false) (same : c.loop.SameQueue loop) : Life alive { c with loop := loop } := by
  refine ⟨⟨{ life.registered with }, { life.counted with }, ?_⟩, life.controlled.turn idle ready loop⟩
  constructor
  · rw [same.queued]
    exact life.queued.fresh
  · rw [same.queued]
    exact life.queued.established
  · rw [same.queued]
    exact life.queued.destroys
  · rw [same.inFlight]
    exact life.queued.inFlight

/-- `Shutdown` and `ForceClose` only set the state. -/
theorem Life.disconnecting (life : Life alive c) (up : c.Up) :
    Life alive { c with state := .kDisconnecting } := by
  have closes := life.counted.up_closes up
  have destroys := life.counted.up_destroys up
  refine ⟨⟨?_, ?_, ?_⟩, ?_⟩
  · have registered := life.registered
    refine { registered with
      callbacks := ?_, fresh := nofun, up := fun _ => registered.up up, down := nofun, index := nofun,
      removing := fun member => absurd member (registered.up_remove up) }
    rw [registered.callbacks]
    rcases up with h | h
    · rw [h]
      rfl
    · rw [h]
  · exact { life.counted with
      closed := fun closed => absurd closes closed, destroyed := fun done => absurd destroys done }
  · have established := life.queued.established
    rw [if_neg up.ne_connecting] at established
    exact { life.queued with fresh := nofun, established := established }
  · have controlled := life.controlled
    refine { controlled with waiting := fun waits => ?_, reads := fun member => ?_ }
    · exact ⟨Or.inr rfl, (controlled.waiting waits).2⟩
    · exact (controlled.reads member).imp_left fun bottom => ⟨bottom.1, Or.inr rfl⟩

end Core

end Rnet.Network
