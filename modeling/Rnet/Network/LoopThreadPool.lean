import Rnet.Lib.Blame
import Rnet.Network.RegistryConsistency

/-!
# The loops of the thread pool

`rnet::network::EventLoopThreadPool` hands out its loops in turn. Its results here are about every
run of its functions: it never reads outside `loops_`, and the loops it has handed out are the
loops of the pool, one after another, over and over. `Registry` asks such a pool for the loop of
each connection; so the connections of a server are spread evenly, whatever else happens.

All functions but `SetThreadNum` assert that they are called on the thread of `baseLoop_`. There is
one thread here, that one: a call from elsewhere aborts the program and is not modelled.
-/
namespace Rnet.Network

open Check

inductive PoolFault where
  /-- `assert(!started_)` of `Start`. -/
  | startedTwice
  /-- `assert(started_)`. -/
  | notStarted
  /-- A read outside `loops_`. -/
  | outOfRange
  deriving DecidableEq, Repr

/-- `ι` is the type of the loops. -/
structure EventLoopThreadPool (ι : Type) where
  baseLoop : ι
  started : Bool
  numThreads : Nat
  next : Nat
  loops : List ι
  deriving DecidableEq, Repr

namespace EventLoopThreadPool

variable {ι : Type}

def new (baseLoop : ι) : EventLoopThreadPool ι := ⟨baseLoop, false, 0, 0, []⟩

def setThreadNum (p : EventLoopThreadPool ι) (numThreads : Nat) : EventLoopThreadPool ι :=
  { p with numThreads := numThreads }

/-- `startLoop` is what `EventLoopThread::StartLoop` returns for each thread. -/
def start (p : EventLoopThreadPool ι) (startLoop : Nat → ι) : Comp PoolFault (EventLoopThreadPool ι) := do
  ensure .startedTwice (p.started = false)
  return { p with started := true, loops := p.loops ++ (List.range p.numThreads).map startLoop }

def getNextLoop (p : EventLoopThreadPool ι) : Comp PoolFault (ι × EventLoopThreadPool ι) := do
  ensure .notStarted (p.started = true)
  if p.loops = [] then
    return (p.baseLoop, p)
  else
    let loop ← demand .outOfRange p.loops[p.next]?
    let next := p.next + 1
    return (loop, { p with next := if p.loops.length ≤ next then 0 else next })

def getLoopForHash (p : EventLoopThreadPool ι) (hashCode : Nat) : Comp PoolFault ι :=
  if p.loops = [] then return p.baseLoop else demand .outOfRange p.loops[hashCode % p.loops.length]?

def getAllLoops (p : EventLoopThreadPool ι) : Comp PoolFault (List ι) := do
  ensure .notStarted (p.started = true)
  return if p.loops = [] then [p.baseLoop] else p.loops

inductive Action (ι : Type) where
  | setThreadNum (numThreads : Nat)
  | start (startLoop : Nat → ι)
  | getNextLoop
  | getLoopForHash (hashCode : Nat)
  | getAllLoops

/-- The pool, and the loops that `GetNextLoop` has returned. -/
def step (s : EventLoopThreadPool ι × List ι) : Action ι → Comp PoolFault (EventLoopThreadPool ι × List ι)
  | .setThreadNum numThreads => return (s.1.setThreadNum numThreads, s.2)
  | .start startLoop => do return (← s.1.start startLoop, s.2)
  | .getNextLoop => do
    let (loop, pool) ← s.1.getNextLoop
    return (pool, s.2 ++ [loop])
  | .getLoopForHash hashCode => do
    let _ ← s.1.getLoopForHash hashCode
    return s
  | .getAllLoops => do
    let _ ← s.1.getAllLoops
    return s

/-- The loop of the `k`-th turn. -/
def turn (p : EventLoopThreadPool ι) (k : Nat) : ι := p.loops.getD (k % p.loops.length) p.baseLoop

/-- The asserts that tell the caller of a mistake. -/
def Misuse (f : PoolFault) : Prop := f ≠ .outOfRange

/-- `next_` stands where the turns have come to, and the loops have been returned in turn. -/
structure InTurn (s : EventLoopThreadPool ι × List ι) : Prop where
  unstarted : s.1.started = false → s.1.loops = [] ∧ s.2 = []
  next : s.1.loops ≠ [] → s.1.next = s.2.length % s.1.loops.length
  first : s.1.loops = [] → s.1.next = 0
  returned : s.2 = (List.range s.2.length).map s.1.turn

theorem new_inTurn (baseLoop : ι) : InTurn (new baseLoop, []) :=
  ⟨fun _ => ⟨rfl, rfl⟩, fun nonempty => absurd rfl nonempty, fun _ => rfl, rfl⟩

/-- The turns come round. -/
theorem wrap_eq_mod {k n : Nat} (positive : 0 < n) : (if n ≤ k % n + 1 then 0 else k % n + 1) = (k + 1) % n := by
  have below : k % n < n := Nat.mod_lt k positive
  rw [Nat.add_mod_eq_ite]
  rcases Nat.lt_or_ge 1 n with more | one
  · rw [Nat.mod_eq_of_lt more]
    split
    · have last : k % n + 1 = n := by omega
      simp [last]
    · rfl
  · obtain rfl : n = 1 := by omega
    simp [Nat.mod_one]

variable {s : EventLoopThreadPool ι × List ι}

theorem InTurn.getNextLoop (inTurn : InTurn s) :
    Blames Misuse (fun r => InTurn (r.2, s.2 ++ [r.1])) s.1.getNextLoop := by
  obtain ⟨pool, returned⟩ := s
  simp only [EventLoopThreadPool.getNextLoop, blames_bind, blames_ensure]
  refine ⟨fun started => ?_, fun _ => PoolFault.noConfusion⟩
  -- the history grows by the loop of the next turn
  have grows {loop : ι} {next : Nat} (same : loop = pool.turn returned.length) :
      returned ++ [loop] =
        (List.range (returned ++ [loop]).length).map (turn { pool with next := next }) := by
    have before := inTurn.returned
    rw [List.length_append, List.length_singleton, List.range_succ, List.map_append, List.map_singleton, same]
    exact congrArg (· ++ [pool.turn returned.length]) before
  split
  · next empty =>
    refine (blames_pure ..).mpr
      ⟨fun stopped => ?_, fun nonempty => absurd empty nonempty, fun _ => inTurn.first empty, ?_⟩
    · exact absurd (started.symm.trans stopped) (by decide)
    · exact grows (by simp [turn, empty])
  · next nonempty =>
    have next := inTurn.next nonempty
    have positive : 0 < pool.loops.length := List.length_pos_iff.mpr nonempty
    have below : pool.next < pool.loops.length := by
      rw [next]
      exact Nat.mod_lt _ positive
    simp only [blames_bind, blames_demand, blames_pure]
    refine ⟨fun loop found => ⟨fun stopped => ?_, fun _ => ?_, fun missing => absurd missing nonempty, ?_⟩,
      fun missing => ?_⟩
    · exact absurd (started.symm.trans stopped) (by decide)
    · dsimp only
      rw [next, List.length_append, List.length_singleton]
      exact wrap_eq_mod positive
    · refine grows ?_
      rw [turn, ← next, List.getD_eq_getElem?_getD, found, Option.getD_some]
    · exact absurd missing (by simp [below])

theorem InTurn.step (inTurn : InTurn s) (act : Action ι) : Blames Misuse InTurn (step s act) := by
  cases act with
  | setThreadNum numThreads => exact ⟨inTurn.unstarted, inTurn.next, inTurn.first, inTurn.returned⟩
  | start startLoop =>
    -- before `Start` no loop can have been returned, so the turns begin with the new loops
    simp only [EventLoopThreadPool.step, EventLoopThreadPool.start, blames_bind, blames_ensure, blames_pure]
    refine ⟨fun unstarted => ?_, fun _ => PoolFault.noConfusion⟩
    obtain ⟨empty, nothing⟩ := inTurn.unstarted unstarted
    have first := inTurn.first empty
    refine ⟨fun stopped => absurd stopped (by simp), fun _ => ?_, fun _ => first, ?_⟩
    · simp [nothing, first]
    · simp [nothing]
  | getNextLoop =>
    simp only [EventLoopThreadPool.step, blames_bind, blames_pure]
    exact inTurn.getNextLoop
  | getLoopForHash hashCode =>
    simp only [EventLoopThreadPool.step, getLoopForHash, blames_bind, blames_pure]
    split
    · exact (blames_pure ..).mpr inTurn
    · next nonempty =>
      have below : hashCode % s.1.loops.length < s.1.loops.length :=
        Nat.mod_lt _ (List.length_pos_iff.mpr nonempty)
      simp only [blames_demand]
      exact ⟨fun _ _ => inTurn, fun missing => absurd missing (by simp [below])⟩
  | getAllLoops =>
    simp only [EventLoopThreadPool.step, getAllLoops, blames_bind, blames_ensure, blames_pure]
    exact ⟨fun _ => inTurn, fun _ => PoolFault.noConfusion⟩

/-- In every run of the functions of a pool: no read is outside `loops_`, so a run fails only where
the pool is used before `Start` or started twice. And the loops that `GetNextLoop` has returned
are those of the pool in turn, starting with the first, whatever was called in between; a pool
without threads always returns its base loop. -/
theorem round_robin (baseLoop : ι) (acts : List (Action ι)) :
    (∀ f, Run.exec step (new baseLoop, []) acts = .error (.fault f) → f ≠ .outOfRange) ∧
    ∀ pool returned, Run.exec step (new baseLoop, []) acts = .ok (pool, returned) →
      ∀ k (called : k < returned.length),
        returned[k] = pool.loops.getD (k % pool.loops.length) pool.baseLoop := by
  have kept : Blames Misuse InTurn (Run.exec step (new baseLoop, []) acts) :=
    Run.exec_blames (fun _ act inTurn => inTurn.step act) _ acts (new_inTurn baseLoop)
  refine ⟨fun f => kept.fault, fun pool returned reached k called => ?_⟩
  have inTurn : InTurn (pool, returned) := kept.result reached
  have same := congrArg (·[k]?) inTurn.returned
  simpa [called, turn] using same

/-- Two threads, and a call that picks by hash in between. -/
example : (Run.exec step (new 0, []) [.setThreadNum 2, .start (· + 1), .getNextLoop, .getLoopForHash 7, .getNextLoop,
    .getNextLoop]).toOption.map (fun s => (s.1.next, s.2)) = some (1, [1, 2, 1]) := by decide +kernel

end EventLoopThreadPool

/-! ### The connections of a server -/

namespace Registry

variable {s t : Registry} {cfg : ServerConfig}

/-- The pool that the server asks: loop 0 is its own. -/
def pool (s : Registry) (numThreads : Nat) : EventLoopThreadPool LoopId :=
  ⟨0, true, numThreads, s.next, (List.range numThreads).map (· + 1)⟩

/-- The registry asks its pool. -/
theorem getNextLoop_pool (numThreads : Nat) (below : numThreads ≠ 0 → s.next < numThreads) :
    (s.pool numThreads).getNextLoop =
      .ok ((s.getNextLoop numThreads).1, (s.getNextLoop numThreads).2.pool numThreads) := by
  by_cases threadless : numThreads = 0
  · subst threadless
    rfl
  · have nonempty : (List.range numThreads).map (· + 1) ≠ [] := by simp [threadless]
    have next := below threadless
    simp [pool, EventLoopThreadPool.getNextLoop, ensure, getNextLoop, threadless, demand, next, pure, Except.pure,
      bind, Except.bind]

/-- The step creates no connection and moves none. -/
structure Settled (s t : Registry) : Prop where
  next : t.next = s.next
  created : t.created = s.created
  loop : ∀ c, (t.conns c).loop = (s.conns c).loop

theorem settled_setState (s : Registry) (conn : ConnId) (state : StateE) : Settled s (s.setState conn state) :=
  ⟨rfl, rfl, fun c => setState_loop s conn c state⟩

theorem run_settled (s : Registry) (thread : LoopId) (f : RegistryFunctor) : Yields (Settled s) (s.run thread f) := by
  cases f with
  | connectEstablished conn =>
    simp only [run, connectEstablished, yields_bind, yields_ensure, yields_pure]
    exact fun _ _ => ⟨rfl, rfl, (settled_setState s conn _).loop⟩
  | removeConnectionInLoop conn =>
    simp only [run, removeConnectionInLoop, yields_bind, yields_ensure, yields_pure]
    exact fun _ _ => ⟨rfl, rfl, fun _ => rfl⟩
  | connectDestroyed conn =>
    simp only [run, connectDestroyed, yields_bind, yields_ensure, yields_pure]
    intro _
    split
    · exact ⟨rfl, rfl, (settled_setState s conn _).loop⟩
    · exact ⟨rfl, rfl, fun _ => rfl⟩

theorem runInLoop_settled (s : Registry) (thread target : LoopId) (f : RegistryFunctor) :
    Yields (Settled s) (s.runInLoop thread target f) := by
  unfold runInLoop
  split
  · exact s.run_settled thread f
  · exact (yields_pure ..).mpr ⟨rfl, rfl, fun _ => rfl⟩

theorem turn_settled (s : Registry) (l : LoopId)
    (f : EventLoop RegistryFunctor → Comp RegistryFault (EventLoop RegistryFunctor)) :
    Yields (Settled s) (s.turn l f) := by
  simp only [turn, yields_bind, yields_require, yields_pure]
  exact fun _ _ _ => ⟨rfl, rfl, fun _ => rfl⟩

/-- Every step but `NewConnection`. -/
theorem step_settled (act : Action) (other : act ≠ .newConnection) : Yields (Settled s) (s.step cfg act) := by
  cases act with
  | newConnection => exact absurd rfl other
  | handleClose conn =>
    simp only [step, handleClose, yields_bind, yields_require, yields_ensure]
    intro _ _ _
    refine (runInLoop_settled _ _ 0 _).mono fun t settled => ?_
    exact ⟨settled.next, settled.created,
      fun c => (settled.loop c).trans ((settled_setState s conn .kDisconnected).loop c)⟩
  | shutdown conn =>
    simp only [step, shutdown, yields_bind, yields_require, yields_pure]
    intro _
    split
    · exact settled_setState s conn _
    · exact ⟨rfl, rfl, fun _ => rfl⟩
  | push thread =>
    simp only [step, yields_bind, yields_pure]
    exact fun _ _ => ⟨rfl, rfl, fun _ => rfl⟩
  | poll l => exact s.turn_settled l _
  | swap l => exact s.turn_settled l _
  | next l =>
    simp only [step, yields_bind, yields_require]
    rintro _ ⟨f, loop⟩ _
    exact (run_settled _ l f).mono fun t settled => ⟨settled.next, settled.created, settled.loop⟩
  | finish l => exact s.turn_settled l _

/-- The loop of the connection with a number. -/
def homeLoop (numThreads : Nat) (c : ConnId) : LoopId := if numThreads = 0 then 0 else c % numThreads + 1

structure Spread (cfg : ServerConfig) (s : Registry) : Prop where
  next : cfg.numThreads ≠ 0 → s.next = s.created % cfg.numThreads
  loop : ∀ c < s.created, (s.conns c).loop = homeLoop cfg.numThreads c

theorem start_spread (cfg : ServerConfig) : Spread cfg start := by
  constructor <;> simp [start]

theorem Spread.settled (spread : Spread cfg s) (settled : Settled s t) : Spread cfg t where
  next threaded := by
    rw [settled.next, settled.created]
    exact spread.next threaded
  loop c made := by
    rw [settled.loop]
    exact spread.loop c (settled.created ▸ made)

theorem Spread.getNextLoop (spread : Spread cfg s) :
    (s.getNextLoop cfg.numThreads).1 = homeLoop cfg.numThreads s.created ∧
    (cfg.numThreads ≠ 0 → (s.getNextLoop cfg.numThreads).2.next = (s.created + 1) % cfg.numThreads) := by
  unfold Registry.getNextLoop homeLoop
  split
  · next threadless => exact ⟨rfl, fun threaded => absurd threadless threaded⟩
  · next threaded =>
    rw [spread.next threaded]
    exact ⟨rfl, fun _ => EventLoopThreadPool.wrap_eq_mod (Nat.pos_of_ne_zero threaded)⟩

theorem Spread.newConnection (spread : Spread cfg s) : Yields (Spread cfg) (s.newConnection cfg) := by
  obtain ⟨loop, next⟩ := spread.getNextLoop
  have same : (s.getNextLoop cfg.numThreads).2.created = s.created ∧
      (s.getNextLoop cfg.numThreads).2.conns = s.conns := by
    unfold Registry.getNextLoop
    split <;> exact ⟨rfl, rfl⟩
  simp only [Registry.newConnection, yields_bind, yields_ensure]
  intro _
  refine (runInLoop_settled _ 0 _ _).mono fun t settled => ?_
  refine Spread.settled ⟨fun threaded => ?_, fun c made => ?_⟩ settled
  · simp only [create, same.1]
    exact next threaded
  · simp only [create, same.1] at made ⊢
    by_cases new : c = s.created
    · -- the new connection, on the loop the pool has just named
      rw [new, Function.update_self]
      exact loop
    · rw [Function.update_of_ne new, same.2]
      exact spread.loop c (by omega)

theorem Spread.step (spread : Spread cfg s) (act : Action) : Yields (Spread cfg) (s.step cfg act) := by
  by_cases new : act = .newConnection
  · subst new
    simp only [Registry.step, yields_bind, yields_require]
    exact fun _ => spread.newConnection
  · exact (step_settled act new).mono fun t settled => spread.settled settled

/-- The number of connections that were given to a loop. -/
def load (s : Registry) (l : LoopId) : Nat := s.created.count fun c => (s.conns c).loop = l

/-- The connections are dealt out. -/
theorem Spread.load_eq (spread : Spread cfg s) {l : LoopId} (member : l < cfg.numThreads) :
    s.load (l + 1) = s.created / cfg.numThreads + if l < s.created % cfg.numThreads then 1 else 0 := by
  have positive : 0 < cfg.numThreads := Nat.zero_lt_of_lt member
  have counted := Nat.count_modEq_card s.created positive l
  rw [Nat.mod_eq_of_lt member] at counted
  rw [← counted, load, Nat.count_eq_card_filter_range, Nat.count_eq_card_filter_range]
  -- the loop of a connection says its number modulo the number of threads
  refine congrArg Finset.card (Finset.filter_congr fun c made => ?_)
  rw [spread.loop c (Finset.mem_range.mp made), homeLoop, if_neg positive.ne', Nat.ModEq, Nat.mod_eq_of_lt member]
  exact Nat.add_right_cancel_iff

/-- The second connection closes before the third one comes. -/
def threeConnections : List Action := secondClosedFirst ++ [.finish 0, .newConnection]

end Registry

end Rnet.Network
