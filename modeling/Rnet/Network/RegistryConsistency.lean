import Rnet.Network.ConnectionRegistry

/-!
# The registry follows the life of every connection

A functor that was issued is in the hand of the thread that issued it, about to be pushed, on the
queue of its loop, or was called. `owed` adds the four up, so that it does not matter whether
`RunInLoop` called it in place or queued it. Per connection one `ConnectEstablished` is owed, a
`RemoveConnectionInLoop` for each `HandleClose`, and a `ConnectDestroyed` for each erased entry.
-/
namespace Rnet.Network

open Check Decimal

/-! ### Names -/

namespace ServerConfig

variable (cfg : ServerConfig)

/-- The buffer of `NewConnection` has room for every id that an `int` can have. -/
theorem connName_eq {id : Nat} (small : id < 2 ^ 31) :
    cfg.connName id = cfg.name ++ ('-' :: cfg.ipPort ++ '#' :: decimal id) := by
  have digits : (decimal id).length ≤ 10 := length_decimal_le (by omega)
  have room := cfg.ipPort_length
  rw [connName, snprintf, List.take_of_length_le]
  simp only [List.length_append, List.length_cons]
  omega

theorem connName_injective {id id' : Nat} (small : id < 2 ^ 31) (small' : id' < 2 ^ 31)
    (same : cfg.connName id = cfg.connName id') : id = id' := by
  rw [cfg.connName_eq small, cfg.connName_eq small'] at same
  have rest : ('-' :: cfg.ipPort) ++ '#' :: decimal id = ('-' :: cfg.ipPort) ++ '#' :: decimal id' :=
    List.append_cancel_left same
  have number := List.append_cancel_left rest
  exact decimal_injective (List.cons.inj number).2

end ServerConfig

/-! ### What is owed -/

/-- The call that a functor makes. -/
def RegistryFunctor.call : RegistryFunctor → RegistryCall
  | connectEstablished _ => .connectEstablished
  | removeConnectionInLoop _ => .removeConnectionInLoop
  | connectDestroyed _ => .connectDestroyed

/-- The call that has to come before. -/
def RegistryCall.needs : RegistryCall → Option RegistryCall
  | connectEstablished => none
  | handleClose => some connectEstablished
  | removeConnectionInLoop => some handleClose
  | connectDestroyed => some removeConnectionInLoop

namespace Registry

/-- The loop a functor is queued on. -/
def home (s : Registry) : RegistryFunctor → LoopId
  | .connectEstablished conn | .connectDestroyed conn => (s.conns conn).loop
  | .removeConnectionInLoop _ => 0

/-- The loop in whose thread a functor is issued. -/
def source (s : Registry) : RegistryFunctor → LoopId
  | .connectEstablished _ | .connectDestroyed _ => 0
  | .removeConnectionInLoop conn => (s.conns conn).loop

/-- The loop in whose thread a call has to be made. -/
def threadOf (s : Registry) (call : RegistryCall) (conn : ConnId) : LoopId :=
  if call = .removeConnectionInLoop then 0 else (s.conns conn).loop

/-- How often the functor is on its queue or about to be pushed on it. -/
def waiting (s : Registry) (f : RegistryFunctor) : Nat :=
  (s.loops (s.home f)).queued.count f + (s.pushing (s.source f)).toList.count (s.home f, f)

def times (s : Registry) (call : RegistryCall) (conn : ConnId) : Nat :=
  s.calls.countP fun r => r.call = call ∧ r.conn = conn

def owed (s : Registry) (hand : Option RegistryFunctor) (f : RegistryFunctor) : Nat :=
  s.times f.call f.conn + s.waiting f + if hand = some f then 1 else 0

/-- Every call comes after the call it needs. -/
def Causal (calls : List CallRecord) : Prop :=
  ∀ before r after, calls = before ++ r :: after →
    ∀ needed ∈ r.call.needs, ∃ e ∈ before, e.call = needed ∧ e.conn = r.conn

structure Flow (s : Registry) (hand : Option RegistryFunctor) (conn : ConnId) : Prop where
  established : s.times .connectEstablished conn = if (s.conns conn).state = .kConnecting then 0 else 1
  closed : s.times .handleClose conn = if (s.conns conn).state = .kDisconnected then 1 else 0
  starting : s.owed hand (.connectEstablished conn) = 1
  removing : s.owed hand (.removeConnectionInLoop conn) = s.times .handleClose conn
  destroying : s.owed hand (.connectDestroyed conn) = s.times .removeConnectionInLoop conn

/-- `hand` is the functor that the running thread has issued and not yet called or queued. -/
structure Inv (cfg : ServerConfig) (s : Registry) (hand : Option RegistryFunctor) : Prop where
  ids : s.nextConnId = s.created + 1
  few : s.created < 2 ^ 31 - 1
  names : ∀ conn < s.created, (s.conns conn).name = cfg.connName (conn + 1)
  map : ∀ name conn, s.connections name = some conn ↔
    conn < s.created ∧ (s.conns conn).name = name ∧ s.times .removeConnectionInLoop conn = 0
  inHand : ∀ f, hand = some f → f.conn < s.created
  queued : ∀ l, ∀ f ∈ (s.loops l).queued, f.conn < s.created ∧ l = s.home f
  pushing : ∀ l target f, s.pushing l = some (target, f) →
    f.conn < s.created ∧ target = s.home f ∧ l = s.source f
  flow : ∀ conn < s.created, Flow s hand conn
  calls : ∀ r ∈ s.calls, r.conn < s.created ∧ r.thread = s.threadOf r.call r.conn
  causal : Causal s.calls

theorem inv_start (cfg : ServerConfig) : Inv cfg start none where
  ids := rfl
  few := by decide
  names := by rintro _ ⟨⟩
  map := by simp [start]
  inHand := by simp
  queued := by rintro _ _ ⟨⟩
  pushing := by rintro _ _ _ ⟨⟩
  flow := by rintro _ ⟨⟩
  calls := by rintro _ ⟨⟩
  causal := by
    intro before r after split
    simp [start] at split

variable {cfg : ServerConfig} {s t : Registry} {hand : Option RegistryFunctor} {conn : ConnId}

/-! ### Calls -/

theorem times_record (s : Registry) (call : RegistryCall) (conn : ConnId) (thread : LoopId)
    (call' : RegistryCall) (conn' : ConnId) :
    (s.record call conn thread).times call' conn' =
      s.times call' conn' + if call = call' ∧ conn = conn' then 1 else 0 := by
  simp only [times, record, List.countP_append, List.countP_singleton, decide_eq_true_eq]

theorem Causal.append {calls : List CallRecord} (causal : Causal calls) (r : CallRecord)
    (needs : ∀ needed ∈ r.call.needs, ∃ e ∈ calls, e.call = needed ∧ e.conn = r.conn) :
    Causal (calls ++ [r]) := by
  intro before e after split needed need
  rcases List.append_eq_append_iff.mp split with ⟨middle, rfl, last⟩ | ⟨middle, rfl, last⟩
  · -- the call is the new one
    cases middle with
    | nil =>
      simp only [List.nil_append, List.cons.injEq] at last
      obtain ⟨rfl, -⟩ := last
      simpa using needs needed need
    | cons first rest => simp at last
  · cases middle with
    | nil =>
      simp only [List.nil_append, List.cons.injEq] at last
      obtain ⟨rfl, -⟩ := last
      simpa using needs needed need
    | cons first rest =>
      simp only [List.cons_append, List.cons.injEq] at last
      obtain ⟨rfl, -⟩ := last
      exact causal before e rest rfl needed need

theorem exists_of_times {call : RegistryCall} (called : s.times call conn ≠ 0) :
    ∃ e ∈ s.calls, e.call = call ∧ e.conn = conn := by
  simpa [times] using List.countP_pos_iff.mp (Nat.pos_of_ne_zero called)

theorem owed_none (s : Registry) (f : RegistryFunctor) : s.owed none f = s.times f.call f.conn + s.waiting f :=
  rfl

/-! ### Where a functor waits -/

theorem home_congr {f : RegistryFunctor} (loop : (t.conns f.conn).loop = (s.conns f.conn).loop) :
    t.home f = s.home f := by
  cases f with
  | connectEstablished | connectDestroyed => exact loop
  | removeConnectionInLoop => rfl

theorem source_congr {f : RegistryFunctor} (loop : (t.conns f.conn).loop = (s.conns f.conn).loop) :
    t.source f = s.source f := by
  cases f with
  | connectEstablished | connectDestroyed => rfl
  | removeConnectionInLoop => exact loop

/-- What is waiting depends on the loops, on what is being pushed and on where connections live. -/
theorem waiting_congr {f : RegistryFunctor} (loop : (t.conns f.conn).loop = (s.conns f.conn).loop)
    (queued : (t.loops (s.home f)).queued.count f = (s.loops (s.home f)).queued.count f)
    (pushing : t.pushing (s.source f) = s.pushing (s.source f)) : t.waiting f = s.waiting f := by
  rw [waiting, waiting, home_congr loop, source_congr loop, queued, pushing]

/-- The thread that has issued `f` is about to push it. -/
theorem waiting_queueInLoop (f g : RegistryFunctor) (free : s.pushing (s.source f) = none) :
    (s.queueInLoop (s.source f) (s.home f) f).waiting g = s.waiting g + if some f = some g then 1 else 0 := by
  have home : (s.queueInLoop (s.source f) (s.home f) f).home g = s.home g := rfl
  have source : (s.queueInLoop (s.source f) (s.home f) f).source g = s.source g := rfl
  rw [waiting, waiting, home, source]
  simp only [queueInLoop]
  by_cases same : f = g
  · subst same
    simp [free]
  · by_cases thread : s.source g = s.source f
    · rw [thread, Function.update_self]
      simp [free, same]
    · rw [Function.update_of_ne thread]
      simp [same]

/-- The push takes what was about to be pushed to its queue. -/
theorem waiting_push {f : RegistryFunctor} (g : RegistryFunctor)
    (issued : s.pushing (s.source f) = some (s.home f, f)) :
    ({ s with pushing := Function.update s.pushing (s.source f) none }.setLoop (s.home f)
      ((s.loops (s.home f)).queueInLoop f)).waiting g = s.waiting g := by
  let t := { s with pushing := Function.update s.pushing (s.source f) none }.setLoop (s.home f)
    ((s.loops (s.home f)).queueInLoop f)
  have home : t.home g = s.home g := rfl
  have source : t.source g = s.source g := rfl
  change t.waiting g = _
  rw [waiting, waiting, home, source]
  simp only [t, setLoop]
  by_cases same : f = g
  · subst same
    simp [issued]
  · have queued : (Function.update s.loops (s.home f) ((s.loops (s.home f)).queueInLoop f) (s.home g)).queued.count g =
        (s.loops (s.home g)).queued.count g := by
      by_cases place : s.home g = s.home f
      · rw [place, Function.update_self]
        simp [same]
      · rw [Function.update_of_ne place]
    rw [queued]
    by_cases thread : s.source g = s.source f
    · rw [thread, Function.update_self, issued]
      simp [same]
    · rw [Function.update_of_ne thread]

/-- A functor is taken from the queue of its loop. -/
theorem waiting_next {f : RegistryFunctor} {loop : EventLoop RegistryFunctor} (g : RegistryFunctor)
    (queued : (s.loops (s.home f)).queued = f :: loop.queued) :
    (s.setLoop (s.home f) loop).waiting g + (if some f = some g then 1 else 0) = s.waiting g := by
  have home : (s.setLoop (s.home f) loop).home g = s.home g := rfl
  have source : (s.setLoop (s.home f) loop).source g = s.source g := rfl
  rw [waiting, waiting, home, source]
  simp only [setLoop]
  by_cases place : s.home g = s.home f
  · rw [place, Function.update_self, queued, List.count_cons]
    by_cases same : f = g
    · subst same
      simp only [beq_self_eq_true, if_true]
      omega
    · simp [same]
  · have different : f ≠ g := by
      rintro rfl
      exact place rfl
    rw [Function.update_of_ne place]
    simp [different]

/-! ### Steps that call nothing -/

theorem Flow.congr {hand' : Option RegistryFunctor} (flow : Flow s hand conn)
    (times : ∀ call, t.times call conn = s.times call conn)
    (state : (t.conns conn).state = (s.conns conn).state)
    (owed : ∀ f : RegistryFunctor, f.conn = conn → t.owed hand' f = s.owed hand f) : Flow t hand' conn where
  established := by rw [times, state]; exact flow.established
  closed := by rw [times, state]; exact flow.closed
  starting := by rw [owed _ rfl]; exact flow.starting
  removing := by rw [owed _ rfl, times]; exact flow.removing
  destroying := by rw [owed _ rfl, times]; exact flow.destroying

/-- The functor in hand goes to its queue. -/
theorem Inv.queueInLoop {f : RegistryFunctor} (inv : Inv cfg s (some f)) (free : s.pushing (s.source f) = none) :
    Inv cfg (s.queueInLoop (s.source f) (s.home f) f) none where
  ids := inv.ids
  few := inv.few
  names := inv.names
  map := inv.map
  inHand := by simp
  queued := inv.queued
  pushing := by
    intro l target g issued
    by_cases same : l = s.source f
    · subst same
      have this : some (s.home f, f) = some (target, g) := by simpa [Registry.queueInLoop] using issued
      obtain ⟨rfl, rfl⟩ := Prod.mk.inj (Option.some.inj this)
      exact ⟨inv.inHand _ rfl, rfl, rfl⟩
    · exact inv.pushing l target g (by simpa [Registry.queueInLoop, Function.update_of_ne same] using issued)
  flow := by
    intro conn made
    refine (inv.flow conn made).congr (fun _ => rfl) rfl fun g _ => ?_
    rw [owed_none, waiting_queueInLoop f g free, owed, Nat.add_assoc]
    rfl
  calls := inv.calls
  causal := inv.causal

theorem Inv.push {thread target : LoopId} {f : RegistryFunctor} (inv : Inv cfg s hand)
    (issued : s.pushing thread = some (target, f)) :
    Inv cfg ({ s with pushing := Function.update s.pushing thread none }.setLoop target
      ((s.loops target).queueInLoop f)) hand := by
  obtain ⟨made, rfl, rfl⟩ := inv.pushing thread target f issued
  refine ⟨inv.ids, inv.few, inv.names, inv.map, inv.inHand, fun l g member => ?_, fun l target g flying => ?_,
    fun conn made => ?_, inv.calls, inv.causal⟩
  · by_cases same : l = s.home f
    · subst same
      simp only [setLoop, Function.update_self, EventLoop.queueInLoop_queued, List.mem_append,
        List.mem_singleton] at member
      rcases member with member | rfl
      · exact inv.queued _ g member
      · exact ⟨made, rfl⟩
    · exact inv.queued l g (by simpa [setLoop, Function.update_of_ne same] using member)
  · by_cases same : l = s.source f
    · subst same
      simp [setLoop] at flying
    · exact inv.pushing l target g (by simpa [setLoop, Function.update_of_ne same] using flying)
  · refine (inv.flow conn made).congr (fun _ => rfl) rfl fun g _ => ?_
    rw [owed, owed, waiting_push g issued]
    rfl

/-- `Loop()` goes on. -/
theorem Inv.turn {l : LoopId} {loop : EventLoop RegistryFunctor} (inv : Inv cfg s hand)
    (same : (s.loops l).SameQueue loop) : Inv cfg (s.setLoop l loop) hand := by
  have queued (k : LoopId) : ((s.setLoop l loop).loops k).queued = (s.loops k).queued := by
    by_cases here : k = l
    · subst here
      simp [setLoop, same.queued]
    · simp [setLoop, Function.update_of_ne here]
  refine ⟨inv.ids, inv.few, inv.names, inv.map, inv.inHand, fun k g member => ?_, inv.pushing,
    fun conn made => ?_, inv.calls, inv.causal⟩
  · exact inv.queued k g (queued k ▸ member)
  · refine (inv.flow conn made).congr (fun _ => rfl) rfl fun g _ => ?_
    have waits : (s.setLoop l loop).waiting g = s.waiting g := waiting_congr rfl (by rw [queued]) rfl
    rw [owed, owed, waits]
    rfl

/-- `DoPendingFunctors` takes a functor into its hand. -/
theorem Inv.next {l : LoopId} {loop : EventLoop RegistryFunctor} {f : RegistryFunctor} (inv : Inv cfg s none)
    (order : (s.loops l).queued = f :: loop.queued) :
    l = s.home f ∧ Inv cfg (s.setLoop l loop) (some f) := by
  obtain ⟨made, rfl⟩ := inv.queued l f (by simp [order])
  refine ⟨rfl, inv.ids, inv.few, inv.names, inv.map, fun g same => ?_, fun k g member => ?_, inv.pushing,
    fun conn there => ?_, inv.calls, inv.causal⟩
  · rw [← Option.some.inj same]
    exact made
  · by_cases here : k = s.home f
    · subst here
      apply inv.queued (s.home f) g
      rw [order]
      exact List.mem_cons_of_mem f (by simpa [setLoop] using member)
    · exact inv.queued k g (by simpa [setLoop, Function.update_of_ne here] using member)
  · refine (inv.flow conn there).congr (fun _ => rfl) rfl fun g _ => ?_
    have waits := waiting_next g order
    have times : (s.setLoop (s.home f) loop).times g.call g.conn = s.times g.call g.conn := rfl
    rw [owed_none, owed, times, ← waits, Nat.add_assoc]

/-! ### Steps that call -/

theorem setState_self (s : Registry) (conn : ConnId) : s.setState conn (s.conns conn).state = s := by
  simp [setState]

/-- A connection keeps its loop and its name for life. -/
theorem setState_keeps (s : Registry) (conn conn' : ConnId) (state : StateE) :
    ((s.setState conn state).conns conn').loop = (s.conns conn').loop ∧
      ((s.setState conn state).conns conn').name = (s.conns conn').name := by
  by_cases same : conn' = conn
  · subst same
    simp [setState]
  · simp [setState, Function.update_of_ne same]

theorem setState_loop (s : Registry) (conn conn' : ConnId) (state : StateE) :
    ((s.setState conn state).conns conn').loop = (s.conns conn').loop :=
  (s.setState_keeps conn conn' state).1

theorem setState_name (s : Registry) (conn conn' : ConnId) (state : StateE) :
    ((s.setState conn state).conns conn').name = (s.conns conn').name :=
  (s.setState_keeps conn conn' state).2

theorem home_setState (s : Registry) (conn : ConnId) (state : StateE) (f : RegistryFunctor) :
    (s.setState conn state).home f = s.home f :=
  home_congr (setState_loop s conn f.conn state)

theorem source_setState (s : Registry) (conn : ConnId) (state : StateE) (f : RegistryFunctor) :
    (s.setState conn state).source f = s.source f :=
  source_congr (setState_loop s conn f.conn state)

theorem waiting_setState (s : Registry) (conn : ConnId) (state : StateE) (f : RegistryFunctor) :
    (s.setState conn state).waiting f = s.waiting f :=
  waiting_congr (setState_loop s conn f.conn state) rfl rfl

theorem threadOf_setState (s : Registry) (conn : ConnId) (state : StateE) (call : RegistryCall) (conn' : ConnId) :
    (s.setState conn state).threadOf call conn' = s.threadOf call conn' := by
  unfold threadOf
  rw [setState_loop]

/-- A state that is set without a call. -/
theorem Inv.setState (inv : Inv cfg s hand) (state : StateE)
    (established : state = .kConnecting ↔ (s.conns conn).state = .kConnecting)
    (closed : state = .kDisconnected ↔ (s.conns conn).state = .kDisconnected) :
    Inv cfg (s.setState conn state) hand := by
  refine ⟨inv.ids, inv.few, fun conn' made => ?_, fun name conn' => ?_, inv.inHand, fun l f member => ?_,
    fun l target f flying => ?_, fun conn' made => ?_, fun r member => ?_, inv.causal⟩
  · exact (setState_name s conn conn' state).trans (inv.names conn' made)
  · rw [setState_name]
    exact inv.map name conn'
  · rw [home_setState]
    exact inv.queued l f member
  · rw [home_setState, source_setState]
    exact inv.pushing l target f flying
  · have flow := inv.flow conn' made
    have owed (f : RegistryFunctor) : (s.setState conn state).owed hand f = s.owed hand f := by
      rw [Registry.owed, waiting_setState]
      rfl
    -- only the connection itself has another state, and of the same kind
    by_cases same : conn' = conn
    · subst same
      have now : ((s.setState conn' state).conns conn').state = state := by simp [Registry.setState]
      refine ⟨?_, ?_, (owed _).trans flow.starting, (owed _).trans flow.removing, (owed _).trans flow.destroying⟩
      · rw [now]
        simp only [established]
        exact flow.established
      · rw [now]
        simp only [closed]
        exact flow.closed
    · refine flow.congr (fun _ => rfl) ?_ fun f _ => owed f
      simp [Registry.setState, Function.update_of_ne same]
  · rw [threadOf_setState]
    exact inv.calls r member

/-- The call of one connection in one state. -/
def called (s : Registry) (state : StateE) (call : RegistryCall) (conn : ConnId) (thread : LoopId) : Registry :=
  (s.setState conn state).record call conn thread

theorem owed_called (s : Registry) (state : StateE) (call : RegistryCall) (conn : ConnId) (thread : LoopId)
    (f : RegistryFunctor) :
    (s.called state call conn thread).owed hand f = s.times f.call f.conn +
      (if call = f.call ∧ conn = f.conn then 1 else 0) + s.waiting f + if hand = some f then 1 else 0 := by
  have waits : (s.called state call conn thread).waiting f = s.waiting f := waiting_setState s conn state f
  rw [owed, waits, called, times_record]
  rfl

/-- A call concerns one connection. -/
theorem Inv.call {connections : List Char → Option ConnId} (inv : Inv cfg s hand)
    (hand' : Option RegistryFunctor) (state : StateE) (call : RegistryCall) (made : conn < s.created)
    (needs : ∀ needed ∈ call.needs, s.times needed conn ≠ 0)
    (held : ∀ f, hand = some f → f.conn = conn) (issued : ∀ f, hand' = some f → f.conn = conn)
    (map : ∀ name conn', connections name = some conn' ↔ conn' < s.created ∧ (s.conns conn').name = name ∧
      s.times .removeConnectionInLoop conn' +
        (if call = .removeConnectionInLoop ∧ conn = conn' then 1 else 0) = 0)
    (flow : Flow (s.called state call conn (s.threadOf call conn)) hand' conn) :
    Inv cfg { s.called state call conn (s.threadOf call conn) with connections := connections } hand' := by
  refine ⟨inv.ids, inv.few, fun conn' there => ?_, fun name conn' => ?_, fun f same => ?_, fun l f member => ?_,
    fun l target f flying => ?_, fun conn' there => ?_, fun r member => ?_, ?_⟩
  · exact (setState_name s conn conn' state).trans (inv.names conn' there)
  · refine (map name conn').trans ?_
    rw [← setState_name s conn conn' state, ← times_record]
    rfl
  · rw [issued f same]
    exact made
  · obtain ⟨there, here⟩ := inv.queued l f member
    exact ⟨there, here.trans (home_setState s conn state f).symm⟩
  · obtain ⟨there, here, origin⟩ := inv.pushing l target f flying
    exact ⟨there, here.trans (home_setState s conn state f).symm, origin.trans (source_setState s conn state f).symm⟩
  · -- what another connection owes is the same before and after
    by_cases same : conn' = conn
    · subst same
      exact ⟨flow.established, flow.closed, flow.starting, flow.removing, flow.destroying⟩
    · refine (inv.flow conn' there).congr (fun other => ?_) ?_ fun f here => ?_
      · refine (times_record _ call conn _ other conn').trans ?_
        rw [if_neg (fun both => same both.2.symm)]
        rfl
      · simp [called, record, Registry.setState, Function.update_of_ne same]
      · have kept : (s.called state call conn (s.threadOf call conn)).owed hand' f = s.owed hand f := by
          have different : conn ≠ f.conn := fun same' => same (here.symm.trans same'.symm)
          have unheld : hand ≠ some f := fun holds => different (held f holds).symm
          have unissued : hand' ≠ some f := fun holds => different (issued f holds).symm
          rw [owed_called, owed, if_neg unheld, if_neg unissued, if_neg (fun both => different both.2)]
          rfl
        exact kept
  · rcases List.mem_append.mp member with old | new
    · obtain ⟨there, thread⟩ := inv.calls r old
      exact ⟨there, thread.trans (threadOf_setState s conn state r.call r.conn).symm⟩
    · obtain rfl := List.mem_singleton.mp new
      exact ⟨made, (threadOf_setState s conn state call conn).symm⟩
  · exact inv.causal.append _ fun needed need => exists_of_times (needs needed need)

/-- A call that is no removal leaves the map as it is. -/
theorem Inv.map_same (inv : Inv cfg s hand) (call : RegistryCall) (other : call ≠ .removeConnectionInLoop)
    (conn : ConnId) (name : List Char) (conn' : ConnId) :
    s.connections name = some conn' ↔ conn' < s.created ∧ (s.conns conn').name = name ∧
      s.times .removeConnectionInLoop conn' +
        (if call = .removeConnectionInLoop ∧ conn = conn' then 1 else 0) = 0 := by
  rw [if_neg (fun both => other both.1)]
  exact inv.map name conn'

theorem called_state (s : Registry) (state : StateE) (call : RegistryCall) (conn : ConnId) (thread : LoopId) :
    ((s.called state call conn thread).conns conn).state = state := by
  simp [called, record, setState]

theorem times_called (s : Registry) (state : StateE) (call : RegistryCall) (conn : ConnId) (thread : LoopId)
    (call' : RegistryCall) : (s.called state call conn thread).times call' conn =
      s.times call' conn + if call = call' then 1 else 0 := by
  rw [called, times_record]
  simp only [and_true]
  rfl

/-- The owed calls of one connection, written out. -/
theorem Flow.sums (flow : Flow s hand conn) :
    s.times .connectEstablished conn + s.waiting (.connectEstablished conn) +
      (if hand = some (.connectEstablished conn) then 1 else 0) = 1 ∧
    s.times .removeConnectionInLoop conn + s.waiting (.removeConnectionInLoop conn) +
      (if hand = some (.removeConnectionInLoop conn) then 1 else 0) = s.times .handleClose conn ∧
    s.times .connectDestroyed conn + s.waiting (.connectDestroyed conn) +
      (if hand = some (.connectDestroyed conn) then 1 else 0) = s.times .removeConnectionInLoop conn :=
  ⟨flow.starting, flow.removing, flow.destroying⟩

/-- What a call has to add up to, from what was owed before. -/
theorem flow_called {hand' : Option RegistryFunctor} {state : StateE} {call : RegistryCall} (thread : LoopId)
    (established : s.times .connectEstablished conn + (if call = .connectEstablished then 1 else 0) =
      if state = .kConnecting then 0 else 1)
    (closed : s.times .handleClose conn + (if call = .handleClose then 1 else 0) =
      if state = .kDisconnected then 1 else 0)
    (starting : s.times .connectEstablished conn + (if call = .connectEstablished then 1 else 0) +
      s.waiting (.connectEstablished conn) + (if hand' = some (.connectEstablished conn) then 1 else 0) = 1)
    (removing : s.times .removeConnectionInLoop conn + (if call = .removeConnectionInLoop then 1 else 0) +
      s.waiting (.removeConnectionInLoop conn) +
        (if hand' = some (.removeConnectionInLoop conn) then 1 else 0) =
      s.times .handleClose conn + if call = .handleClose then 1 else 0)
    (destroying : s.times .connectDestroyed conn + (if call = .connectDestroyed then 1 else 0) +
      s.waiting (.connectDestroyed conn) + (if hand' = some (.connectDestroyed conn) then 1 else 0) =
      s.times .removeConnectionInLoop conn + if call = .removeConnectionInLoop then 1 else 0) :
    Flow (s.called state call conn thread) hand' conn where
  established := by rw [times_called, called_state]; exact established
  closed := by rw [times_called, called_state]; exact closed
  starting := by simpa [owed_called, RegistryFunctor.call, RegistryFunctor.conn] using starting
  removing := by simpa [owed_called, times_called, RegistryFunctor.call, RegistryFunctor.conn] using removing
  destroying := by
    simpa [owed_called, times_called, RegistryFunctor.call, RegistryFunctor.conn] using destroying

/-- While its `ConnectEstablished` is still in hand a connection is as `NewConnection` made it. -/
theorem Flow.connecting (flow : Flow s (some (.connectEstablished conn)) conn) :
    (s.conns conn).state = .kConnecting := by
  have starting := flow.sums.1
  have established := flow.established
  by_contra up
  -- the one call that is owed would have been made already
  rw [if_neg up] at established
  simp only [if_true] at starting
  omega

theorem Flow.disconnected (flow : Flow s hand conn) (closed : s.times .handleClose conn ≠ 0) :
    (s.conns conn).state = .kDisconnected := by
  by_contra up
  rw [flow.closed, if_neg up] at closed
  exact closed rfl

/-- `ConnectEstablished` finds the connection as `NewConnection` made it. -/
theorem connectEstablished_inv (inv : Inv cfg s (some (.connectEstablished conn))) :
    Safe (fun t => Inv cfg t none) (s.connectEstablished (s.conns conn).loop conn) := by
  have made : conn < s.created := inv.inHand _ rfl
  have flow := inv.flow conn made
  obtain ⟨starting, removing, destroying⟩ := flow.sums
  have established := flow.established
  have closed := flow.closed
  simp only [if_true, reduceCtorEq, Option.some.injEq, if_false] at starting removing destroying
  have fresh : (s.conns conn).state = .kConnecting := flow.connecting
  simp only [Registry.connectEstablished, safe_bind, safe_ensure, safe_pure]
  refine ⟨trivial, fresh, ?_⟩
  rw [fresh] at established closed
  apply inv.call none .kConnected .connectEstablished made (by rintro _ ⟨⟩)
  · rintro _ ⟨⟩
    rfl
  · simp
  · exact inv.map_same .connectEstablished (by simp) conn
  · apply flow_called <;> simp only [reduceCtorEq, if_true, if_false] at * <;> omega

/-- `HandleClose` up to its `closeCallback_`. -/
theorem Inv.handleClose (inv : Inv cfg s none) (made : conn < s.created)
    (up : (s.conns conn).state = .kConnected ∨ (s.conns conn).state = .kDisconnecting) :
    Inv cfg (s.called .kDisconnected .handleClose conn (s.conns conn).loop)
      (some (.removeConnectionInLoop conn)) := by
  have flow := inv.flow conn made
  obtain ⟨starting, removing, destroying⟩ := flow.sums
  have established : s.times .connectEstablished conn = 1 := by
    rw [flow.established]
    rcases up with up | up <;> simp [up]
  have closed : s.times .handleClose conn = 0 := by
    rw [flow.closed]
    rcases up with up | up <;> simp [up]
  apply inv.call _ .kDisconnected .handleClose made
  · intro needed need
    cases need
    omega
  · simp
  · rintro _ ⟨⟩
    rfl
  · exact inv.map_same .handleClose (by simp) conn
  · apply flow_called <;> simp only [Option.some.injEq, reduceCtorEq, if_true, if_false] at * <;> omega

theorem Inv.name_injective (inv : Inv cfg s hand) {conn' : ConnId} (made : conn < s.created)
    (made' : conn' < s.created) (same : (s.conns conn).name = (s.conns conn').name) : conn = conn' := by
  have few : s.created < 2 ^ 31 := Nat.lt_of_lt_of_le inv.few (by decide)
  rw [inv.names conn made, inv.names conn' made'] at same
  exact Nat.succ.inj (cfg.connName_injective (Nat.lt_of_le_of_lt made few) (Nat.lt_of_le_of_lt made' few) same)

/-- The map without the entry of one connection. -/
theorem Inv.map_erase (inv : Inv cfg s hand) (made : conn < s.created) (name : List Char) (conn' : ConnId) :
    Function.update s.connections (s.conns conn).name none name = some conn' ↔
      conn' < s.created ∧ (s.conns conn').name = name ∧ s.times .removeConnectionInLoop conn' +
        (if RegistryCall.removeConnectionInLoop = .removeConnectionInLoop ∧ conn = conn' then 1 else 0) = 0 := by
  by_cases erased : name = (s.conns conn).name
  · subst erased
    rw [Function.update_self]
    refine ⟨by simp, ?_⟩
    rintro ⟨there, same, uncalled⟩
    have this : conn = conn' := inv.name_injective made there same.symm
    simp [this] at uncalled
  · rw [Function.update_of_ne erased, inv.map]
    have other (same : (s.conns conn').name = name) : conn ≠ conn' := by
      rintro rfl
      exact erased same.symm
    constructor
    · rintro ⟨there, same, uncalled⟩
      exact ⟨there, same, by simpa [other same] using uncalled⟩
    · rintro ⟨there, same, uncalled⟩
      exact ⟨there, same, by simpa [other same] using uncalled⟩

/-- The entry that `RemoveConnectionInLoop` erases is there. -/
theorem removeConnectionInLoop_inv (inv : Inv cfg s (some (.removeConnectionInLoop conn)))
    (free : s.pushing 0 = none) :
    Safe (fun t => Inv cfg t none) (s.removeConnectionInLoop 0 conn) := by
  have made : conn < s.created := inv.inHand _ rfl
  have flow := inv.flow conn made
  obtain ⟨starting, removing, destroying⟩ := flow.sums
  have established := flow.established
  have closed := flow.closed
  simp only [if_true, reduceCtorEq, Option.some.injEq, if_false] at starting removing destroying
  have down : (s.conns conn).state = .kDisconnected := flow.disconnected (by omega)
  rw [down] at established closed
  simp only [reduceCtorEq, if_true, if_false] at established closed
  -- one `HandleClose`, and the removal it owes is the one in hand: none was made before
  have there : s.connections (s.conns conn).name = some conn :=
    (inv.map _ conn).mpr ⟨made, rfl, by omega⟩
  simp only [Registry.removeConnectionInLoop, safe_bind, safe_ensure, safe_pure]
  refine ⟨trivial, by simp [there], ?_⟩
  have erased : Inv cfg { s.called .kDisconnected .removeConnectionInLoop conn 0 with
      connections := Function.update s.connections (s.conns conn).name none }
      (some (.connectDestroyed conn)) := by
    apply inv.call _ .kDisconnected .removeConnectionInLoop made
    · intro needed need
      cases need
      omega
    · rintro _ ⟨⟩
      rfl
    · rintro _ ⟨⟩
      rfl
    · exact inv.map_erase made
    · apply flow_called <;> simp only [Option.some.injEq, reduceCtorEq, if_true, if_false] at * <;> omega
  have same : s.called .kDisconnected .removeConnectionInLoop conn 0 =
      s.record .removeConnectionInLoop conn 0 := by
    rw [called, ← down, setState_self]
  rw [same] at erased
  exact erased.queueInLoop free

/-- `ConnectDestroyed` finds the connection closed. -/
theorem connectDestroyed_inv (inv : Inv cfg s (some (.connectDestroyed conn))) :
    Safe (fun t => Inv cfg t none) (s.connectDestroyed (s.conns conn).loop conn) := by
  have made : conn < s.created := inv.inHand _ rfl
  have flow := inv.flow conn made
  obtain ⟨starting, removing, destroying⟩ := flow.sums
  have established := flow.established
  have closed := flow.closed
  simp only [if_true, reduceCtorEq, Option.some.injEq, if_false] at starting removing destroying
  have down : (s.conns conn).state = .kDisconnected := flow.disconnected (by omega)
  simp only [Registry.connectDestroyed, safe_bind, safe_ensure, safe_pure]
  refine ⟨trivial, ?_⟩
  -- the branch of `ConnectDestroyed` that closes a connection that is still up is not taken
  rw [if_neg (by simp [down])]
  nth_rewrite 1 [← setState_self s conn]
  rw [down] at established closed ⊢
  apply inv.call none .kDisconnected .connectDestroyed made
  · intro needed need
    cases need
    omega
  · rintro _ ⟨⟩
    rfl
  · simp
  · exact inv.map_same .connectDestroyed (by simp) conn
  · apply flow_called <;> simp only [reduceCtorEq, if_true, if_false] at * <;> omega

/-! ### Every step -/

theorem run_inv {f : RegistryFunctor} (inv : Inv cfg s (some f)) (free : s.pushing (s.home f) = none) :
    Safe (fun t => Inv cfg t none) (s.run (s.home f) f) := by
  cases f with
  | connectEstablished conn => exact connectEstablished_inv inv
  | removeConnectionInLoop conn => exact removeConnectionInLoop_inv inv free
  | connectDestroyed conn => exact connectDestroyed_inv inv

/-- In place or on the queue, the functor leaves the hand of the thread. -/
theorem runInLoop_inv {f : RegistryFunctor} (inv : Inv cfg s (some f)) (free : s.pushing (s.source f) = none) :
    Safe (fun t => Inv cfg t none) (s.runInLoop (s.source f) (s.home f) f) := by
  unfold runInLoop
  split
  next same =>
    rw [same] at free ⊢
    exact run_inv inv free
  next => exact inv.queueInLoop free

/-! ### A new connection -/

theorem create_conns {name : List Char} {ioLoop : LoopId} (made : conn < s.created) :
    (s.create name ioLoop).conns conn = s.conns conn :=
  Function.update_of_ne (Nat.ne_of_lt made) _ _

/-- Nothing was called for a connection that is not there yet. -/
theorem Inv.times_new (inv : Inv cfg s hand) (call : RegistryCall) : s.times call s.created = 0 := by
  apply List.countP_eq_zero.mpr
  intro r member
  have old := (inv.calls r member).1
  simp only [decide_eq_true_eq, not_and]
  intro _ new
  exact absurd old (by rw [new]; exact Nat.lt_irrefl _)

/-- Nor is anything on its way. -/
theorem Inv.waiting_new (inv : Inv cfg s hand) {name : List Char} {ioLoop : LoopId} {f : RegistryFunctor}
    (new : f.conn = s.created) : (s.create name ioLoop).waiting f = 0 := by
  have absent : ¬ f.conn < s.created := by
    rw [new]
    exact Nat.lt_irrefl _
  have queued (l : LoopId) : (s.loops l).queued.count f = 0 :=
    List.count_eq_zero.mpr fun member => absent (inv.queued l f member).1
  have pushing (l target : LoopId) : (s.pushing l).toList.count (target, f) = 0 := by
    apply List.count_eq_zero.mpr
    intro member
    exact absent (inv.pushing l target f (Option.mem_toList.mp member)).1
  exact congrArg₂ (· + ·) (queued _) (pushing _ _)

theorem Inv.map_create (inv : Inv cfg s none) (ioLoop : LoopId) (few : s.created + 1 < 2 ^ 31 - 1)
    (name : List Char) (conn : ConnId) :
    (s.create (cfg.connName s.nextConnId) ioLoop).connections name = some conn ↔
      conn < s.created + 1 ∧ ((s.create (cfg.connName s.nextConnId) ioLoop).conns conn).name = name ∧
        s.times .removeConnectionInLoop conn = 0 := by
  simp only [Registry.create]
  by_cases here : conn = s.created
  · subst here
    rw [Function.update_self, inv.times_new]
    by_cases same : name = cfg.connName s.nextConnId
    · subst same
      simp
    · rw [Function.update_of_ne same]
      constructor
      · intro found
        exact absurd ((inv.map name s.created).mp found).1 (Nat.lt_irrefl _)
      · rintro ⟨-, found, -⟩
        exact absurd found.symm same
  · rw [Function.update_of_ne here]
    have old (made : conn < s.created + 1) : conn < s.created :=
      Nat.lt_of_le_of_ne (Nat.le_of_lt_succ made) here
    by_cases same : name = cfg.connName s.nextConnId
    · subst same
      rw [Function.update_self]
      constructor
      · intro found
        exact absurd (Option.some.inj found).symm here
      · rintro ⟨made, found, -⟩
        -- no name is given twice
        have small : s.created + 1 < 2 ^ 31 := Nat.lt_of_lt_of_le few (by decide)
        rw [inv.names conn (old made), inv.ids] at found
        exact absurd (Nat.succ.inj (cfg.connName_injective (Nat.lt_trans (Nat.succ_lt_succ (old made)) small)
          small found)) here
    · rw [Function.update_of_ne same, inv.map]
      constructor
      · rintro ⟨made, rest⟩
        exact ⟨Nat.lt_succ_of_lt made, rest⟩
      · rintro ⟨made, rest⟩
        exact ⟨old made, rest⟩

/-- A new connection owes its `ConnectEstablished`. -/
theorem Inv.create (inv : Inv cfg s none) (ioLoop : LoopId) (few : s.created + 1 < 2 ^ 31 - 1) :
    Inv cfg (s.create (cfg.connName s.nextConnId) ioLoop) (some (.connectEstablished s.created)) := by
  have split (conn : ConnId) (made : conn < s.created + 1) : conn < s.created ∨ conn = s.created :=
    Nat.lt_succ_iff_lt_or_eq.mp made
  refine ⟨congrArg (· + 1) inv.ids, few, fun conn made => ?_, inv.map_create ioLoop few, fun f same => ?_,
    fun l f member => ?_, fun l target f flying => ?_, fun conn made => ?_, fun r member => ?_, inv.causal⟩
  · rcases split conn made with old | rfl
    · rw [create_conns old]
      exact inv.names conn old
    · simp [Registry.create, inv.ids]
  · rw [← Option.some.inj same]
    exact Nat.lt_succ_self _
  · obtain ⟨old, here⟩ := inv.queued l f member
    exact ⟨Nat.lt_succ_of_lt old, here.trans (home_congr (by rw [create_conns old])).symm⟩
  · obtain ⟨old, here, origin⟩ := inv.pushing l target f flying
    exact ⟨Nat.lt_succ_of_lt old, here.trans (home_congr (by rw [create_conns old])).symm,
      origin.trans (source_congr (by rw [create_conns old])).symm⟩
  · rcases split conn made with old | rfl
    · refine (inv.flow conn old).congr (fun _ => rfl) (by rw [create_conns old]) fun f here => ?_
      have waits : (s.create (cfg.connName s.nextConnId) ioLoop).waiting f = s.waiting f :=
        waiting_congr (by rw [here, create_conns old]) rfl rfl
      have other : some (RegistryFunctor.connectEstablished s.created) ≠ some f := by
        intro same
        rw [← Option.some.inj same] at here
        exact Nat.ne_of_gt old here
      rw [owed, owed_none, waits, if_neg other]
      rfl
    · -- of the new connection nothing was called, and its `ConnectEstablished` is in hand
      have uncalled (call : RegistryCall) :
          (s.create (cfg.connName s.nextConnId) ioLoop).times call s.created = 0 := inv.times_new call
      have state : ((s.create (cfg.connName s.nextConnId) ioLoop).conns s.created).state = .kConnecting := by
        simp [Registry.create]
      constructor
      · rw [uncalled, state]
        rfl
      · rw [uncalled, state]
        rfl
      · rw [owed, inv.waiting_new rfl, if_pos rfl]
        exact congrArg (· + 0 + 1) (uncalled _)
      · rw [owed, inv.waiting_new rfl, if_neg (by simp)]
        exact (uncalled _).trans (uncalled _).symm
      · rw [owed, inv.waiting_new rfl, if_neg (by simp)]
        exact (uncalled _).trans (uncalled _).symm
  · obtain ⟨old, thread⟩ := inv.calls r member
    refine ⟨Nat.lt_succ_of_lt old, thread.trans ?_⟩
    unfold threadOf
    rw [create_conns old]

theorem newConnection_inv (inv : Inv cfg s none) (free : s.pushing 0 = none)
    (few : s.created + 1 < 2 ^ 31 - 1) : Safe (fun t => Inv cfg t none) (s.newConnection cfg) := by
  -- choosing the loop moves `next_` of the pool and nothing else
  obtain ⟨ioLoop, s', chosen⟩ : ∃ ioLoop s', s.getNextLoop cfg.numThreads = (ioLoop, s') := ⟨_, _, rfl⟩
  have kept : Inv cfg s' none ∧ s'.pushing = s.pushing ∧ s'.created = s.created := by
    unfold getNextLoop at chosen
    split at chosen
    · obtain ⟨-, rfl⟩ := Prod.mk.inj chosen
      exact ⟨inv, rfl, rfl⟩
    · obtain ⟨-, rfl⟩ := Prod.mk.inj chosen
      exact ⟨{ inv with flow := fun conn made => { inv.flow conn made with } }, rfl, rfl⟩
  obtain ⟨inv', pushing, created⟩ := kept
  have next := inv'.ids
  simp only [newConnection, chosen, safe_bind, safe_ensure]
  refine ⟨by omega, ?_⟩
  have made := inv'.create ioLoop (by rw [created]; exact few)
  have home : (s'.create (cfg.connName s'.nextConnId) ioLoop).home (.connectEstablished s'.created) = ioLoop := by
    simp [Registry.home, Registry.create]
  have called := runInLoop_inv made (by rw [← free, ← pushing]; rfl)
  rw [home] at called
  exact called

theorem handleClose_inv (inv : Inv cfg s none) (made : conn < s.created)
    (free : s.pushing (s.conns conn).loop = none)
    (up : (s.conns conn).state = .kConnected ∨ (s.conns conn).state = .kDisconnecting) :
    Safe (fun t => Inv cfg t none) (s.handleClose (s.conns conn).loop conn) := by
  simp only [Registry.handleClose, safe_bind, safe_ensure]
  refine ⟨trivial, up, ?_⟩
  have closed := inv.handleClose made up
  have source : (s.called .kDisconnected .handleClose conn (s.conns conn).loop).source
      (.removeConnectionInLoop conn) = (s.conns conn).loop := setState_loop s conn conn .kDisconnected
  have removed := runInLoop_inv closed (by rw [source]; exact free)
  rw [source] at removed
  exact removed

/-- `Shutdown()` leaves the connection up. -/
theorem shutdown_inv (inv : Inv cfg s none) (conn : ConnId) :
    Safe (fun t => Inv cfg t none) (s.shutdown conn) := by
  simp only [shutdown, safe_bind, safe_require, safe_pure]
  intro made
  split
  next connected => exact inv.setState .kDisconnecting (by simp [connected]) (by simp [connected])
  next => exact inv

/-- Every step within the bounds keeps the invariant, and no assert fails in it. -/
theorem step_inv (s : Registry) (a : Action) (inv : Inv cfg s none) (within : s.Within a) :
    Safe (fun t => Inv cfg t none) (s.step cfg a) := by
  cases a with
  | newConnection =>
    simp only [step, safe_bind, safe_require]
    exact fun free => newConnection_inv inv free within
  | handleClose conn =>
    simp only [step, safe_bind, safe_require]
    exact fun ready => handleClose_inv inv ready.1 ready.2 within
  | shutdown conn => exact shutdown_inv inv conn
  | push thread =>
    simp only [step, safe_bind, safe_given, safe_pure]
    exact fun issued flying => inv.push flying
  | poll l =>
    simp only [step, Registry.turn, safe_bind, safe_require, safe_pure]
    exact fun _ => (EventLoop.poll_safe _).mono fun _ same => inv.turn same
  | swap l =>
    simp only [step, Registry.turn, safe_bind, safe_require, safe_pure]
    exact fun _ => (EventLoop.swap_safe _).mono fun _ same => inv.turn same
  | finish l =>
    simp only [step, Registry.turn, safe_bind, safe_require, safe_pure]
    exact fun _ => (EventLoop.finish_safe _).mono fun _ same => inv.turn same
  | next l =>
    simp only [step, safe_bind, safe_require]
    intro free
    refine (EventLoop.next_safe _).mono fun taken order => ?_
    obtain ⟨here, inHand⟩ := inv.next order.2.1
    have home : (s.setLoop l taken.2).home taken.1 = l := here.symm
    have run := run_inv inHand (by rw [home]; exact free)
    rw [home] at run
    exact run

/-! ### Whole runs -/

/-- In every run with fewer than `2^31 - 1` accepts and with closes of connections that are up: no
assert fails, neither that the erased entry was there nor that a call is made in its thread. Names are
whole and differ. The map has the connections that `RemoveConnectionInLoop` has not processed.
`ConnectEstablished` was called or is on its way, once in all, and `ConnectDestroyed` at most once. Every
call was made in the thread of its loop, after the call before it in the life of the connection:
`HandleClose` after `ConnectEstablished`, `ConnectDestroyed` after the entry was erased. -/
theorem registry_consistent (cfg : ServerConfig) (acts : List Action)
    (within : Run.Meets (step cfg) Within start acts) :
    Safe (fun s =>
        (∀ conn < s.created, (s.conns conn).name =
          cfg.name ++ ('-' :: cfg.ipPort ++ '#' :: decimal (conn + 1))) ∧
        (∀ conn < s.created, ∀ conn' < s.created,
          (s.conns conn).name = (s.conns conn').name → conn = conn') ∧
        (∀ name conn, s.connections name = some conn ↔
          conn < s.created ∧ (s.conns conn).name = name ∧ s.times .removeConnectionInLoop conn = 0) ∧
        (∀ conn < s.created,
          s.times .connectEstablished conn + s.waiting (.connectEstablished conn) = 1 ∧
          s.times .connectDestroyed conn ≤ 1) ∧
        (∀ r ∈ s.calls, r.thread = s.threadOf r.call r.conn) ∧ Causal s.calls)
      (Run.exec (step cfg) start acts) := by
  have safe : Safe (fun s => Inv cfg s none) (Run.exec (step cfg) start acts) :=
    Run.exec_safe step_inv start acts (inv_start cfg) within
  refine safe.mono fun s inv => ?_
  refine ⟨fun conn made => ?_, fun conn made conn' made' => inv.name_injective made made', inv.map,
    fun conn made => ?_, fun r member => (inv.calls r member).2, inv.causal⟩
  · have few : s.created < 2 ^ 31 := Nat.lt_of_lt_of_le inv.few (by decide)
    rw [inv.names conn made, cfg.connName_eq (Nat.lt_of_le_of_lt made few)]
  · have flow := inv.flow conn made
    refine ⟨flow.starting, ?_⟩
    obtain ⟨-, removing, destroying⟩ := flow.sums
    have closed : s.times .handleClose conn ≤ 1 := by
      rw [flow.closed]
      split <;> decide
    omega

/-- A server with two threads, at a loopback address. -/
def twoThreads : ServerConfig := ⟨['e', 'c', 'h', 'o'], ['[', ':', ':', '1', ']', ':', '7'], 2, by decide⟩

/-- Two connections on two loops. The second one is closed and removed before the first one is
established. -/
def secondClosedFirst : List Action :=
  [.newConnection, .push 0, .newConnection, .push 0, .poll 2, .swap 2, .next 2, .finish 2, .shutdown 1, .poll 2,
    .handleClose 1, .push 2, .poll 0, .swap 0, .next 0, .push 0, .swap 2, .next 2, .poll 1, .swap 1, .next 1]

theorem registry_consistent_secondClosedFirst :
    Run.Meets (step twoThreads) Within start secondClosedFirst ∧
    ∃ s, Run.exec (step twoThreads) start secondClosedFirst = .ok s ∧ s.created = 2 ∧
      s.calls.map CallRecord.conn = [1, 1, 1, 1, 0] ∧ (s.conns 0).name ≠ (s.conns 1).name ∧
      s.times .connectEstablished 0 + s.waiting (.connectEstablished 0) = 1 ∧ Causal s.calls := by
  have within : Run.Meets (step twoThreads) Within start secondClosedFirst := by decide +kernel
  have last : (Run.exec (step twoThreads) start secondClosedFirst).toOption.map
      (fun s => (s.created, s.calls.map CallRecord.conn)) = some (2, [1, 1, 1, 1, 0]) := by decide +kernel
  obtain ⟨s, reached, ended⟩ := returned_of_map last
  simp only [Prod.mk.injEq] at ended
  obtain ⟨two, calls⟩ := ended
  obtain ⟨-, distinct, -, once, -, causal⟩ :=
    (registry_consistent twoThreads secondClosedFirst within).result reached
  have first : 0 < s.created := by omega
  have second : 1 < s.created := by omega
  refine ⟨within, s, reached, two, calls, fun same => ?_, (once 0 first).1, causal⟩
  cases distinct 0 first 1 second same

end Registry

end Rnet.Network
