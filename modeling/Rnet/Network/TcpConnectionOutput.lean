import Rnet.Network.ConnectionEffect
import Rnet.Network.OutgoingStream

/-!
# The outgoing half of the code

`view` forgets what the outgoing half does not depend on. `Effect.steps` goes through what a step
of a connection may do: each is a step of `OutStream`, or cannot be seen. The integrity of the
stream then carries over to every run.
-/
namespace Rnet.Network

open Check File

def ConnFunctor.outgoing : ConnFunctor → Option Outgoing
  | .sendInLoop message => some (.message message)
  | .shutdownInLoop => some .shutdown
  | _ => none

namespace Connection

open OutStream (Steps Step Move Ends Origin Permits)

def view (s : Connection) : OutStream where
  state := s.state
  writing := s.channel.isWriting
  backlog := s.outputBuffer.content
  wire := s.wire
  processed := s.processed
  calls := s.calls
  queue := s.loop.queued.filterMap ConnFunctor.outgoing
  inFlight t := (s.loop.inFlight t).bind ConnFunctor.outgoing
  shutdowns := s.shutdowns
  lateWrites := s.lateWrites

variable {p : Permits} {s t : Connection}

/-! ### How the results of the functions look -/

theorem queueInLoop_view (s : Connection) {f : ConnFunctor} (other : f.outgoing = none) :
    (s.queueInLoop f).view = s.view := by
  simp [view, queueInLoop, List.filterMap_append, other]

/-- Changing the mask changes whether the channel asks for write events, and nothing else that
can be seen. -/
theorem setMask_view (s : Connection) (events : Events) :
    (s.setMask events).view = { s.view with writing := Flags.has events kWriteEvent } := rfl

theorem opened_view (s : Connection) : s.opened.view = { s.view with state := .kConnected } := by
  have same : Flags.has (s.channel.events ||| kReadEvent) kWriteEvent = s.channel.isWriting :=
    Flags.has_set_of_disjoint s.channel.events (by decide)
  rw [opened]
  change view (setMask _ _) = _
  rw [setMask_view, same]
  rfl

theorem closed_view (s : Connection) : s.closed.view = s.view.down :=
  setMask_view { s with state := .kDisconnected, closes := s.closes + 1 } kNoneEvent

theorem destroyed_view (s : Connection) : s.destroyed.view = s.view.down :=
  setMask_view { s with state := .kDisconnected, destroys := s.destroys + 1 } kNoneEvent

theorem released_view (s : Connection) : s.released.view = s.view :=
  queueInLoop_view { s with inMap := false } rfl

theorem SetsReading.view_eq (sets : s.SetsReading t) : t.view = s.view := by
  cases sets with
  | same => rfl
  | start =>
    have same : Flags.has (s.channel.events ||| kReadEvent) kWriteEvent = s.channel.isWriting :=
      Flags.has_set_of_disjoint s.channel.events (by decide)
    exact congrArg (fun writing => { s.view with writing := writing }) same
  | stop =>
    have same : Flags.has (s.channel.events &&& ~~~kReadEvent) kWriteEvent = s.channel.isWriting :=
      Flags.has_clear_of_disjoint s.channel.events (by decide)
    exact congrArg (fun writing => { s.view with writing := writing }) same

theorem completed_view (s : Connection) : s.completed.view = s.view := by
  unfold completed
  split
  · exact s.queueInLoop_view rfl
  · rfl

theorem crossHighWaterMark_view (s : Connection) (remaining : Nat) :
    (s.crossHighWaterMark remaining).view = s.view := by
  unfold crossHighWaterMark
  dsimp only
  split
  · exact s.queueInLoop_view rfl
  · rfl

theorem append_view (s : Connection) (rest : List Byte) :
    view { s with outputBuffer := s.outputBuffer.append rest } =
      { s.view with backlog := s.view.backlog ++ rest } := by
  simp [view]

theorem keep_view (s : Connection) (rest : List Byte) : (s.keep rest).view = s.view.keep rest := by
  unfold keep
  split
  next nothing => rw [nothing, OutStream.keep_nil]
  next something =>
    have kept : s.view.keep rest = { s.view with backlog := s.view.backlog ++ rest, writing := true } := by
      simp [OutStream.keep, something]
    have seen := append_view (s.crossHighWaterMark rest.length) rest
    rw [crossHighWaterMark_view] at seen
    rw [kept, buffered]
    dsimp only
    split
    next writing =>
      have busy : s.view.writing = true := by
        rw [← crossHighWaterMark_view s rest.length]
        exact writing
      rw [seen, ← busy]
    next =>
      rw [setMask_view, seen, Flags.has_set_self _ _ (by decide)]

/-- The kernel took `n` bytes and `Retrieve` has dropped them. -/
theorem retrieved_view (s : Connection) {n : Nat} {out : OwnedBuffer}
    (left : out.content = s.outputBuffer.content.drop n) (writing : Bool)
    (asks : writing = !(s.outputBuffer.content.drop n).isEmpty) :
    { (s.retrieved n out).view with writing := writing } =
      (s.view.wrote (s.view.backlog.take n)).drained n := by
  subst asks
  have seen : (s.retrieved n out).view =
      { s.view.wrote (s.view.backlog.take n) with backlog := out.content } := rfl
  rw [seen, left]
  rfl

theorem shutdownInLoop_view (s : Connection) :
    s.shutdownInLoop.view = if s.channel.isWriting then s.view else s.view.shut := by
  unfold shutdownInLoop
  cases s.channel.isWriting <;> rfl

theorem drained_view (s : Connection) : s.drained.view =
    if s.state = .kDisconnecting then { s.view with writing := false }.shut
    else { s.view with writing := false } := by
  have seen : (s.setMask (s.channel.events &&& ~~~kWriteEvent)).completed.view =
      { s.view with writing := false } := by
    rw [completed_view, setMask_view, Flags.has_clear_self]
  have state : (s.setMask (s.channel.events &&& ~~~kWriteEvent)).completed.state = s.state :=
    congrArg OutStream.state seen
  rw [drained, state, ← seen]
  split <;> rfl

/-! ### Sending and writing -/

theorem idle_iff (s : Connection) : s.Idle ↔ s.view.direct = true := by
  simp only [Idle, OutStream.direct, view, ← OwnedBuffer.content_length]
  cases s.outputBuffer.content <;> simp

/-- A message that came to `DoSendInLoop` is taken into the stream, or given up after the end. -/
theorem Sends.move {v : OutStream} {m : Message} {answer : WriteResult} (sends : s.Sends m answer t)
    (origin : Origin v m s.view) (loses : answer.Breaks → p.lose) : Move p v t.view := by
  have same := origin.sameBytes
  have direct : s.Idle ↔ v.direct = true := by
    rw [idle_iff, OutStream.direct, OutStream.direct, same.writing, same.backlog]
  have up (stays : s.state ≠ .kDisconnected) : v.state ≠ .kDisconnected := same.state ▸ stays
  cases sends with
  | givenUp _ down => exact origin.giveUp (same.state.symm.trans down)
  | buffered _ stays waits =>
    rw [keep_view]
    exact .buffer m origin (up stays) (by simpa [direct] using waits)
  | refused _ stays idle =>
    rw [keep_view]
    exact .write m 0 origin (up stays) (direct.mp idle)
  | lost _ stays idle breaks => exact .lose m (loses breaks) origin (up stays) (direct.mp idle)
  | part n stays idle =>
    rw [keep_view]
    exact .write m n origin (up stays) (direct.mp idle)
  | whole stays idle =>
    have write := Move.write (p := p) m m.data.length origin (up stays) (direct.mp idle)
    rw [List.take_length, List.drop_length, OutStream.keep_nil] at write
    rw [completed_view]
    exact write

theorem Writes.steps {answer : WriteResult} (writes : s.Writes answer t)
    (shuts : s.state = .kDisconnecting → s.Drains answer → p.shut s.view) : Steps p s.view t.view := by
  cases writes with
  | unasked => exact .refl
  | nothing _ busy => exact .single (.move (.attempt busy))
  | part n out busy _ less left =>
    have waits : s.outputBuffer.content.drop n ≠ [] := by
      rw [ne_eq, List.drop_eq_nil_iff, OwnedBuffer.content_length]
      omega
    have seen := s.retrieved_view left true (by simpa using waits)
    have same : (s.retrieved n out).view.writing = true := busy
    rw [← same] at seen
    have drain := Move.drain (p := p) (v := s.view) n busy
    rw [← seen] at drain
    exact .single (.move drain)
  | last n out busy positive all left =>
    have nothing : s.outputBuffer.content.drop n = [] := by
      rw [List.drop_eq_nil_iff, OwnedBuffer.content_length, all]
    have seen := s.retrieved_view (left.trans nothing.symm) false (by rw [nothing]; rfl)
    rw [drained_view, seen]
    split
    next leaving =>
      have drains : s.Drains (.count n) := ⟨busy, all ▸ positive, by rw [all]⟩
      exact .single (.shut (shuts leaving drains) (.drained n leaving busy nothing))
    next => exact .single (.move (.drain n busy))

/-! ### Steps -/

/-- `DoPendingFunctors` has taken `f` from the queue. -/
theorem Next.view_eq {f : ConnFunctor} {rest : List ConnFunctor} (next : s.Next f rest) :
    s.view = { (s.popped rest).view with queue := f.outgoing.toList ++ (s.popped rest).view.queue } := by
  simp only [view, popped, EventLoop.queued, next.functors, List.cons_append, List.filterMap_cons]
  cases f.outgoing <;> rfl

theorem Next.view_same {f : ConnFunctor} {rest : List ConnFunctor} (next : s.Next f rest)
    (other : f.outgoing = none) : (s.popped rest).view = s.view := by
  rw [next.view_eq, other]
  rfl

/-- The view while thread `t` is about to push `f`. -/
theorem entered_view (s : Connection) (t : Tid) (f : ConnFunctor) :
    (s.entered t f).view = { s.view with inFlight := Function.update s.view.inFlight t f.outgoing } := by
  have seen : (fun u => (Function.update s.loop.inFlight t (some f) u).bind ConnFunctor.outgoing) =
      Function.update s.view.inFlight t f.outgoing := by
    funext u
    by_cases same : u = t
    · subst same
      simp
    · simp [same, view]
  simp only [view, entered, EventLoop.queued, seen]

/-- A functor that does not concern the outgoing half is entered unseen. -/
theorem entered_view_same (s : Connection) {t : Tid} {f : ConnFunctor} (free : s.loop.inFlight t = none)
    (other : f.outgoing = none) : (s.entered t f).view = s.view := by
  have unseen : s.view.inFlight t = none := by simp [view, free]
  rw [entered_view, other, ← unseen, Function.update_eq_self]

theorem push_steps {t : Tid} {f : ConnFunctor} (found : s.loop.inFlight t = some f) :
    Steps p s.view (view { s with loop := { s.loop with
      pendingFunctors := s.loop.pendingFunctors ++ [f], inFlight := Function.update s.loop.inFlight t none } }) := by
  have seen : (fun u => (Function.update s.loop.inFlight t none u).bind ConnFunctor.outgoing) =
      Function.update s.view.inFlight t none := by
    funext u
    by_cases same : u = t
    · subst same
      simp
    · simp [same, view]
  cases outgoing : f.outgoing with
  | none =>
    -- nothing that can be seen was in flight
    have free : s.view.inFlight t = none := by simp [view, found, outgoing]
    rw [← free, Function.update_eq_self] at seen
    simp only [view, EventLoop.queued, ← List.append_assoc, List.filterMap_append, List.filterMap_cons, outgoing,
      List.filterMap_nil, List.append_nil, seen]
    exact .refl
  | some x =>
    have flying : s.view.inFlight t = some x := by simp [view, found, outgoing]
    have push := Move.push (p := p) t x flying
    simp only [view, EventLoop.queued, ← List.append_assoc, List.filterMap_append, List.filterMap_cons, outgoing,
      List.filterMap_nil, seen] at push ⊢
    exact .single (.move push)

/-- A shutdown that is asked for while nothing waits, and one that has to wait. -/
theorem shutdownNow_steps (connected : s.state = .kConnected)
    (shuts : s.channel.isWriting = false → p.shut s.view) :
    Steps p s.view { s with state := .kDisconnecting }.shutdownInLoop.view := by
  rw [shutdownInLoop_view]
  split
  · exact .single (.move (.disconnecting (Or.inl connected)))
  next quiet =>
    have idle : s.channel.isWriting = false := eq_false_of_ne_true quiet
    exact .single (.shut (shuts idle) (.asked connected idle))

theorem runShutdown_steps {rest : List ConnFunctor} (next : s.Next .shutdownInLoop rest)
    (shuts : s.channel.isWriting = false → p.shut s.view) :
    Steps p s.view (s.popped rest).shutdownInLoop.view := by
  have head : s.view.queue = .shutdown :: (s.popped rest).view.queue := congrArg OutStream.queue next.view_eq
  have popped : (s.popped rest).view = { s.view with queue := (s.popped rest).view.queue } := by
    rw [next.view_eq]
  rw [shutdownInLoop_view]
  split
  · rw [popped]
    exact .single (.move (.dropShutdown _ head))
  next quiet =>
    have idle : s.channel.isWriting = false := eq_false_of_ne_true quiet
    rw [popped]
    exact .single (.shut (shuts idle) (.queued _ head idle))

/-- Every step of a connection is a step of the stream, or none, as far as `p` permits what the
step does. -/
theorem Effect.steps {a : Action} (effect : s.Effect a t) (loses : a.Breaks → p.lose)
    (closes : a.TakesDown s → p.close) (shuts : a.Shuts s → p.shut s.view) : Steps p s.view t.view := by
  have closed {u : Connection} (up : s.Up) (takesDown : a.TakesDown s) (seen : u.view = s.view.down) :
      Steps p s.view u.view := by
    rw [seen]
    exact .single (.move (.close (closes takesDown) up))
  have unseen {u : Connection} (seen : u.view = s.view) : Steps p s.view u.view := seen ▸ .refl
  cases effect with
  | sendNow _ data _ _ _ up sends => exact .single (.move (sends.move (.own up rfl) loses))
  | shutdownNow _ up => exact shutdownNow_steps up fun idle => shuts ⟨up, idle⟩
  | forceCloseNow _ up =>
    rw [queueInLoop_view _ rfl]
    exact .single (.move (.disconnecting up))
  | readNow _ _ _ sets => exact unseen sets.view_eq
  | sendLater t _ data _ up free =>
    rw [entered_view]
    exact .single (.move (.accept t ⟨some t, data⟩ up rfl (by simp [view, free])))
  | shutdownLater t up free =>
    rw [entered_view]
    exact .single (.move (.requestShutdown t up (by simp [view, free])))
  | forceCloseLater t up free =>
    rw [entered_view_same { s with state := .kDisconnecting } (f := .forceCloseInLoop) free rfl]
    exact .single (.move (.disconnecting up))
  | readLater t _ f which free =>
    have other : f.outgoing = none := by rcases which with rfl | rfl <;> rfl
    exact unseen (entered_view_same s free other)
  | push t f found => exact push_steps found
  | hangUp _ _ hungUp up => exact closed up (Or.inl (by simp [Action.closes, hungUp])) (closed_view s.dispatching)
  | swap _ _ empty => exact unseen (by simp [view, EventLoop.queued, empty])
  | establish _ _ rest _ fresh =>
    rw [opened_view]
    exact .single (.move (.establish fresh))
  | releaseHere => exact unseen (released_view _)
  | release => exact unseen (released_view _)
  | readEnd answer rest top readable up =>
    have ends : Action.readsEnd s (.resume (.delivered []) answer) = true := by simp [Action.readsEnd, top, readable]
    exact closed up (Or.inl (by simp [Action.closes, ends])) (closed_view _)
  | write read answer rest after top reported writes =>
    have written : Steps p s.view after.view :=
      writes.steps fun leaving drains => shuts ⟨by simp [top], reported, leaving, drains⟩
    exact written
  | runEstablished _ rest next fresh =>
    rw [opened_view, next.view_same rfl]
    exact .single (.move (.establish fresh))
  | runDestroyed answer rest next connected =>
    have runs : Action.runs s (.next answer) = some .connectDestroyed := by simp [Action.runs, next.functors]
    refine closed (Or.inl connected) (Or.inr ⟨runs, connected⟩) ?_
    rw [destroyed_view, next.view_same rfl]
  | runRemoved _ rest next => exact unseen (next.view_same rfl)
  | runSend m _ rest after next sends =>
    have head : s.view.queue = .message m :: (s.popped rest).view.queue := congrArg OutStream.queue next.view_eq
    have origin : Origin s.view m { s.view with queue := (s.popped rest).view.queue } := .queued _ head
    have popped : { s.view with queue := (s.popped rest).view.queue } = (s.popped rest).view := by
      rw [next.view_eq]
    rw [popped] at origin
    exact .single (.move (sends.move origin loses))
  | runShutdown _ rest next =>
    exact runShutdown_steps next fun idle => shuts ⟨by simp [next.functors], idle⟩
  | runForceClose answer rest next up =>
    have closes : Action.closes s (.next answer) = true := by
      have isUp : s.state = .kConnected ∨ s.state = .kDisconnecting := up
      simp [Action.closes, next.functors, isUp]
    refine closed up (Or.inl closes) ?_
    rw [closed_view, next.view_same rfl]
  | passForceClose _ rest next => exact unseen (next.view_same rfl)
  | runRead f _ rest after next which sets =>
    have other : f.outgoing = none := by rcases which with rfl | rfl <;> rfl
    exact unseen (sets.view_eq.trans (next.view_same other))
  | notify f _ rest next notice =>
    have other : f.outgoing = none := by rcases notice with rfl | ⟨size, rfl⟩ <;> rfl
    exact unseen (next.view_same other)
  | ignore | ignoreCall | poll | report | dispatch | finish | leave | reportClose | remove | passRead | read
  | passWrite | retrieve => exact .refl

/-- Nothing is forbidden. -/
def anything : Permits := ⟨fun _ => True, True, True⟩

/-- Every step is a step of the stream, or none. -/
theorem Effect.steps_anyhow {a : Action} (effect : s.Effect a t) : Steps anything s.view t.view :=
  effect.steps (fun _ => trivial) (fun _ => trivial) fun _ => trivial

end Connection

end Rnet.Network
