import Rnet.Lib.Run
import Rnet.Network.Loop

/-!
# The functor queue of a running loop

Three results about every run of a loop with any number of threads. No functor is lost or called
twice, and the order is that of the mutex; a loop never sleeps on a functor; and the machine
refines the functor queue that the other components are stated over.
-/
namespace Rnet.Network.Loop

open Check

variable {F : Type} {l t : Loop F} {a : Action F}

/-! ### What a step does -/

/-- Every step that is taken, with what it found. -/
inductive Step (l : Loop F) : Action F → Loop F → Prop where
  | loop : l.waking = false → l.point = .outside →
    Step l .loop { l with point := .test, looping := true, quit := false }
  | leave : l.waking = false → l.point = .test → l.quit = true →
    Step l .test { l with point := .outside, looping := false }
  | stay : l.waking = false → l.point = .test → l.quit = false →
    Step l .test { l with point := .polling }
  | poll (wakeup : Bool) : l.waking = false → l.point = .polling →
    Step l (.poll wakeup) { l with point := .handling, wakeupActive := wakeup }
  | handleWakeUp : l.waking = false → l.point = .handling →
    Step l .handleWakeUp { l with wakeups := 0, wakeupActive := false }
  | doPendingFunctors : l.waking = false → l.point = .handling →
    Step l .doPendingFunctors { l with point := .calling, callingPendingFunctors := true }
  | swap : l.waking = false → l.point = .calling → Step l .swap { l with
      point := .running
      functors := l.pendingFunctors
      pendingFunctors := []
      round := ⟨l.pendingFunctors, []⟩ }
  | next (f : F) (rest : List F) : l.waking = false → l.point = .running → l.functors = f :: rest →
    Step l .next { l with
      functors := rest
      invoked := l.invoked ++ [f]
      round := { l.round with invoked := l.round.invoked ++ [f] } }
  | finish : l.waking = false → l.point = .running → l.functors = [] → Step l .finish { l with
      point := .test, callingPendingFunctors := false, rounds := l.rounds ++ [l.round] }
  | queueInLoop (f : F) : l.waking = false → l.UserCode →
    Step l (.queueInLoop f) { l.push f with waking := l.callingPendingFunctors }
  | wakeup : l.waking = true → Step l .wakeup { l.wakeup with waking := false }
  | quit : l.waking = false → l.UserCode → Step l .quit l.setQuit
  | callQueueInLoop (t : Tid) (f : F) : l.callers t = .idle →
    Step l (.callQueueInLoop t f) (l.setCaller t (.queueing f))
  | callPush (t : Tid) (f : F) : l.callers t = .queueing f →
    Step l (.callPush t) ((l.push f).setCaller t .pushed)
  | callQuit (t : Tid) : l.callers t = .idle →
    Step l (.callQuit t) (l.setQuit.setCaller t .quitting)
  | callWakeup (t : Tid) : l.callers t = .pushed ∨ l.callers t = .quitting →
    Step l (.callWakeup t) (l.wakeup.setCaller t .idle)

theorem isIdle_eq {c : Caller F} (idle : isIdle c = true) : c = .idle := by
  cases c <;> simp_all [isIdle]

theorem step_spec (l : Loop F) (a : Action F) : Yields (Step l a) (l.step a) := by
  cases a with
  | loop =>
    simp only [step, Loop.loop, yields_bind, yields_require, yields_ensure, yields_pure]
    exact fun idle outside _ => .loop idle outside
  | test =>
    simp only [step, test, yields_bind, yields_require]
    intro idle point
    split
    next quit => exact (yields_pure _ _).mpr (.leave idle point quit)
    next stay => exact (yields_pure _ _).mpr (.stay idle point (by simpa using stay))
  | poll wakeup =>
    simp only [step, Loop.poll, yields_bind, yields_require, yields_pure]
    exact fun idle point => .poll wakeup idle point.1
  | handleWakeUp =>
    simp only [step, Loop.handleWakeUp, yields_bind, yields_require, yields_pure]
    exact fun idle point => .handleWakeUp idle point.1
  | doPendingFunctors =>
    simp only [step, Loop.doPendingFunctors, yields_bind, yields_require, yields_pure]
    exact fun idle point => .doPendingFunctors idle point.1
  | swap =>
    simp only [step, Loop.swap, yields_bind, yields_require, yields_pure]
    exact fun idle point => .swap idle point
  | next =>
    simp only [step, Loop.next, yields_bind, yields_require]
    intro idle point
    split
    next => exact yields_error _ _
    next f rest found => exact (yields_pure _ _).mpr (.next f rest idle point found)
  | finish =>
    simp only [step, Loop.finish, yields_bind, yields_require, yields_pure]
    exact fun idle point => .finish idle point.1 point.2
  | queueInLoop f =>
    simp only [step, Loop.queueInLoop, yields_bind, yields_require, yields_pure]
    exact fun idle user => .queueInLoop f idle user
  | wakeup =>
    simp only [step, yields_bind, yields_require, yields_pure]
    exact fun waking => .wakeup waking
  | quit =>
    simp only [step, yields_bind, yields_require, yields_pure]
    exact fun user => .quit user.1 user.2
  | callQueueInLoop t f =>
    simp only [step, yields_bind, yields_require, yields_pure]
    exact fun idle => .callQueueInLoop t f (isIdle_eq idle)
  | callPush t =>
    simp only [step, Loop.callPush]
    split
    next f found => exact (yields_pure _ _).mpr (.callPush t f found)
    next => exact yields_error _ _
  | callQuit t =>
    simp only [step, yields_bind, yields_require, yields_pure]
    exact fun idle => .callQuit t (isIdle_eq idle)
  | callWakeup t =>
    simp only [step, Loop.callWakeup]
    split
    next found => exact (yields_pure _ _).mpr (.callWakeup t (Or.inl found))
    next found => exact (yields_pure _ _).mpr (.callWakeup t (Or.inr found))
    next => exact yields_error _ _

/-! ### Every functor once and in order -/

/-- What was pushed was invoked, is in the batch of the running `DoPendingFunctors`, or is pending,
in this order; and a call of `DoPendingFunctors` invokes what the queue held at its swap. -/
structure Ordered (l : Loop F) : Prop where
  order : l.pushed = l.invoked ++ l.functors ++ l.pendingFunctors
  batch : l.point ≠ .running → l.functors = []
  round : l.point = .running → l.round.held = l.round.invoked ++ l.functors
  rounds : ∀ r ∈ l.rounds, r.invoked = r.held

theorem ordered_start : Ordered (start : Loop F) := by
  constructor <;> simp [start]

theorem Ordered.push (ordered : Ordered l) (f : F) : Ordered (l.push f) := by
  refine { ordered with order := ?_ }
  simp only [Loop.push, ordered.order, List.append_assoc]

theorem Ordered.step (ordered : Ordered l) (taken : Step l a t) : Ordered t := by
  obtain ⟨order, batch, round, rounds⟩ := ordered
  -- the steps that only move the loop thread keep the lists
  have empty (point : l.point ≠ .running) : l.functors = [] := batch point
  cases taken with
  | loop _ outside => exact ⟨order, fun _ => empty (by simp [outside]), nofun, rounds⟩
  | leave _ point => exact ⟨order, fun _ => empty (by simp [point]), nofun, rounds⟩
  | stay _ point => exact ⟨order, fun _ => empty (by simp [point]), nofun, rounds⟩
  | poll _ _ point => exact ⟨order, fun _ => empty (by simp [point]), nofun, rounds⟩
  | handleWakeUp => exact ⟨order, batch, round, rounds⟩
  | doPendingFunctors _ point => exact ⟨order, fun _ => empty (by simp [point]), nofun, rounds⟩
  | swap _ point =>
    refine ⟨?_, fun other => absurd rfl other, fun _ => rfl, rounds⟩
    rw [order, empty (by simp [point])]
    simp
  | next f rest _ point found =>
    refine ⟨?_, fun other => absurd point other, fun _ => ?_, rounds⟩
    · rw [order, found]
      simp
    · rw [round point, found]
      simp
  | finish _ point found =>
    refine ⟨order, fun _ => found, nofun, fun r member => ?_⟩
    rcases List.mem_append.mp member with before | last
    · exact rounds r before
    · rw [List.mem_singleton.mp last, round point, found, List.append_nil]
  | queueInLoop f => exact { Ordered.push ⟨order, batch, round, rounds⟩ f with }
  | callPush t f => exact { Ordered.push ⟨order, batch, round, rounds⟩ f with }
  | wakeup | quit | callQueueInLoop | callQuit | callWakeup => exact ⟨order, batch, round, rounds⟩

theorem step_ordered (l : Loop F) (a : Action F) (t : Loop F) (ordered : Ordered l)
    (taken : l.step a = .ok t) : Ordered t :=
  ordered.step (step_spec l a t taken)

/-- In every run: the functors queued so far, in the order of the mutex, are those invoked, those
of the batch that are not invoked yet, and those pending. A call of `DoPendingFunctors` invokes
from the front what the queue held at its swap; when it returns, it has invoked all of that and
nothing else. -/
theorem functors_in_order (acts : List (Action F)) (l : Loop F)
    (reached : Run.exec step start acts = .ok l) :
    l.pushed = l.invoked ++ l.functors ++ l.pendingFunctors ∧
      (l.point = .running → l.round.held = l.round.invoked ++ l.functors) ∧
      ∀ r ∈ l.rounds, r.invoked = r.held := by
  have ordered : Ordered l := Run.exec_keeps_all step_ordered start l acts ordered_start reached
  exact ⟨ordered.order, ordered.round, ordered.rounds⟩

/-- Two functors that queue themselves again, and one that comes from another thread in between. -/
def requeueing : List (Action Nat) :=
  [.callQueueInLoop 5 1, .callPush 5, .callWakeup 5, .callQueueInLoop 5 2, .callPush 5, .callWakeup 5, .loop,
    .test, .poll true, .handleWakeUp, .doPendingFunctors, .swap, .next, .queueInLoop 1, .wakeup,
    .callQueueInLoop 5 3, .callPush 5, .next, .queueInLoop 2, .wakeup, .finish]

theorem functors_in_order_requeueing :
    ∃ l, Run.exec step start requeueing = .ok l ∧ l.pushed = [1, 2, 1, 3, 2] ∧
      l.pushed = l.invoked ++ l.functors ++ l.pendingFunctors ∧ l.rounds = [⟨[1, 2], [1, 2]⟩] := by
  have last : (Run.exec step start requeueing).toOption.map (fun l => (l.pushed, l.rounds)) =
      some ([1, 2, 1, 3, 2], [⟨[1, 2], [1, 2]⟩]) := by decide +kernel
  obtain ⟨l, reached, ended⟩ := returned_of_map last
  simp only [Prod.mk.injEq] at ended
  exact ⟨l, reached, ended.1, (functors_in_order requeueing l reached).1, ended.2⟩

/-! ### No lost wakeup -/

/-- The next poll will not sleep: the counter is positive, or a write to the eventfd is to come. -/
def Signalled (l : Loop F) : Prop := 0 < l.wakeups ∨ l.waking = true ∨ ∃ t, l.callers t = .pushed

/-- Between its handlers and its swap the loop needs no signal, since it is about to look at the
queue. Everywhere else a functor that is pending has been signalled. -/
structure Woken (l : Loop F) : Prop where
  calling : l.callingPendingFunctors = true ↔ l.point = .calling ∨ l.point = .running
  waking : l.waking = true → l.point = .running
  signalled : l.point ≠ .handling → l.point ≠ .calling → l.pendingFunctors ≠ [] → l.Signalled

theorem woken_start : Woken (start : Loop F) := by
  constructor <;> simp [start]

theorem Signalled.wakeup (l : Loop F) : 0 < l.wakeup.wakeups := by
  simp only [Loop.wakeup, kMaxWakeups]
  omega

theorem setCaller_ne {t u : Tid} (c : Caller F) (other : u ≠ t) : (l.setCaller t c).callers u = l.callers u := by
  simp [setCaller, Function.update_of_ne other]

/-- The loop thread queues nothing while `Loop()` is not running. -/
def Inside (l : Loop F) : Action F → Prop
  | .queueInLoop _ => l.point ≠ .outside
  | _ => True

instance (l : Loop F) (a : Action F) : Decidable (l.Inside a) := by
  cases a <;> unfold Inside <;> infer_instance

/-- Another thread comes to a place that is not between its push and its write. -/
theorem Signalled.setCaller {t : Tid} {c : Caller F} (signalled : l.Signalled)
    (before : l.callers t ≠ .pushed) : (l.setCaller t c).Signalled := by
  refine signalled.imp_right (Or.imp_right ?_)
  rintro ⟨u, pushed⟩
  have other : u ≠ t := by
    rintro rfl
    exact before pushed
  exact ⟨u, by rw [setCaller_ne c other]; exact pushed⟩

theorem Woken.step (woken : Woken l) (taken : Step l a t) (inside : l.Inside a) : Woken t := by
  obtain ⟨calling, waking, signalled⟩ := woken
  cases taken with
  | loop idle outside =>
    refine ⟨by simpa [outside] using calling, fun set => by simp [idle] at set, fun _ _ => ?_⟩
    exact signalled (by simp [outside]) (by simp [outside])
  | leave idle point =>
    refine ⟨by simpa [point] using calling, fun set => by simp [idle] at set, fun _ _ => ?_⟩
    exact signalled (by simp [point]) (by simp [point])
  | stay idle point =>
    refine ⟨by simpa [point] using calling, fun set => by simp [idle] at set, fun _ _ => ?_⟩
    exact signalled (by simp [point]) (by simp [point])
  | poll wakeup idle point =>
    exact ⟨by simpa [point] using calling, fun set => by simp [idle] at set, fun other => absurd rfl other⟩
  | handleWakeUp idle point => exact ⟨calling, waking, fun other => absurd point other⟩
  | doPendingFunctors idle point =>
    exact ⟨by simp, fun set => by simp [idle] at set, fun _ other => absurd rfl other⟩
  | swap idle point =>
    -- the queue is empty now
    exact ⟨by simpa [point] using calling, fun _ => rfl, fun _ _ pending => absurd rfl pending⟩
  | next => exact ⟨calling, waking, signalled⟩
  | finish idle point =>
    refine ⟨by simp, fun set => by simp [idle] at set, fun _ _ => ?_⟩
    exact signalled (by simp [point]) (by simp [point])
  | queueInLoop f idle user =>
    rcases user with outside | handling | running
    · exact absurd outside inside
    · refine ⟨calling, fun set => ?_, fun other => absurd handling other⟩
      simpa [handling] using calling.mp set
    · have set : l.callingPendingFunctors = true := calling.mpr (Or.inr running)
      exact ⟨calling, fun _ => running, fun _ _ _ => Or.inr (Or.inl set)⟩
  | wakeup => exact ⟨calling, nofun, fun _ _ _ => Or.inl (Signalled.wakeup l)⟩
  | quit => exact ⟨calling, waking, signalled⟩
  | callQueueInLoop t f free =>
    refine ⟨calling, waking, fun first second pending => ?_⟩
    exact (signalled first second pending).setCaller (by simp [free])
  | callPush t f =>
    refine ⟨calling, waking, fun _ _ _ => Or.inr (Or.inr ⟨t, ?_⟩)⟩
    simp [Loop.setCaller]
  | callQuit t free =>
    refine ⟨calling, waking, fun first second pending => ?_⟩
    exact Signalled.setCaller (l := l.setQuit) (signalled first second pending) (by simp [setQuit, free])
  | callWakeup t => exact ⟨calling, waking, fun _ _ _ => Or.inl (Signalled.wakeup l)⟩

theorem step_woken (l : Loop F) (a : Action F) (t : Loop F) (woken : Woken l) (inside : l.Inside a)
    (taken : l.step a = .ok t) : Woken t :=
  woken.step (step_spec l a t taken) inside

/-- In every run in which the loop thread queues nothing while `Loop()` is not running: when the
loop is at its poll with a functor pending, the counter of the eventfd is positive, or another
thread is between its push and its write. -/
theorem no_lost_wakeup (acts : List (Action F)) (l : Loop F)
    (inside : Run.Meets step Inside start acts) (reached : Run.exec step start acts = .ok l)
    (polling : l.point = .polling) (pending : l.pendingFunctors ≠ []) :
    0 < l.wakeups ∨ ∃ t, l.callers t = .pushed := by
  have woken : Woken l := Run.exec_keeps step_woken start l acts woken_start inside reached
  rcases woken.signalled (by simp [polling]) (by simp [polling]) pending with counter | waking | caller
  · exact Or.inl counter
  · have running := woken.waking waking
    simp [polling] at running
  · exact Or.inr caller

/-- The counter has been read and the queue swapped; a thread pushes before the next poll. -/
def pushBeforePoll : List (Action Nat) :=
  [.loop, .test, .callQueueInLoop 5 1, .callPush 5, .callWakeup 5, .poll true, .handleWakeUp,
    .doPendingFunctors, .swap, .next, .finish, .callQueueInLoop 6 2, .callPush 6, .test]

theorem no_lost_wakeup_pushBeforePoll :
    Run.Meets step Inside start pushBeforePoll ∧
    ∃ l, Run.exec step start pushBeforePoll = .ok l ∧ l.point = .polling ∧ l.pendingFunctors = [2] ∧
      (0 < l.wakeups ∨ ∃ t, l.callers t = .pushed) := by
  have inside : Run.Meets step Inside start pushBeforePoll := by decide +kernel
  have last : (Run.exec step start pushBeforePoll).toOption.map (fun l => (l.point, l.pendingFunctors)) =
      some (.polling, [2]) := by decide +kernel
  obtain ⟨l, reached, ended⟩ := returned_of_map last
  simp only [Prod.mk.injEq] at ended
  obtain ⟨polling, pending⟩ := ended
  have woken := no_lost_wakeup pushBeforePoll l inside reached polling (by simp [pending])
  exact ⟨inside, l, reached, polling, pending, woken⟩

/-! ### The queue the components see -/

def phaseOf : LoopPoint → LoopPhase
  | .outside | .test | .polling => .polling
  | .handling | .calling => .handling
  | .running => .running

/-- The functor a thread is about to push. -/
def inFlightOf : Caller F → Option F
  | .queueing f => some f
  | .idle | .pushed | .quitting => none

def view (l : Loop F) : EventLoop F where
  phase := phaseOf l.point
  pendingFunctors := l.pendingFunctors
  functors := l.functors
  inFlight t := inFlightOf (l.callers t)

/-- One operation of the functor queue, or none. -/
inductive Moves (v : EventLoop F) : EventLoop F → Prop where
  | none : Moves v v
  | poll {w : EventLoop F} : (v.poll : Comp LoopFault _) = .ok w → Moves v w
  | swap {w : EventLoop F} : (v.swap : Comp LoopFault _) = .ok w → Moves v w
  | next {w : EventLoop F} (f : F) : (v.next : Comp LoopFault _) = .ok (f, w) → Moves v w
  | finish {w : EventLoop F} : (v.finish : Comp LoopFault _) = .ok w → Moves v w
  | queueInLoop (f : F) : Moves v (v.queueInLoop f)
  | enter {w : EventLoop F} (t : Tid) (f : F) : (v.enter t f : Comp LoopFault _) = .ok w → Moves v w
  | push {w : EventLoop F} (t : Tid) (f : F) : (v.push t : Comp LoopFault _) = .ok (f, w) → Moves v w

theorem Moves.of_eq {v w : EventLoop F} (same : w = v) : Moves v w := same ▸ .none

/-- Moving the loop thread within a phase is not seen. -/
theorem view_point {p : LoopPoint} (same : phaseOf p = phaseOf l.point) :
    ({ l with point := p } : Loop F).view = l.view := by
  simp [view, same]

theorem view_setCaller (l : Loop F) (t : Tid) (c : Caller F) :
    (l.setCaller t c).view = { l.view with inFlight := Function.update l.view.inFlight t (inFlightOf c) } := by
  simp only [view, setCaller, EventLoop.mk.injEq, true_and]
  funext u
  by_cases same : u = t
  · subst same
    simp
  · simp [Function.update_of_ne same]

/-- A thread that has no functor to push, before and after. -/
theorem view_setCaller_same {t : Tid} {c : Caller F} (before : inFlightOf (l.callers t) = none)
    (after : inFlightOf c = none) : (l.setCaller t c).view = l.view := by
  rw [view_setCaller, after]
  have same : Function.update l.view.inFlight t none = l.view.inFlight :=
    Function.update_eq_self_iff.mpr before.symm
  rw [same]

/-- Every step of the loop or of a thread is an operation of the functor queue or leaves it as it
is. -/
theorem Ordered.refines (ordered : Ordered l) (taken : Step l a t) : Moves l.view t.view := by
  cases taken with
  | loop _ outside => exact .of_eq (by simp [view, outside, phaseOf])
  | leave _ point => exact .of_eq (by simp [view, point, phaseOf])
  | stay _ point => exact .of_eq (view_point (by simp [point, phaseOf]))
  | poll _ _ point =>
    apply Moves.poll
    simp [EventLoop.poll, require, view, point, phaseOf]
  | handleWakeUp => exact .none
  | doPendingFunctors _ point => exact .of_eq (by simp [view, point, phaseOf])
  | swap _ point =>
    have empty : l.functors = [] := ordered.batch (by simp [point])
    apply Moves.swap
    simp [EventLoop.swap, require, view, point, phaseOf, empty]
  | next f rest _ point found =>
    apply Moves.next f
    simp [EventLoop.next, require, view, point, phaseOf, found]
  | finish _ point empty =>
    apply Moves.finish
    simp [EventLoop.finish, require, view, point, phaseOf, empty]
  | queueInLoop f => exact .queueInLoop f
  | wakeup => exact .none
  | quit => exact .none
  | callQueueInLoop t f free =>
    apply Moves.enter t f
    rw [view_setCaller]
    simp [EventLoop.enter, require, view, free, inFlightOf]
  | callPush t f found =>
    apply Moves.push t f
    rw [view_setCaller]
    simp [EventLoop.push, given, view, found, inFlightOf, Loop.push]
  | callQuit t free => exact .of_eq (view_setCaller_same (l := l.setQuit) (by simp [setQuit, free, inFlightOf]) rfl)
  | callWakeup t found =>
    have before : inFlightOf (l.callers t) = none := by
      rcases found with pushed | quitting
      · simp [pushed, inFlightOf]
      · simp [quitting, inFlightOf]
    exact .of_eq (view_setCaller_same (l := l.wakeup) before rfl)

/-- In every run the queue is one that the operations of `EventLoop` lead to. -/
theorem run_refines (acts : List (Action F)) (l : Loop F) (reached : Run.exec step start acts = .ok l) :
    Relation.ReflTransGen Moves EventLoop.start l.view := by
  let Kept (l : Loop F) : Prop := Ordered l ∧ Relation.ReflTransGen Moves EventLoop.start l.view
  have preserved (s : Loop F) (a : Action F) (t : Loop F) (kept : Kept s) (taken : s.step a = .ok t) :
      Kept t := by
    have stepped := step_spec s a t taken
    exact ⟨kept.1.step stepped, kept.2.tail (kept.1.refines stepped)⟩
  have kept : Kept l := Run.exec_keeps_all preserved start l acts ⟨ordered_start, .refl⟩ reached
  exact kept.2

end Rnet.Network.Loop
