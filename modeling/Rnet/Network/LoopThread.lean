import Rnet.Network.LoopQueue

/-!
# The thread of an io loop

`EventLoopThread`: `StartLoop` starts a thread and waits until `ThreadFunc` has published its loop
in `loop_`; `ThreadFunc` calls `Loop()` only after that. From then on the owner may call `Quit()`,
and `~EventLoopThread` does so and joins the thread.

`Loop()` begins with `quit_ = false`. A `Quit()` that comes between the publication and this write
is forgotten, and the destructor then joins a thread that goes on polling. Where every `Quit()`
comes after `ThreadFunc` has entered `Loop()`, none is lost.
-/
namespace Rnet.Network

open Check

/-- Where `ThreadFunc` is. -/
inductive ThreadPoint where
  | notStarted
  /-- Started by `StartLoop`; the loop does not exist yet. -/
  | started
  /-- The loop is constructed; `callback_` runs. -/
  | callback
  /-- `loop_` is set, and `Loop()` is not called yet. -/
  | published
  | looping
  /-- `Loop()` has returned; `loop_` is still set. -/
  | returned
  /-- The loop is destructed. -/
  | finished
  deriving DecidableEq, Repr

/-- Where the owner of the `EventLoopThread` is. -/
inductive OwnerPoint where
  | idle
  /-- In `StartLoop`, waiting for `loop_`. -/
  | waiting
  /-- `StartLoop` has returned the loop. -/
  | holding
  /-- In the destructor, after `loop_` was seen to be set. -/
  | quitting
  /-- In the destructor: in its `Quit()` or its `Join()`. -/
  | joining
  | destroyed
  deriving DecidableEq, Repr

inductive LoopThreadFault where
  | loop (f : LoopFault)
  /-- The `assert(!thread_.Started())` of `StartLoop`. -/
  | started
  /-- A call of a loop that has been destructed. -/
  | dangling
  deriving DecidableEq, Repr

structure LoopThread (F : Type) where
  thread : ThreadPoint
  owner : OwnerPoint
  /-- `loop_` is not null. -/
  published : Bool
  loop : Loop F

namespace LoopThread

variable {F : Type}

def start : LoopThread F := ⟨.notStarted, .idle, false, Loop.start⟩

/-- The thread of the owner, in its calls of the loop. -/
def ownerTid : Tid := 0

/-- The owner is between two calls of the `EventLoopThread` or of its loop. -/
def OwnerFree (s : LoopThread F) : Prop :=
  (s.owner = .idle ∨ s.owner = .holding) ∧ Loop.isIdle (s.loop.callers ownerTid) = true

instance (s : LoopThread F) : Decidable s.OwnerFree := inferInstanceAs (Decidable (_ ∧ _))

/-- `StartLoop` has returned, so that the loop is known to the owner and to those it tells. -/
def Handed (s : LoopThread F) : Prop := s.owner ≠ .idle ∧ s.owner ≠ .waiting

instance (s : LoopThread F) : Decidable s.Handed := inferInstanceAs (Decidable (_ ∧ _))

/-- When `ThreadFunc`, or a thread that knows the loop, can take a step of the loop. -/
def Allowed (s : LoopThread F) : Loop.Action F → Prop
  | .loop => s.thread = .published
  -- user code on the loop thread: `callback_`, the handlers and the functors
  | .queueInLoop _ | .wakeup | .quit => s.thread = .callback ∨ s.thread = .looping
  | .test | .poll _ | .handleWakeUp | .doPendingFunctors | .swap | .next | .finish => s.thread = .looping
  | .callQueueInLoop t _ | .callQuit t => s.Handed ∧ (t = ownerTid → s.owner = .holding)
  | .callPush _ | .callWakeup _ => True

instance (s : LoopThread F) : (a : Loop.Action F) → Decidable (s.Allowed a)
  | .loop => inferInstanceAs (Decidable (s.thread = .published))
  | .queueInLoop _ | .wakeup | .quit =>
    inferInstanceAs (Decidable (s.thread = .callback ∨ s.thread = .looping))
  | .test | .poll _ | .handleWakeUp | .doPendingFunctors | .swap | .next | .finish =>
    inferInstanceAs (Decidable (s.thread = .looping))
  | .callQueueInLoop t _ | .callQuit t =>
    inferInstanceAs (Decidable (s.Handed ∧ (t = ownerTid → s.owner = .holding)))
  | .callPush _ | .callWakeup _ => .isTrue trivial

/-- `ThreadFunc` goes on when `Loop()` returns. -/
def threadAfter (s : LoopThread F) (l : Loop F) : Loop.Action F → ThreadPoint
  | .loop => .looping
  | .test => if l.looping then .looping else .returned
  | _ => s.thread

/-- A step of the loop thread or of a thread that calls the loop. -/
def onLoop (s : LoopThread F) (a : Loop.Action F) : Comp LoopThreadFault (LoopThread F) := do
  require (s.Allowed a)
  ensure .dangling (s.thread ≠ .finished)
  let l ← lift .loop (s.loop.step a)
  return { s with loop := l, thread := s.threadAfter l a }

def startLoop (s : LoopThread F) : Comp LoopThreadFault (LoopThread F) := do
  require s.OwnerFree
  ensure .started (s.thread = .notStarted)
  return { s with thread := .started, owner := .waiting }

/-- The wait of `StartLoop` is over. -/
def waited (s : LoopThread F) : Comp LoopThreadFault (LoopThread F) := do
  require (s.owner = .waiting ∧ s.published = true)
  return { s with owner := .holding }

def construct (s : LoopThread F) : Comp LoopThreadFault (LoopThread F) := do
  require (s.thread = .started)
  return { s with thread := .callback }

def publish (s : LoopThread F) : Comp LoopThreadFault (LoopThread F) := do
  require (s.thread = .callback ∧ s.loop.waking = false)
  return { s with thread := .published, published := true }

/-- The end of `ThreadFunc`. -/
def clear (s : LoopThread F) : Comp LoopThreadFault (LoopThread F) := do
  require (s.thread = .returned)
  return { s with thread := .finished, published := false }

/-- `~EventLoopThread` up to its test of `loop_`. -/
def destruct (s : LoopThread F) : Comp LoopThreadFault (LoopThread F) := do
  require s.OwnerFree
  return { s with owner := if s.published then .quitting else .destroyed }

/-- The `loop_->Quit()` of the destructor, up to its write to the eventfd. -/
def destructQuit (s : LoopThread F) : Comp LoopThreadFault (LoopThread F) := do
  require (s.owner = .quitting)
  -- `loop_` is read again, without the mutex
  ensure .dangling (s.published = true)
  let l ← lift .loop (s.loop.step (.callQuit ownerTid))
  return { s with loop := l, owner := .joining }

/-- The `Join()` of the destructor returns. -/
def join (s : LoopThread F) : Comp LoopThreadFault (LoopThread F) := do
  require (s.owner = .joining ∧ Loop.isIdle (s.loop.callers ownerTid) = true ∧ s.thread = .finished)
  return { s with owner := .destroyed }

inductive Action (F : Type) where
  | startLoop
  | waited
  | construct
  | publish
  | onLoop (a : Loop.Action F)
  | clear
  | destruct
  | destructQuit
  | join
  deriving DecidableEq, Repr

def step (s : LoopThread F) : Action F → Comp LoopThreadFault (LoopThread F)
  | .startLoop => s.startLoop
  | .waited => s.waited
  | .construct => s.construct
  | .publish => s.publish
  | .onLoop a => s.onLoop a
  | .clear => s.clear
  | .destruct => s.destruct
  | .destructQuit => s.destructQuit
  | .join => s.join

/-! ### A quit request that is lost -/

/-- The destructor's `Quit()` comes after the publication and before `Loop()`. The wakeup it
leaves in the eventfd ends the first poll. -/
def quitBeforeLoop : List (Action Nat) :=
  [.startLoop, .construct, .publish, .waited, .destruct, .destructQuit, .onLoop (.callWakeup ownerTid),
    .onLoop .loop, .onLoop .test, .onLoop (.poll true), .onLoop .handleWakeUp, .onLoop .doPendingFunctors,
    .onLoop .swap, .onLoop .finish, .onLoop .test]

/-- The destructor waits for the thread, which is at its poll again, with `quit_` false and nothing
that would wake it. -/
theorem quit_forgotten : ∃ s, Run.exec step start quitBeforeLoop = .ok s ∧
    s.loop.quits = 1 ∧ s.loop.callers ownerTid = .idle ∧ s.owner = .joining ∧
    s.loop.point = .polling ∧ s.loop.quit = false ∧ s.loop.wakeups = 0 := by
  have last : (Run.exec step start quitBeforeLoop).toOption.map (fun s =>
      (s.loop.quits, s.loop.callers ownerTid, s.owner, s.loop.point, s.loop.quit, s.loop.wakeups)) =
      some (1, .idle, .joining, .polling, false, 0) := by decide +kernel
  obtain ⟨s, reached, ended⟩ := returned_of_map last
  simp only [Prod.mk.injEq] at ended
  exact ⟨s, reached, ended⟩

/-! ### Where no quit request is lost -/

/-- `ThreadFunc` has entered `Loop()`. -/
def Entered (s : LoopThread F) : Prop :=
  s.thread = .looping ∨ s.thread = .returned ∨ s.thread = .finished

instance (s : LoopThread F) : Decidable s.Entered := inferInstanceAs (Decidable (_ ∨ _))

/-- `Quit()` is called after `ThreadFunc` has entered `Loop()`. -/
def QuitsEntered (s : LoopThread F) : Action F → Prop
  | .onLoop .quit | .onLoop (.callQuit _) | .destructQuit => s.Entered
  | _ => True

instance (s : LoopThread F) (a : Action F) : Decidable (s.QuitsEntered a) := by
  unfold QuitsEntered
  split <;> infer_instance

/-- A `Quit()` that was executed is still seen by `Loop()`. -/
structure Heeded (s : LoopThread F) : Prop where
  placed : s.loop.looping = true ↔ s.loop.point ≠ .outside
  looping : s.loop.looping = true → s.thread = .looping
  early : ¬ s.Entered → s.loop.quits = 0
  heeded : s.thread = .looping → 0 < s.loop.quits → s.loop.quit = true

theorem heeded_start : Heeded (start : LoopThread F) := by
  constructor <;> simp [start, Loop.start]

/-- The steps of a loop that write `quit_`: its entry, and `Quit()`. -/
theorem quit_of_step {l t : Loop F} {a : Loop.Action F} (taken : Loop.Step l a t) :
    a = .loop ∨ (t.quit = l.quit ∧ t.quits = l.quits) ∨
      ((a = .quit ∨ ∃ u, a = .callQuit u) ∧ t.quit = true) := by
  cases taken with
  | loop => exact Or.inl rfl
  | quit => exact Or.inr (Or.inr ⟨Or.inl rfl, rfl⟩)
  | callQuit u => exact Or.inr (Or.inr ⟨Or.inr ⟨u, rfl⟩, rfl⟩)
  | leave | stay | poll | handleWakeUp | doPendingFunctors | swap | next | finish | queueInLoop | wakeup
  | callQueueInLoop | callPush | callWakeup => exact Or.inr (Or.inl ⟨rfl, rfl⟩)

/-- `looping_` says that the loop thread is in `Loop()`. -/
theorem placed_of_step {l t : Loop F} {a : Loop.Action F} (taken : Loop.Step l a t)
    (placed : l.looping = true ↔ l.point ≠ .outside) : t.looping = true ↔ t.point ≠ .outside := by
  cases taken with
  | loop | leave => simp
  | stay _ point | poll _ _ point | doPendingFunctors _ point | swap _ point | finish _ point =>
    simpa [point] using placed
  | quit | callQuit | handleWakeUp | next | queueInLoop | wakeup | callQueueInLoop | callPush
  | callWakeup => exact placed

/-- Only the entry and the end of `Loop()` write `looping_`. -/
theorem looping_of_step {l t : Loop F} {a : Loop.Action F} (taken : Loop.Step l a t) :
    a = .loop ∨ a = .test ∨ t.looping = l.looping := by
  cases taken with
  | loop => exact Or.inl rfl
  | leave | stay => exact Or.inr (Or.inl rfl)
  | poll | handleWakeUp | doPendingFunctors | swap | next | finish | queueInLoop | wakeup | quit
  | callQueueInLoop | callPush | callQuit | callWakeup => exact Or.inr (Or.inr rfl)

theorem threadAfter_same {s : LoopThread F} {l : Loop F} {a : Loop.Action F} (entry : a ≠ .loop)
    (test : a ≠ .test) : s.threadAfter l a = s.thread := by
  cases a <;> first | rfl | contradiction

/-- The loop is entered once, with no `Quit()` before. -/
theorem Heeded.enter {s : LoopThread F} {l : Loop F} (kept : Heeded s) (taken : Loop.Step s.loop .loop l)
    (published : s.thread = .published) : Heeded { s with loop := l, thread := .looping } := by
  have unquit : s.loop.quits = 0 := kept.early (by simp [Entered, published])
  have placed := placed_of_step taken kept.placed
  cases taken with
  | loop => exact ⟨placed, fun _ => rfl, fun out => absurd (Or.inl rfl) out, fun _ quits => by simp [unquit] at quits⟩

theorem Heeded.test {s : LoopThread F} {l : Loop F} (kept : Heeded s) (taken : Loop.Step s.loop .test l)
    (looping : s.thread = .looping) : Heeded { s with loop := l, thread := s.threadAfter l .test } := by
  have placed := placed_of_step taken kept.placed
  cases taken with
  | leave =>
    have gone : s.threadAfter { s.loop with point := .outside, looping := false } .test = .returned := by
      simp [threadAfter]
    rw [gone]
    exact ⟨placed, by simp, fun out => absurd (Or.inr (Or.inl rfl)) out, by simp⟩
  | stay _ point =>
    have on : s.loop.looping = true := kept.placed.mpr (by simp [point])
    have stays : s.threadAfter { s.loop with point := .polling } .test = .looping := by
      simp [threadAfter, on]
    rw [stays]
    exact ⟨placed, fun _ => rfl, fun out => absurd (Or.inl rfl) out, fun _ => kept.heeded looping⟩

/-- Any other step of the loop leaves `ThreadFunc` where it is. -/
theorem Heeded.within {s : LoopThread F} {l : Loop F} {a : Loop.Action F} (kept : Heeded s)
    (taken : Loop.Step s.loop a l) (entry : a ≠ .loop) (test : a ≠ .test)
    (quits : a = .quit ∨ (∃ u, a = .callQuit u) → s.Entered) : Heeded { s with loop := l } := by
  have flag : l.looping = s.loop.looping := by
    rcases looping_of_step taken with loop | tests | same
    · exact absurd loop entry
    · exact absurd tests test
    · exact same
  refine ⟨placed_of_step taken kept.placed, fun on => kept.looping (flag ▸ on), ?_, ?_⟩
  · intro out
    rcases quit_of_step taken with loop | same | request
    · exact absurd loop entry
    · exact same.2.trans (kept.early out)
    · exact absurd (quits request.1) out
  · intro looping quits
    rcases quit_of_step taken with loop | same | request
    · exact absurd loop entry
    · exact same.1.trans (kept.heeded looping (same.2 ▸ quits))
    · exact request.2

theorem onLoop_heeded (s : LoopThread F) (a : Loop.Action F) (kept : Heeded s)
    (quits : s.QuitsEntered (.onLoop a)) : Yields Heeded (s.onLoop a) := by
  simp only [onLoop, yields_bind, yields_require, yields_ensure, yields_lift, yields_pure]
  intro allowed _
  refine (Loop.step_spec s.loop a).mono fun l taken => ?_
  by_cases entry : a = .loop
  · subst entry
    exact kept.enter taken allowed
  by_cases test : a = .test
  · subst test
    exact kept.test taken allowed
  · rw [threadAfter_same entry test]
    apply kept.within taken entry test
    rintro (rfl | ⟨u, rfl⟩)
    · exact quits
    · exact quits

/-- Before `Loop()` nobody has quit, and `ThreadFunc` may go on. -/
theorem Heeded.before {s t : LoopThread F} (kept : Heeded s) (outside : ¬ s.Entered) (loop : t.loop = s.loop)
    (point : t.thread ≠ .looping) : Heeded t where
  placed := loop ▸ kept.placed
  looping on := absurd (Or.inl (kept.looping (loop ▸ on))) outside
  early _ := loop ▸ kept.early outside
  heeded inside := absurd inside point

theorem step_heeded (s : LoopThread F) (a : Action F) (t : LoopThread F) (kept : Heeded s)
    (quits : s.QuitsEntered a) (taken : s.step a = .ok t) : Heeded t := by
  revert t
  change Yields Heeded (s.step a)
  cases a with
  | onLoop a => exact onLoop_heeded s a kept quits
  | destructQuit =>
    simp only [step, destructQuit, yields_bind, yields_require, yields_ensure, yields_lift, yields_pure]
    intro _ _
    refine (Loop.step_spec s.loop _).mono fun l taken => ?_
    have within := kept.within taken (by simp) (by simp) fun _ => quits
    exact ⟨within.placed, within.looping, within.early, within.heeded⟩
  | startLoop =>
    simp only [step, startLoop, yields_bind, yields_require, yields_ensure, yields_pure]
    intro _ fresh
    exact kept.before (by simp [Entered, fresh]) rfl (by simp)
  | construct =>
    simp only [step, construct, yields_bind, yields_require, yields_pure]
    intro point
    exact kept.before (by simp [Entered, point]) rfl (by simp)
  | publish =>
    simp only [step, publish, yields_bind, yields_require, yields_pure]
    intro point
    exact kept.before (by simp [Entered, point.1]) rfl (by simp)
  | clear =>
    simp only [step, clear, yields_bind, yields_require, yields_pure]
    intro point
    -- `Loop()` has returned, so `quit_` is no longer asked for
    refine ⟨kept.placed, fun on => ?_, fun out => absurd (Or.inr (Or.inr rfl)) out, by simp⟩
    simpa [point] using kept.looping on
  | waited =>
    simp only [step, waited, yields_bind, yields_require, yields_pure]
    exact fun _ => ⟨kept.placed, kept.looping, kept.early, kept.heeded⟩
  | destruct =>
    simp only [step, destruct, yields_bind, yields_require, yields_pure]
    exact fun _ => ⟨kept.placed, kept.looping, kept.early, kept.heeded⟩
  | join =>
    simp only [step, join, yields_bind, yields_require, yields_pure]
    exact fun _ => ⟨kept.placed, kept.looping, kept.early, kept.heeded⟩

/-- In every run in which each `Quit()` comes after `ThreadFunc` has entered `Loop()`: once one was
executed, `quit_` stays true until `Loop()` returns, and the loop is not at its poll with `quit_`
false. -/
theorem quit_heeded (acts : List (Action F)) (s : LoopThread F)
    (quits : Run.Meets step QuitsEntered start acts) (reached : Run.exec step start acts = .ok s)
    (request : 0 < s.loop.quits) :
    (s.loop.looping = true → s.loop.quit = true) ∧ ¬ (s.loop.point = .polling ∧ s.loop.quit = false) := by
  have kept : Heeded s := Run.exec_keeps step_heeded start s acts heeded_start quits reached
  have stays (on : s.loop.looping = true) : s.loop.quit = true := kept.heeded (kept.looping on) request
  refine ⟨stays, ?_⟩
  rintro ⟨polling, unset⟩
  have on : s.loop.looping = true := kept.placed.mpr (by simp [polling])
  simp [stays on] at unset

/-- The owner quits while the loop is at its poll, and the destructor quits again. -/
def quitWhileLooping : List (Action Nat) :=
  [.startLoop, .construct, .publish, .onLoop .loop, .onLoop .test, .waited, .onLoop (.callQuit ownerTid),
    .onLoop (.callWakeup ownerTid), .destruct, .onLoop (.poll true), .destructQuit, .onLoop .handleWakeUp,
    .onLoop .doPendingFunctors, .onLoop .swap]

theorem quit_heeded_quitWhileLooping :
    Run.Meets step QuitsEntered start quitWhileLooping ∧
    ∃ s, Run.exec step start quitWhileLooping = .ok s ∧ s.loop.quits = 2 ∧ s.loop.looping = true ∧
      s.loop.quit = true := by
  have quits : Run.Meets step QuitsEntered start quitWhileLooping := by decide +kernel
  have last : (Run.exec step start quitWhileLooping).toOption.map (fun s => (s.loop.quits, s.loop.looping)) =
      some (2, true) := by decide +kernel
  obtain ⟨s, reached, ended⟩ := returned_of_map last
  simp only [Prod.mk.injEq] at ended
  obtain ⟨twice, looping⟩ := ended
  have heeded := quit_heeded quitWhileLooping s quits reached (by simp [twice])
  exact ⟨quits, s, reached, twice, looping, heeded.1 looping⟩

end LoopThread

end Rnet.Network
