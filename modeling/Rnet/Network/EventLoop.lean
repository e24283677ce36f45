import Rnet.Lib.Check

/-!
# The functor queue of an event loop

`EventLoop::Loop` polls, handles the active channels and runs `DoPendingFunctors`, which swaps
the pending functors out and calls them one by one. A thread other than the loop's own that
calls `RunInLoop` or `QueueInLoop` decides to queue first and takes the mutex for the push
later: in between the functor is in flight.

Generic in the type of functors, so that each component of the library states its own.
-/
namespace Rnet.Network

open Check

/-- Threads other than the loop's own. -/
abbrev Tid := Nat

/-- Where `Loop()` is: at its poll, in the event handlers, or in `DoPendingFunctors`. -/
inductive LoopPhase where
  | polling
  | handling
  | running
  deriving DecidableEq, Repr

structure EventLoop (F : Type) where
  phase : LoopPhase
  pendingFunctors : List F
  /-- The functors `DoPendingFunctors` has swapped out and not called yet. -/
  functors : List F
  inFlight : Tid → Option F

namespace EventLoop

variable {F κ φ : Type}

def start : EventLoop F := ⟨.polling, [], [], fun _ => none⟩

/-- All functors that will still be called, in the order of the calls. -/
def queued (l : EventLoop F) : List F := l.functors ++ l.pendingFunctors

/-- The poll returned. -/
def poll (l : EventLoop F) : Comp φ (EventLoop F) := do
  require (l.phase = .polling)
  return { l with phase := .handling }

/-- The events are handled; `DoPendingFunctors` swaps the pending functors out. The batch of
the call before has been called to its end by then. -/
def swap (l : EventLoop F) : Comp φ (EventLoop F) := do
  require (l.phase = .handling ∧ l.functors = [])
  return { l with phase := .running, functors := l.pendingFunctors, pendingFunctors := [] }

/-- `DoPendingFunctors` takes the next functor to call. -/
def next (l : EventLoop F) : Comp φ (F × EventLoop F) := do
  require (l.phase = .running)
  match l.functors with
  | [] => .error .disabled
  | f :: rest => return (f, { l with functors := rest })

/-- `DoPendingFunctors` has called all of them. -/
def finish (l : EventLoop F) : Comp φ (EventLoop F) := do
  require (l.phase = .running ∧ l.functors = [])
  return { l with phase := .polling }

/-- `QueueInLoop` on the loop thread. -/
def queueInLoop (l : EventLoop F) (f : F) : EventLoop F :=
  { l with pendingFunctors := l.pendingFunctors ++ [f] }

/-- Thread `t` is about to push `f`. -/
def enter (l : EventLoop F) (t : Tid) (f : F) : Comp φ (EventLoop F) := do
  require (l.inFlight t = none)
  return { l with inFlight := Function.update l.inFlight t (some f) }

/-- The locked push of thread `t`. -/
def push (l : EventLoop F) (t : Tid) : Comp φ (F × EventLoop F) := do
  let f ← given (l.inFlight t)
  return (f, { l with
    pendingFunctors := l.pendingFunctors ++ [f], inFlight := Function.update l.inFlight t none })

/-! ### What the operations do to the queue -/

/-- The steps of the loop that move functors from one list to the other. -/
structure SameQueue (l after : EventLoop F) : Prop where
  queued : after.queued = l.queued
  inFlight : after.inFlight = l.inFlight

theorem poll_safe (l : EventLoop F) : Safe l.SameQueue (l.poll : Comp φ (EventLoop F)) := by
  simp only [poll, safe_bind, safe_require, safe_pure]
  exact fun _ => ⟨rfl, rfl⟩

theorem swap_safe (l : EventLoop F) : Safe l.SameQueue (l.swap : Comp φ (EventLoop F)) := by
  simp only [swap, safe_bind, safe_require, safe_pure]
  exact fun idle => ⟨by simp [queued, idle.2], rfl⟩

theorem finish_safe (l : EventLoop F) : Safe l.SameQueue (l.finish : Comp φ (EventLoop F)) := by
  simp only [finish, safe_bind, safe_require, safe_pure]
  exact fun _ => ⟨rfl, rfl⟩

/-- The functor called next is the one queued first. -/
theorem next_safe (l : EventLoop F) :
    Safe (fun r => l.functors = r.1 :: r.2.functors ∧ l.queued = r.1 :: r.2.queued ∧
        r.2.inFlight = l.inFlight)
      (l.next : Comp φ (F × EventLoop F)) := by
  simp only [next, safe_bind, safe_require]
  intro _
  split
  · trivial
  next f rest found => exact ⟨found, by simp [queued, found], rfl⟩

theorem next_phase (l : EventLoop F) :
    Safe (fun r => l.phase = .running ∧ r.2.phase = .running) (l.next : Comp φ (F × EventLoop F)) := by
  simp only [next, safe_bind, safe_require]
  intro running
  split
  · trivial
  · exact ⟨running, running⟩

@[simp] theorem queueInLoop_queued (l : EventLoop F) (f : F) :
    (l.queueInLoop f).queued = l.queued ++ [f] := by
  simp [queued, queueInLoop]

@[simp] theorem queueInLoop_inFlight (l : EventLoop F) (f : F) :
    (l.queueInLoop f).inFlight = l.inFlight := rfl

theorem enter_safe (l : EventLoop F) (t : Tid) (f : F) :
    Safe (fun after => l.inFlight t = none ∧ after.queued = l.queued ∧
      after.inFlight = Function.update l.inFlight t (some f)) (l.enter t f : Comp φ (EventLoop F)) := by
  simp only [enter, safe_bind, safe_require, safe_pure]
  exact fun free => ⟨free, rfl, trivial⟩

theorem push_safe (l : EventLoop F) (t : Tid) :
    Safe (fun r => l.inFlight t = some r.1 ∧ r.2.queued = l.queued ++ [r.1] ∧
      r.2.inFlight = Function.update l.inFlight t none) (l.push t : Comp φ (F × EventLoop F)) := by
  simp only [push, safe_bind, safe_given, safe_pure]
  exact fun f found => ⟨found, by simp [queued], trivial⟩

/-! ### Functors that carry something owned -/

variable (key : F → Option κ)

/-- Some functor that is queued or in flight carries `k`. -/
def Carries (l : EventLoop F) (k : κ) : Prop :=
  k ∈ l.queued.filterMap key ∨ ∃ t, (l.inFlight t).bind key = some k

/-- No two functors carry the same thing. -/
structure CarriesOnce (l : EventLoop F) : Prop where
  queued : (l.queued.filterMap key).Nodup
  apart : ∀ t k, (l.inFlight t).bind key = some k → k ∉ l.queued.filterMap key
  inFlight : ∀ t u k, (l.inFlight t).bind key = some k → (l.inFlight u).bind key = some k → t = u

variable {key}

variable (key) in
/-- What is carried stays the same, whatever happens to the functors that carry nothing. -/
structure SameKeys (l after : EventLoop F) : Prop where
  queued : after.queued.filterMap key = l.queued.filterMap key
  inFlight : ∀ t, (after.inFlight t).bind key = (l.inFlight t).bind key

theorem SameKeys.carries {l after : EventLoop F} (same : SameKeys key l after) (k : κ) :
    after.Carries key k ↔ l.Carries key k := by
  simp only [Carries, same.queued, same.inFlight]

theorem SameKeys.carriesOnce {l after : EventLoop F} (same : SameKeys key l after)
    (once : l.CarriesOnce key) : after.CarriesOnce key := by
  constructor
  · rw [same.queued]; exact once.queued
  · simp only [same.queued, same.inFlight]; exact once.apart
  · simp only [same.inFlight]; exact once.inFlight

theorem SameQueue.sameKeys {l after : EventLoop F} (same : l.SameQueue after) : SameKeys key l after :=
  ⟨by rw [same.queued], fun _ => by rw [same.inFlight]⟩

theorem SameQueue.carries {l after : EventLoop F} (same : l.SameQueue after) (k : κ) :
    after.Carries key k ↔ l.Carries key k :=
  same.sameKeys.carries k

theorem SameQueue.carriesOnce {l after : EventLoop F} (same : l.SameQueue after)
    (once : l.CarriesOnce key) : after.CarriesOnce key :=
  same.sameKeys.carriesOnce once

theorem sameKeys_queueInLoop (l : EventLoop F) {f : F} (silent : key f = none) :
    SameKeys key l (l.queueInLoop f) :=
  ⟨by simp [silent], fun _ => rfl⟩

theorem sameKeys_enter {l after : EventLoop F} {t : Tid} {f : F} (silent : key f = none)
    (free : l.inFlight t = none) (queued : after.queued = l.queued)
    (flight : after.inFlight = Function.update l.inFlight t (some f)) : SameKeys key l after := by
  refine ⟨by rw [queued], fun u => ?_⟩
  rw [flight]
  by_cases same : u = t
  · subst same
    simp [free, silent]
  · rw [Function.update_of_ne same]

theorem sameKeys_next {l after : EventLoop F} {f : F} (silent : key f = none)
    (queued : l.queued = f :: after.queued) (flight : after.inFlight = l.inFlight) : SameKeys key l after :=
  ⟨by rw [queued, List.filterMap_cons_none silent], fun _ => by rw [flight]⟩

private theorem bind_update (g : Tid → Option F) (t u : Tid) (o : Option F) (k : κ)
    (found : (Function.update g t o u).bind key = some k) :
    (u = t ∧ o.bind key = some k) ∨ (u ≠ t ∧ (g u).bind key = some k) := by
  by_cases same : u = t
  · subst same
    rw [Function.update_self] at found
    exact Or.inl ⟨rfl, found⟩
  · rw [Function.update_of_ne same] at found
    exact Or.inr ⟨same, found⟩

/-- Only the thread that enters changes what is in flight. -/
theorem carries_enter {l after : EventLoop F} {t : Tid} {f : F} (free : l.inFlight t = none)
    (queued : after.queued = l.queued) (flight : after.inFlight = Function.update l.inFlight t (some f))
    (k : κ) : after.Carries key k ↔ l.Carries key k ∨ key f = some k := by
  simp only [Carries, queued, flight]
  constructor
  · rintro (member | ⟨u, found⟩)
    · exact Or.inl (Or.inl member)
    · rcases bind_update _ _ _ _ _ found with ⟨_, own⟩ | ⟨_, other⟩
      · exact Or.inr own
      · exact Or.inl (Or.inr ⟨u, other⟩)
  · rintro ((member | ⟨u, found⟩) | own)
    · exact Or.inl member
    · have different : u ≠ t := by
        rintro rfl
        simp [free] at found
      exact Or.inr ⟨u, by rw [Function.update_of_ne different]; exact found⟩
    · exact Or.inr ⟨t, by rw [Function.update_self]; exact own⟩

theorem carriesOnce_enter {l after : EventLoop F} {t : Tid} {f : F}
    (once : l.CarriesOnce key) (queued : after.queued = l.queued)
    (flight : after.inFlight = Function.update l.inFlight t (some f))
    (fresh : ∀ k, key f = some k → ¬ l.Carries key k) : after.CarriesOnce key := by
  constructor
  · rw [queued]; exact once.queued
  · intro u k found
    rw [flight] at found
    rw [queued]
    rcases bind_update _ _ _ _ _ found with ⟨_, own⟩ | ⟨_, other⟩
    · exact fun member => fresh k own (Or.inl member)
    · exact once.apart u k other
  · intro u v k foundU foundV
    rw [flight] at foundU foundV
    rcases bind_update _ _ _ _ _ foundU with ⟨rfl, ownU⟩ | ⟨_, otherU⟩ <;>
      rcases bind_update _ _ _ _ _ foundV with ⟨rfl, ownV⟩ | ⟨_, otherV⟩
    · rfl
    · exact absurd (Or.inr ⟨v, otherV⟩) (fresh k ownU)
    · exact absurd (Or.inr ⟨u, otherU⟩) (fresh k ownV)
    · exact once.inFlight u v k otherU otherV

/-- A push moves a functor from one place to the other. -/
theorem carries_push {l after : EventLoop F} {t : Tid} {f : F} (found : l.inFlight t = some f)
    (queued : after.queued = l.queued ++ [f]) (flight : after.inFlight = Function.update l.inFlight t none)
    (k : κ) : after.Carries key k ↔ l.Carries key k := by
  simp only [Carries, queued, flight, List.filterMap_append, List.mem_append, List.filterMap_cons,
    List.filterMap_nil]
  constructor
  · rintro ((member | own) | ⟨u, held⟩)
    · exact Or.inl member
    · refine Or.inr ⟨t, ?_⟩
      rw [found]
      cases carried : key f with
      | none => simp [carried] at own
      | some k' => simp only [carried, List.mem_singleton] at own; simp [carried, own]
    · rcases bind_update _ _ _ _ _ held with ⟨_, own⟩ | ⟨_, other⟩
      · simp at own
      · exact Or.inr ⟨u, other⟩
  · rintro (member | ⟨u, held⟩)
    · exact Or.inl (Or.inl member)
    · by_cases same : u = t
      · subst same
        rw [found, Option.bind_some] at held
        exact Or.inl (Or.inr (by simp [held]))
      · exact Or.inr ⟨u, by rw [Function.update_of_ne same]; exact held⟩

theorem carriesOnce_push {l after : EventLoop F} {t : Tid} {f : F} (once : l.CarriesOnce key)
    (found : l.inFlight t = some f) (queued : after.queued = l.queued ++ [f])
    (flight : after.inFlight = Function.update l.inFlight t none) : after.CarriesOnce key := by
  have own (k : κ) (carried : key f = some k) : (l.inFlight t).bind key = some k := by
    rw [found]; exact carried
  constructor
  · rw [queued, List.filterMap_append]
    refine List.nodup_append.mpr ⟨once.queued, by cases carried : key f <;> simp [carried], ?_⟩
    rintro k member k' memberLast rfl
    have carried : key f = some k := by
      cases carried : key f with
      | none => simp [carried] at memberLast
      | some k' => simp [carried] at memberLast; rw [memberLast]
    exact once.apart t k (own k carried) member
  · intro u k held
    rw [flight] at held
    rw [queued, List.filterMap_append, List.mem_append]
    rcases bind_update _ _ _ _ _ held with ⟨_, absent⟩ | ⟨different, other⟩
    · simp at absent
    · rintro (member | last)
      · exact once.apart u k other member
      · cases carried : key f with
        | none => simp [carried] at last
        | some k' =>
          simp only [List.filterMap_cons, carried, List.filterMap_nil, List.mem_singleton] at last
          subst last
          exact different (once.inFlight u t _ other (own _ carried))
  · intro u v k heldU heldV
    rw [flight] at heldU heldV
    rcases bind_update _ _ _ _ _ heldU with ⟨_, absent⟩ | ⟨_, otherU⟩
    · simp at absent
    · rcases bind_update _ _ _ _ _ heldV with ⟨_, absent⟩ | ⟨_, otherV⟩
      · simp at absent
      · exact once.inFlight u v k otherU otherV

/-- The functor taken to be called leaves the queue with what it carries. -/
theorem carries_next {l after : EventLoop F} {f : F} (once : l.CarriesOnce key)
    (queued : l.queued = f :: after.queued) (flight : after.inFlight = l.inFlight) (k : κ) :
    after.Carries key k ↔ l.Carries key k ∧ key f ≠ some k := by
  have nodup := once.queued
  rw [queued] at nodup
  constructor
  · rintro (member | ⟨u, held⟩)
    · refine ⟨Or.inl (by rw [queued]; simp only [List.filterMap_cons]; split <;> simp [member]), ?_⟩
      intro carried
      rw [List.filterMap_cons_some carried] at nodup
      exact (List.nodup_cons.mp nodup).1 member
    · rw [flight] at held
      refine ⟨Or.inr ⟨u, held⟩, fun carried => once.apart u k held ?_⟩
      rw [queued, List.filterMap_cons_some carried]
      exact List.mem_cons_self
  · rintro ⟨member | ⟨u, held⟩, different⟩
    · rw [queued] at member
      cases carried : key f with
      | none => rw [List.filterMap_cons_none carried] at member; exact Or.inl member
      | some k' =>
        rw [List.filterMap_cons_some carried] at member
        rcases List.mem_cons.mp member with rfl | member
        · exact absurd carried different
        · exact Or.inl member
    · exact Or.inr ⟨u, by rw [flight]; exact held⟩

theorem carriesOnce_next {l after : EventLoop F} {f : F} (once : l.CarriesOnce key)
    (queued : l.queued = f :: after.queued) (flight : after.inFlight = l.inFlight) :
    after.CarriesOnce key := by
  have sub : (after.queued.filterMap key).Sublist (l.queued.filterMap key) := by
    rw [queued]
    exact (List.sublist_cons_self f after.queued).filterMap key
  constructor
  · exact once.queued.sublist sub
  · intro u k held member
    rw [flight] at held
    exact once.apart u k held (sub.subset member)
  · rw [flight]; exact once.inFlight

end EventLoop

end Rnet.Network
