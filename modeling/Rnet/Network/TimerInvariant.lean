import Rnet.Network.TimerOwnership

/-!
# The timer queue along its runs

Every step has one of the effects of `Effect` and keeps the ownership of the Timers, so none of
its checks fails. On top of that stands what the record of a run says: no Timer is started or
deleted after its deletion, a one-shot timer is started once, and what was inserted and not
deleted is in one of the sets or in the running batch.
-/
namespace Rnet.Network.TimerState

open Check

variable {s : TimerState} {place : Places} {p : Addr} {timer : Timer}

/-! ### One step -/

/-- The owners of queued Timers after a step that does not touch the queue. -/
theorem Queued.congr {s' : TimerState} {place' : Places} (queued : s.Queued place)
    (loop : s'.loop = s.loop) (same : ∀ p, place' p = some .queued ↔ place p = some .queued) :
    s'.Queued place' := by
  constructor
  · intro p
    rw [loop, same, queued.carries]
  · rw [loop]
    exact queued.once

theorem Queued.moved {s' : TimerState} (queued : s.Queued place) (same : s.loop.SameQueue s'.loop) :
    s'.Queued place :=
  ⟨fun p => (same.carries p).trans (queued.carries p), same.carriesOnce queued.once⟩

/-- `CancelInLoop`, called with the queue `loop`. -/
theorem cancelInLoop_effect {a : Action} {id : ActiveTimer} (loop : EventLoop TimerFunctor)
    (owned : s.Owned place) (cancels : s.cancelledBy a = some id) :
    Safe (fun s' => ∃ place', Effect s place a s' place' ∧ s'.loop = loop ∧
        ∀ p, place' p = some .queued ↔ place p = some .queued)
      ({ s with loop := loop }.cancelInLoop id) := by
  by_cases armed : s.In place .armed id
  · obtain ⟨placed, timer, found, sequence⟩ := armed
    have member : id ∈ s.activeTimers := (owned.actives id).mpr ⟨placed, timer, found, sequence⟩
    have listed : entry timer.expiration id.timer ∈ s.timers :=
      (owned.timers _).mpr ⟨placed, timer, found, rfl⟩
    refine (cancelInLoop_armed_safe (s := { s with loop := loop }) owned.sizes found sequence member listed).mono ?_
    rintro s' ⟨T, A, rfl, removes⟩
    refine ⟨_, .cancelArmed a id timer T A loop cancels found sequence placed ⟨removes.1, removes.2, removes.3⟩,
      rfl, fun p => ?_⟩
    by_cases here : p = id.timer
    · subst here
      simp [placed]
    · rw [Function.update_of_ne here]
  · have unarmed : id ∉ s.activeTimers := mt (owned.actives id).mp armed
    refine (cancelInLoop_unarmed_safe (s := { s with loop := loop }) owned.sizes unarmed).mono ?_
    rintro s' rfl
    exact ⟨place, .cancelUnarmed a id loop cancels armed, rfl, fun p => Iff.rfl⟩

/-- `AddTimerInLoop`, called with the queue `loop`. -/
theorem addTimerInLoop_effect (a : Action) (loop : EventLoop TimerFunctor) (clock : Int)
    (owned : s.Owned place) (placed : place p = some .queued) :
    Safe (fun s' => ∃ timer, s'.heap p = some timer ∧ s'.heap = s.heap ∧ s'.loop = loop ∧ ∀ issued,
        Effect s place a { s' with issued := issued } (Function.update place p (some .armed)))
      ({ s with loop := loop }.addTimerInLoop p clock) := by
  obtain ⟨timer, found⟩ := owned.found placed
  obtain ⟨timers, actives⟩ := owned.unarmed (p := p) (by simp [placed])
  refine (addTimerInLoop_safe (s := { s with loop := loop }) clock owned.sizes found ⟨timers, actives⟩).mono ?_
  rintro s' ⟨T, A, alarm, settimes, rfl, adds, rearms⟩
  refine ⟨timer, found, rfl, rfl, fun issued => ?_⟩
  refine .insert a p timer clock T A alarm settimes loop issued found placed ⟨adds.1, adds.2, adds.3⟩ ?_
  cases rearms with
  | earliest before => exact .earliest before
  | later e member le => exact .later e member le

theorem newTimer_safe (expiration : Int) (interval : Interval) (owned : s.Owned place) :
    Safe (fun s' => place p = none ∧ 0 < p ∧ p < uintptrMax ∧ s' = { s with
        heap := Function.update s.heap p (some ⟨expiration, interval, s.sNumCreated⟩)
        sNumCreated := s.sNumCreated + 1 }) (s.newTimer p expiration interval) := by
  simp only [newTimer, safe_bind, safe_require, safe_pure]
  rintro ⟨positive, range, free⟩
  exact ⟨owned.free.mp (Option.isNone_iff_eq_none.mp free), positive, range, trivial⟩

theorem addTimer_effect (expiration : Int) (interval : Interval) (clock : Int) (owned : s.Owned place)
    (queued : s.Queued place) :
    Safe (fun s' => ∃ place', Effect s place (.add p expiration interval clock) s' place' ∧ s'.Queued place')
      (s.addTimer p expiration interval clock) := by
  refine Safe.bind (newTimer_safe expiration interval owned) ?_
  rintro s' ⟨free, positive, range, rfl⟩
  have created : { s with
      heap := Function.update s.heap p (some ⟨expiration, interval, s.sNumCreated⟩)
      sNumCreated := s.sNumCreated + 1 : TimerState }.Owned (Function.update place p (some .queued)) :=
    owned.create free range rfl
  refine Safe.bind (addTimerInLoop_effect (.add p expiration interval clock) s.loop clock created
    (Function.update_self _ _ _)) ?_
  rintro s'' ⟨timer, found, heap, loop, effect⟩
  simp only [read, found, demand, safe_bind, safe_ok, safe_pure]
  refine ⟨_, .add (.create _ p _ s.loop free range rfl positive rfl) (effect _) heap, queued.congr loop fun q => ?_⟩
  by_cases here : q = p
  · subst here
    simp [free]
  · rw [Function.update_of_ne here, Function.update_of_ne here]

theorem getExpired_owned (now : Int) (alarm : Option Int) (owned : s.Owned place) :
    Safe (fun r => ∃ T A, r.1 = { s with alarm := alarm, timers := T, activeTimers := A } ∧
        Expires s now r.2 T A) ({ s with alarm := alarm }.getExpired now) := by
  refine (getExpired_safe (s := { s with alarm := alarm }) now owned.sizes ?range ?apart ?current ?present).mono ?after
  case range =>
    intro e member
    exact (owned.each e.timer).range (by simp [((owned.timers e).mp member).1])
  case apart =>
    intro e member f member' same
    obtain ⟨_, timer, found, when⟩ := (owned.timers e).mp member
    obtain ⟨_, timer', found', when'⟩ := (owned.timers f).mp member'
    rw [← same, found, Option.some.injEq] at found'
    exact entry_ext (when.symm.trans (found' ▸ when')) same
  case current => exact fun a member => ((owned.actives a).mp member).2
  case present =>
    intro e member
    obtain ⟨armed, timer, found, _⟩ := (owned.timers e).mp member
    exact ⟨timer, found, (owned.actives _).mpr ⟨armed, timer, found, rfl⟩⟩
  case after =>
    rintro ⟨s', expired⟩ ⟨T, A, rfl, expires⟩
    exact ⟨T, A, rfl, ⟨expires.1, expires.2, expires.3, expires.4, expires.5⟩⟩

theorem handleRead_effect (now : Int) (ready : Bool) (owned : s.Owned place) (queued : s.Queued place)
    (idle : s.batch = none) :
    Safe (fun s' => ∃ place', Effect s place (.handleRead now ready) s' place' ∧ s'.Queued place')
      (s.handleRead now ready) := by
  have read : (if ready then { s with alarm := none } else s) =
      { s with alarm := if ready then none else s.alarm } := by cases ready <;> rfl
  rw [handleRead, read]
  refine Safe.bind (getExpired_owned now _ owned) ?_
  rintro ⟨s', expired⟩ ⟨T, A, rfl, expires⟩
  refine ⟨_, .expire now ready expired T A idle expires, queued.congr rfl fun q => ?_⟩
  by_cases inside : q ∈ addresses expired
  · obtain ⟨e, member, rfl⟩ := List.mem_map.mp inside
    have armed := ((owned.timers e).mp ((expires.due e).mp member).1).1
    simp [placesExpired, inside, armed]
  · simp [placesExpired, inside]

theorem reset_owned {b : Batch} (clock : Int) (owned : s.Owned place) (running : s.batch = some b) :
    Safe (fun s' => ∃ H T A D alarm settimes,
        s' = { s with
          heap := H, timers := T, activeTimers := A, log := s.log ++ D, alarm := alarm, settimes := settimes
          callingExpiredTimers := false } ∧
        Resets s b.now b.expired H T A D ∧ ArmsNext s T clock alarm settimes)
      ({ s with callingExpiredTimers := false }.reset b.expired b.now clock) := by
  have expired (q : Addr) (inside : q ∈ addresses b.expired) := (owned.expired running q).mp inside
  refine (reset_safe (s := { s with callingExpiredTimers := false }) b.now clock b.expired
    (owned.batch b running).distinct owned.sizes ?live owned.unique ?unarmed ?listed).mono ?after
  case live => exact fun q inside => owned.found (expired q inside)
  case unarmed =>
    intro q inside
    obtain ⟨timers, actives⟩ := owned.unarmed (p := q) (by simp [expired q inside])
    exact ⟨timers, actives⟩
  case listed => exact fun e member => ((owned.timers e).mp member).2
  case after =>
    rintro s' ⟨H, T, A, D, alarm, settimes, rfl, resets, arms⟩
    refine ⟨H, T, A, D, alarm, settimes, rfl, ?_, ?_⟩
    · exact ⟨resets.1, resets.2, resets.3, resets.4, resets.5, resets.6, resets.7⟩
    · cases arms with
      | empty none => exact .empty none
      | past first member least invalid => exact .past first member least invalid
      | set first member least valid => exact .set first member least valid

theorem reset_effect {b : Batch} (clock : Int) (owned : s.Owned place) (queued : s.Queued place)
    (running : s.batch = some b) (done : b.rest = []) :
    Safe (fun s' => ∃ place', Effect s place (.reset clock) { s' with batch := none } place' ∧
        { s' with batch := none : TimerState }.Queued place')
      ({ s with callingExpiredTimers := false }.reset b.expired b.now clock) := by
  refine (reset_owned clock owned running).mono ?_
  rintro s' ⟨H, T, A, D, alarm, settimes, rfl, resets, arms⟩
  refine ⟨_, .reset clock b H T A D alarm settimes running done resets arms, queued.congr rfl fun q => ?_⟩
  by_cases inside : q ∈ addresses b.expired
  · rw [placesReset, if_pos inside, (owned.expired running q).mp inside]
    cases H q <;> simp
  · rw [placesReset, if_neg inside]

/-- Reading the sequence number for the id off the loop thread is left out here: by then the loop
may have deleted the Timer. -/
theorem step_effect (a : Action) (onLoop : ∀ t, a ≠ .returnId t) (owned : s.Owned place)
    (queued : s.Queued place) :
    Safe (fun s' => ∃ place', Effect s place a s' place' ∧ s'.Queued place') (s.step a) := by
  cases a with
  | returnId t => exact absurd rfl (onLoop t)
  | addOther t p expiration interval =>
    simp only [step, safe_bind, safe_require]
    refine fun _ => Safe.mono (newTimer_safe expiration interval owned) ?_
    rintro s' ⟨free, positive, range, rfl⟩
    refine (EventLoop.enter_safe _ t _).mono ?_
    rintro loop ⟨idle, sameQueue, flight⟩
    -- the new Timer is carried by the functor that is about to be pushed, and by no other
    refine ⟨_, .create _ p _ loop free range rfl positive rfl, fun q => ?_, ?_⟩
    · refine (EventLoop.carries_enter idle sameQueue flight q).trans ?_
      rw [queued.carries]
      by_cases here : q = p
      · subst here
        simp [TimerFunctor.owned]
      · rw [Function.update_of_ne here, TimerFunctor.owned, Option.some.injEq]
        exact or_iff_left (Ne.symm here)
    · refine EventLoop.carriesOnce_enter queued.once sameQueue flight ?_
      rintro q ⟨⟩ carried
      rw [queued.carries, free] at carried
      cases carried
  | cancelOther t id =>
    simp only [step, safe_bind, safe_require]
    refine fun _ => (EventLoop.enter_safe _ t _).mono ?_
    rintro loop ⟨idle, sameQueue, flight⟩
    refine ⟨place, .quiet _ loop s.returning s.issued, fun q => ?_, ?_⟩
    · refine (EventLoop.carries_enter idle sameQueue flight q).trans ?_
      rw [queued.carries]
      exact or_iff_left (by rintro ⟨⟩)
    · exact EventLoop.carriesOnce_enter queued.once sameQueue flight (by rintro _ ⟨⟩)
  | push t =>
    simp only [step, safe_bind]
    refine (EventLoop.push_safe _ t).mono ?_
    rintro ⟨f, loop⟩ ⟨held, pushed, flight⟩
    refine ⟨place, .quiet _ loop _ s.issued, fun q => ?_, ?_⟩
    · exact (EventLoop.carries_push held pushed flight q).trans (queued.carries q)
    · exact EventLoop.carriesOnce_push queued.once held pushed flight
  | add p expiration interval clock =>
    simp only [step, safe_bind, safe_require]
    exact fun _ => addTimer_effect expiration interval clock owned queued
  | cancel id =>
    simp only [step, safe_bind, safe_require]
    have cancels : s.cancelledBy (.cancel id) = some id := rfl
    refine fun _ => (cancelInLoop_effect s.loop owned cancels).mono ?_
    rintro s' ⟨place', effect, loop, same⟩
    exact ⟨place', effect, queued.congr loop same⟩
  | poll =>
    simp only [step, safe_bind, safe_require]
    exact fun _ => s.loop.poll_safe.mono fun loop same => ⟨place, .quiet _ loop _ _, queued.moved same⟩
  | swap =>
    simp only [step, safe_bind, safe_require]
    exact fun _ => s.loop.swap_safe.mono fun loop same => ⟨place, .quiet _ loop _ _, queued.moved same⟩
  | finish =>
    simp only [step, safe_bind, safe_require]
    exact fun _ => s.loop.finish_safe.mono fun loop same => ⟨place, .quiet _ loop _ _, queued.moved same⟩
  | functor clock =>
    simp only [step, safe_bind, safe_require]
    refine fun _ => Safe.mono (EventLoop.next_safe _) ?_
    rintro ⟨f, loop⟩ ⟨head, order, flight⟩
    have carries (q : Addr) := EventLoop.carries_next queued.once order flight q
    have once := EventLoop.carriesOnce_next queued.once order flight
    cases f with
    | addTimerInLoop p =>
      -- the functor was the one that carried the Timer, which is armed now
      have placed : place p = some .queued := (queued.carries p).mp (Or.inl (by simp [order, TimerFunctor.owned]))
      refine (addTimerInLoop_effect (.functor clock) loop clock owned placed).mono ?_
      rintro s' ⟨_, _, _, rfl, effect⟩
      refine ⟨_, effect s'.issued, fun q => ?_, once⟩
      rw [carries, queued.carries, TimerFunctor.owned]
      by_cases here : q = p
      · subst here
        simp
      · rw [Function.update_of_ne here, and_iff_left (fun same => here (Option.some.inj same).symm)]
    | cancelInLoop id =>
      have cancels : s.cancelledBy (.functor clock) = some id := by simp only [cancelledBy, head]
      refine (cancelInLoop_effect loop owned cancels).mono ?_
      rintro s' ⟨place', effect, rfl, same⟩
      refine ⟨place', effect, fun q => ?_, once⟩
      rw [carries, same, queued.carries, and_iff_left (by rintro ⟨⟩)]
  | handleRead now ready =>
    simp only [step, safe_bind, safe_require]
    rintro ⟨idle, _⟩
    exact handleRead_effect now ready owned queued (Option.isNone_iff_eq_none.mp idle)
  | run =>
    simp only [step, safe_bind, safe_given, safe_require]
    intro b running _
    cases next : b.rest with
    | nil => simp only [runNext, next]; trivial
    | cons e rest =>
      -- a Timer of the batch is not deleted before `Reset`
      have inside : e.timer ∈ addresses b.expired := by
        refine List.mem_map_of_mem ((owned.batch b running).rest.subset ?_)
        rw [next]
        exact List.mem_cons_self
      obtain ⟨timer, found⟩ := owned.found ((owned.expired running _).mp inside)
      simp only [runNext, next, read, found, demand, safe_bind, safe_ok, safe_pure]
      exact ⟨place, .start b e rest timer running next found, queued.congr rfl fun _ => Iff.rfl⟩
  | ret =>
    simp only [step, safe_bind, safe_given, safe_require, safe_pure]
    exact fun b running _ => ⟨place, .ret b running, queued.congr rfl fun _ => Iff.rfl⟩
  | reset clock =>
    simp only [step, safe_bind, safe_given, safe_require]
    rintro b running ⟨_, done⟩
    exact reset_effect clock owned queued running done

/-! ### The record of a run -/

/-- The second event may come after the first. -/
def MayFollow : TimerEvent → TimerEvent → Prop
  | .deleted q, .started q' _ => q ≠ q'
  | .deleted q, .deleted q' => q ≠ q'
  | .started q repeats, .started q' _ => repeats = false → q ≠ q'
  | _, _ => True

structure Recorded (s : TimerState) (place : Places) : Prop where
  order : s.log.Pairwise MayFollow
  deleted : ∀ q, .deleted q ∈ s.log → q < s.sNumCreated ∧ ∀ p timer, s.heap p = some timer → timer.sequence ≠ q
  inserted : ∀ p q r, .inserted p q r ∈ s.log →
    (∃ timer, s.heap p = some timer ∧ timer.sequence = q ∧ timer.repeats = r ∧ place p ≠ some .queued) ∨
      .deleted q ∈ s.log ∧ (r = true → .cancelled (active p q) ∈ s.log)
  canceling : ∀ a ∈ s.cancelingTimers, .cancelled a ∈ s.log
  started : ∀ q, .started q false ∈ s.log → .deleted q ∈ s.log ∨ ∃ p timer, s.heap p = some timer ∧
    timer.sequence = q ∧ timer.repeats = false ∧ place p = some .expired ∧ p ∉ s.unstarted

theorem recorded_start : start.Recorded (fun _ => none) := by
  constructor <;> simp [start]

theorem Recorded.create {loop : EventLoop TimerFunctor} (recorded : s.Recorded place) (owned : s.Owned place)
    (free : place p = none) (sequence : timer.sequence = s.sNumCreated) :
    { s with
      heap := Function.update s.heap p (some timer), sNumCreated := s.sNumCreated + 1
      loop := loop : TimerState }.Recorded (Function.update place p (some .queued)) := by
  have apart (q : Addr) (timer' : Timer) (found : s.heap q = some timer') : q ≠ p := by
    rintro rfl
    rw [owned.free.mpr free] at found
    cases found
  constructor
  case order => exact recorded.order
  case deleted =>
    intro q gone
    obtain ⟨old, dead⟩ := recorded.deleted q gone
    refine ⟨Nat.lt_succ_of_lt old, fun q' timer' found => ?_⟩
    -- the new Timer has a number that was never given out
    by_cases here : q' = p
    · subst here
      simp only [Function.update_self, Option.some.injEq] at found
      rw [← found, sequence]
      exact (ne_of_lt old).symm
    · simp only [Function.update_of_ne here] at found
      exact dead q' timer' found
  case inserted =>
    intro q n r member
    rcases recorded.inserted q n r member with ⟨timer', found, rest⟩ | gone
    · have here := apart q timer' found
      exact Or.inl ⟨timer', by simpa only [Function.update_of_ne here] using found,
        by simpa only [Function.update_of_ne here] using rest⟩
    · exact Or.inr gone
  case canceling => exact recorded.canceling
  case started =>
    intro q member
    rcases recorded.started q member with gone | ⟨q', timer', found, same, repeats, expired, rest⟩
    · exact Or.inl gone
    · have here := apart q' timer' found
      exact Or.inr ⟨q', timer', by simpa only [Function.update_of_ne here] using found, same, repeats,
        by rwa [Function.update_of_ne here], rest⟩

/-- An event that only tells what is already so may always be added. -/
theorem order_append {event : TimerEvent} (order : s.log.Pairwise MayFollow)
    (follows : ∀ earlier ∈ s.log, MayFollow earlier event) : (s.log ++ [event]).Pairwise MayFollow := by
  refine List.pairwise_append.mpr ⟨order, List.pairwise_singleton _ _, fun earlier member later last => ?_⟩
  rw [List.mem_singleton.mp last]
  exact follows earlier member

theorem Recorded.insert {T : OrderedSet Entry} {A : OrderedSet ActiveTimer} {alarm : Option Int}
    {settimes : List Timespec} {loop : EventLoop TimerFunctor} {issued : List ActiveTimer}
    (recorded : s.Recorded place) (found : s.heap p = some timer) (placed : place p = some .queued) :
    { s with
      timers := T, activeTimers := A, alarm := alarm, settimes := settimes, loop := loop
      issued := issued
      log := s.log ++ [.inserted p timer.sequence timer.repeats] : TimerState }.Recorded
      (Function.update place p (some .armed)) := by
  constructor
  case order => exact order_append recorded.order fun earlier _ => by cases earlier <;> trivial
  case deleted =>
    intro q gone
    exact recorded.deleted q (by simpa using gone)
  case inserted =>
    intro q n r member
    rcases List.mem_append.mp member with old | new
    · rcases recorded.inserted q n r old with ⟨timer', found', sequence, repeats, elsewhere⟩ | ⟨gone, cancelled⟩
      · have here : q ≠ p := by
          rintro rfl
          exact elsewhere placed
        exact Or.inl ⟨timer', found', sequence, repeats, by rwa [Function.update_of_ne here]⟩
      · exact Or.inr ⟨List.mem_append_left _ gone, fun repeats => List.mem_append_left _ (cancelled repeats)⟩
    · obtain ⟨rfl, rfl, rfl⟩ := TimerEvent.inserted.inj (List.mem_singleton.mp new)
      exact Or.inl ⟨timer, found, rfl, rfl, by simp⟩
  case canceling => exact fun a member => List.mem_append_left _ (recorded.canceling a member)
  case started =>
    intro q member
    rcases recorded.started q (by simpa using member) with gone | ⟨q', timer', found', sequence, repeats, expired, rest⟩
    · exact Or.inl (List.mem_append_left _ gone)
    · have here : q' ≠ p := by
        rintro rfl
        rw [placed] at expired
        cases expired
      exact Or.inr ⟨q', timer', found', sequence, repeats, by rwa [Function.update_of_ne here], rest⟩

theorem Recorded.cancelArmed {id : ActiveTimer} {T : OrderedSet Entry} {A : OrderedSet ActiveTimer}
    {loop : EventLoop TimerFunctor} (recorded : s.Recorded place) (owned : s.Owned place)
    (found : s.heap id.timer = some timer) (sequence : timer.sequence = id.sequence)
    (placed : place id.timer = some .armed) :
    { s with
      heap := Function.update s.heap id.timer none, timers := T, activeTimers := A, loop := loop
      log := s.log ++ [.deleted id.sequence, .cancelled id] : TimerState }.Recorded
      (Function.update place id.timer none) := by
  have kept (q : Addr) (timer' : Timer) (found' : Function.update s.heap id.timer none q = some timer') :
      q ≠ id.timer ∧ s.heap q = some timer' := by
    by_cases here : q = id.timer
    · subst here
      rw [Function.update_self] at found'
      cases found'
    · exact ⟨here, by rwa [Function.update_of_ne here] at found'⟩
  constructor
  case order =>
    refine List.pairwise_append.mpr ⟨recorded.order, by simp [MayFollow], fun earlier member later last => ?_⟩
    rcases List.mem_pair.mp last with rfl | rfl
    · cases earlier with
      | deleted q => exact fun same => (recorded.deleted q member).2 _ timer found (sequence.trans same.symm)
      | _ => trivial
    · cases earlier <;> trivial
  case deleted =>
    intro q gone
    rcases List.mem_append.mp gone with old | new
    · obtain ⟨less, dead⟩ := recorded.deleted q old
      exact ⟨less, fun q' timer' found' => dead q' timer' (kept q' timer' found').2⟩
    · obtain rfl : q = id.sequence := by simpa using new
      refine ⟨sequence ▸ (owned.each _).fresh timer found, fun q' timer' found' same => ?_⟩
      obtain ⟨elsewhere, before⟩ := kept q' timer' found'
      exact elsewhere (owned.unique q' id.timer timer' timer before found (same.trans sequence.symm))
  case inserted =>
    intro q n r member
    rcases recorded.inserted q n r (by simpa using member) with ⟨timer', found', rfl, rest⟩ | ⟨gone, cancelled⟩
    · by_cases here : q = id.timer
      · -- this is the timer the cancel has deleted
        rw [here, found, Option.some.injEq] at found'
        subst found'
        have same : active q timer.sequence = id := active_ext here sequence
        exact Or.inr ⟨by simp [sequence], fun _ => by simp [same]⟩
      · exact Or.inl ⟨timer', by simpa only [Function.update_of_ne here] using found', rfl,
          by simpa only [Function.update_of_ne here] using rest⟩
    · exact Or.inr ⟨List.mem_append_left _ gone, fun repeats => List.mem_append_left _ (cancelled repeats)⟩
  case canceling => exact fun a member => List.mem_append_left _ (recorded.canceling a member)
  case started =>
    intro q member
    rcases recorded.started q (by simpa using member) with gone | ⟨q', timer', found', same, repeats, expired, rest⟩
    · exact Or.inl (List.mem_append_left _ gone)
    · have here : q' ≠ id.timer := by
        rintro rfl
        rw [placed] at expired
        cases expired
      exact Or.inr ⟨q', timer', by simpa only [Function.update_of_ne here] using found', same, repeats,
        by rwa [Function.update_of_ne here], rest⟩

theorem Recorded.cancelUnarmed {id : ActiveTimer} {canceling : OrderedSet ActiveTimer}
    {loop : EventLoop TimerFunctor} (recorded : s.Recorded place)
    (grows : ∀ a ∈ canceling, a = id ∨ a ∈ s.cancelingTimers) :
    { s with cancelingTimers := canceling, loop := loop, log := s.log ++ [.cancelled id] : TimerState }.Recorded
      place := by
  constructor
  case order => exact order_append recorded.order fun earlier _ => by cases earlier <;> trivial
  case deleted => exact fun q gone => recorded.deleted q (by simpa using gone)
  case inserted =>
    intro q n r member
    rcases recorded.inserted q n r (by simpa using member) with here | ⟨gone, cancelled⟩
    · exact Or.inl here
    · exact Or.inr ⟨List.mem_append_left _ gone, fun repeats => List.mem_append_left _ (cancelled repeats)⟩
  case canceling =>
    intro a member
    rcases grows a member with rfl | old
    · exact List.mem_append_right _ List.mem_cons_self
    · exact List.mem_append_left _ (recorded.canceling a old)
  case started =>
    intro q member
    rcases recorded.started q (by simpa using member) with gone | here
    · exact Or.inl (List.mem_append_left _ gone)
    · exact Or.inr here

theorem Recorded.expire {now : Int} {expired : List Entry} {T : OrderedSet Entry} {A : OrderedSet ActiveTimer}
    {alarm : Option Int} (recorded : s.Recorded place) (owned : s.Owned place) (idle : s.batch = none) :
    { s with
      alarm := alarm, timers := T, activeTimers := A, callingExpiredTimers := true
      cancelingTimers := .empty
      batch := some ⟨now, expired, s.membersOf expired, expired, false⟩ : TimerState }.Recorded
      (placesExpired place expired) := by
  constructor
  case order => exact recorded.order
  case deleted => exact recorded.deleted
  case inserted =>
    intro q n r member
    rcases recorded.inserted q n r member with ⟨timer, found, sequence, repeats, elsewhere⟩ | gone
    · refine Or.inl ⟨timer, found, sequence, repeats, ?_⟩
      unfold placesExpired
      split
      · simp
      · exact elsewhere
    · exact Or.inr gone
  case canceling => exact fun a member => absurd member (OrderedSet.not_mem_empty a)
  case started =>
    intro q member
    rcases recorded.started q member with gone | ⟨q', timer, found, _, _, inBatch, _⟩
    · exact Or.inl gone
    · -- there was no batch before
      have inside := (owned.members (active q' timer.sequence)).mpr ⟨inBatch, timer, found, rfl⟩
      simp [batchMembers, idle] at inside

/-- The timer of the next entry has not been started in this batch, nor ever if it is one-shot. -/
theorem Recorded.start {b : Batch} {e : Entry} {rest : List Entry} (recorded : s.Recorded place)
    (owned : s.Owned place) (running : s.batch = some b) (next : b.rest = e :: rest)
    (found : s.heap e.timer = some timer) :
    { s with
      batch := some { b with rest := rest, running := true }
      log := s.log ++ [.started timer.sequence timer.repeats] : TimerState }.Recorded place := by
  have wf := owned.batch b running
  have unstarted : s.unstarted = e.timer :: addresses rest := by
    rw [TimerState.unstarted, running]
    exact (congrArg addresses next).trans List.map_cons
  have inside : e.timer ∈ addresses b.expired := by
    refine List.mem_map_of_mem (wf.rest.subset ?_)
    rw [next]
    exact List.mem_cons_self
  have alive (q : Nat) (gone : .deleted q ∈ s.log) : q ≠ timer.sequence := fun same =>
    (recorded.deleted q gone).2 e.timer timer found same.symm
  constructor
  case order =>
    refine order_append recorded.order fun earlier member => ?_
    cases earlier with
    | deleted q => exact alive q member
    | started q repeats =>
      rintro rfl rfl
      rcases recorded.started _ member with gone | ⟨q', timer', found', same, _, _, done⟩
      · exact alive _ gone rfl
      · rw [owned.unique q' e.timer timer' timer found' found same, unstarted] at done
        exact done List.mem_cons_self
    | _ => trivial
  case deleted => exact fun q gone => recorded.deleted q (by simpa using gone)
  case inserted =>
    intro q n r member
    rcases recorded.inserted q n r (by simpa using member) with here | ⟨gone, cancelled⟩
    · exact Or.inl here
    · exact Or.inr ⟨List.mem_append_left _ gone, fun repeats => List.mem_append_left _ (cancelled repeats)⟩
  case canceling => exact fun a member => List.mem_append_left _ (recorded.canceling a member)
  case started =>
    intro q member
    rcases List.mem_append.mp member with old | new
    · rcases recorded.started q old with gone | ⟨q', timer', found', same, repeats, expired, done⟩
      · exact Or.inl (List.mem_append_left _ gone)
      · rw [unstarted, List.mem_cons, not_or] at done
        exact Or.inr ⟨q', timer', found', same, repeats, expired, done.2⟩
    · obtain ⟨rfl, repeats⟩ := TimerEvent.started.inj (List.mem_singleton.mp new)
      refine Or.inr ⟨e.timer, timer, found, rfl, repeats.symm, (owned.expired running _).mp inside, ?_⟩
      have distinct := wf.distinct.sublist (wf.rest.sublist.map Entry.timer)
      rw [next] at distinct
      exact (List.nodup_cons.mp distinct).1

theorem Recorded.reset {b : Batch} {H : Addr → Option Timer} {T : OrderedSet Entry} {A : OrderedSet ActiveTimer}
    {D : List TimerEvent} {alarm : Option Int} {settimes : List Timespec} (recorded : s.Recorded place)
    (owned : s.Owned place) (running : s.batch = some b) (resets : Resets s b.now b.expired H T A D) :
    { s with
      heap := H, timers := T, activeTimers := A, log := s.log ++ D, alarm := alarm, settimes := settimes
      callingExpiredTimers := false, batch := none : TimerState }.Recorded (placesReset place b.expired H) := by
  have live (p : Addr) (inside : p ∈ addresses b.expired) : ∃ timer, s.heap p = some timer :=
    owned.found ((owned.expired running p).mp inside)
  constructor
  case order =>
    refine List.pairwise_append.mpr ⟨recorded.order, ?_, fun earlier member later last => ?_⟩
    · refine List.Pairwise.imp_of_mem ?_ resets.once
      intro one other memberOne memberOther different
      obtain ⟨_, _, _, _, _, rfl⟩ := (resets.deleted one).mp memberOne
      obtain ⟨_, _, _, _, _, rfl⟩ := (resets.deleted other).mp memberOther
      exact fun same => different (congrArg TimerEvent.deleted same)
    · obtain ⟨q, timer, _, found, _, rfl⟩ := (resets.deleted later).mp last
      cases earlier with
      | deleted n => exact fun same => (recorded.deleted n member).2 q timer found same.symm
      | _ => trivial
  case deleted =>
    intro n gone
    rcases List.mem_append.mp gone with old | new
    · obtain ⟨less, dead⟩ := recorded.deleted n old
      refine ⟨less, fun q timer found => ?_⟩
      obtain ⟨before, foundBefore, sequence, _⟩ := resets.same_sequence live found
      exact sequence ▸ dead q before foundBefore
    · obtain ⟨q, timer, _, found, freed, same⟩ := (resets.deleted _).mp new
      obtain rfl := TimerEvent.deleted.inj same
      refine ⟨(owned.each q).fresh timer found, fun q' timer' found' same' => ?_⟩
      obtain ⟨before, foundBefore, sequence, _⟩ := resets.same_sequence live found'
      obtain rfl := owned.unique q' q before timer foundBefore found (sequence.symm.trans same')
      cases freed.symm.trans found'
  case inserted =>
    intro q n r member
    have old : TimerEvent.inserted q n r ∈ s.log := by
      rcases List.mem_append.mp member with old | new
      · exact old
      · obtain ⟨_, _, _, _, _, different⟩ := (resets.deleted _).mp new
        cases different
    rcases recorded.inserted q n r old with ⟨timer, found, rfl, rfl, elsewhere⟩ | ⟨gone, cancelled⟩
    · by_cases inside : q ∈ addresses b.expired
      · have outcome := resets.outcome q timer inside found
        by_cases keeps : s.Keeps q timer
        · rw [if_pos keeps] at outcome
          exact Or.inl ⟨timer.restart b.now, outcome, rfl, rfl, by simp [placesReset, inside, outcome]⟩
        · rw [if_neg keeps] at outcome
          refine Or.inr ⟨List.mem_append_right _ ((resets.deleted _).mpr ⟨q, timer, inside, found, outcome, rfl⟩), ?_⟩
          -- a repeating timer is dropped only for a cancel
          intro repeats
          exact List.mem_append_left _ (recorded.canceling _ (not_not.mp fun absent => keeps ⟨repeats, absent⟩))
      · refine Or.inl ⟨timer, (resets.others q inside).trans found, rfl, rfl, ?_⟩
        rwa [placesReset, if_neg inside]
    · exact Or.inr ⟨List.mem_append_left _ gone, fun repeats => List.mem_append_left _ (cancelled repeats)⟩
  case canceling => exact fun a member => List.mem_append_left _ (recorded.canceling a member)
  case started =>
    intro n member
    have old : TimerEvent.started n false ∈ s.log := by
      rcases List.mem_append.mp member with old | new
      · exact old
      · obtain ⟨_, _, _, _, _, different⟩ := (resets.deleted _).mp new
        cases different
    rcases recorded.started n old with gone | ⟨q, timer, found, rfl, repeats, expired, _⟩
    · exact Or.inl (List.mem_append_left _ gone)
    · have inside := (owned.expired running q).mpr expired
      have outcome := resets.outcome q timer inside found
      have drops : ¬ s.Keeps q timer := fun keeps =>
        Bool.false_ne_true (repeats.symm.trans keeps.1)
      rw [if_neg drops] at outcome
      exact Or.inl (List.mem_append_right _ ((resets.deleted _).mpr ⟨q, timer, inside, found, outcome, rfl⟩))

theorem Recorded.effect {s' : TimerState} {place' : Places} {a : Action} (effect : Effect s place a s' place')
    (owned : s.Owned place) (recorded : s.Recorded place) : s'.Recorded place' := by
  induction effect with
  | quiet => exact ⟨recorded.1, recorded.2, recorded.3, recorded.4, recorded.5⟩
  | create a p timer loop free _ sequence => exact recorded.create owned free sequence
  | insert a p timer clock T A alarm settimes loop issued found placed _ _ => exact recorded.insert found placed
  | add first _ _ afterFirst afterSecond =>
    exact afterSecond (owned.effect first) (afterFirst owned recorded)
  | cancelArmed a id timer T A loop _ found sequence placed _ =>
    exact recorded.cancelArmed owned found sequence placed
  | cancelUnarmed a id loop _ _ =>
    refine recorded.cancelUnarmed fun a member => ?_
    split at member
    · exact OrderedSet.mem_insert.mp member
    · exact Or.inr member
  | expire now ready expired T A idle _ => exact recorded.expire owned idle
  | start b e rest timer running next found => exact recorded.start owned running next found
  | ret b running =>
    refine ⟨recorded.1, recorded.2, recorded.3, recorded.4, fun q member => ?_⟩
    have same := recorded.started q member
    simpa only [unstarted, running] using same
  | reset clock b H T A D alarm settimes running _ resets _ => exact recorded.reset owned running resets

/-! ### Every run -/

/-- The invariant of the queue: somewhere every live Timer has its place. -/
def Inv (s : TimerState) : Prop := ∃ place, s.Owned place ∧ s.Queued place ∧ s.Recorded place

theorem inv_start : start.Inv := ⟨fun _ => none, owned_start, queued_start, recorded_start⟩

theorem step_inv (a : Action) (onLoop : ∀ t, a ≠ .returnId t) (inv : s.Inv) : Safe Inv (s.step a) := by
  obtain ⟨place, owned, queued, recorded⟩ := inv
  refine (step_effect a onLoop owned queued).mono ?_
  rintro s' ⟨place', effect, queued'⟩
  exact ⟨place', owned.effect effect, queued', recorded.effect effect owned⟩

/-- What the queue keeps between its operations. -/
structure Consistent (s : TimerState) : Prop where
  represented : ∀ t p, entry t p ∈ s.timers ↔ ∃ timer, s.heap p = some timer ∧
    active p timer.sequence ∈ s.activeTimers ∧ timer.expiration = t
  sizes : s.timers.size = s.activeTimers.size
  /-- No pointer of the sets or of the batch dangles, or points to a later Timer. -/
  current : ∀ a, a ∈ s.activeTimers ∨ a ∈ s.batchMembers →
    ∃ timer, s.heap a.timer = some timer ∧ timer.sequence = a.sequence
  owned : ∀ p q repeats, .inserted p q repeats ∈ s.log → .deleted q ∉ s.log →
    Xor (active p q ∈ s.activeTimers) (active p q ∈ s.batchMembers)
  order : s.log.Pairwise MayFollow
  back : s.batch = none → ∀ p q, .inserted p q true ∈ s.log → .cancelled (active p q) ∉ s.log →
    active p q ∈ s.activeTimers

/-- A live Timer that is not on the way to the loop is armed or in the batch. -/
theorem Owned.armed_or_expired (owned : s.Owned place) (found : s.heap p = some timer)
    (arrived : place p ≠ some .queued) : place p = some .armed ∨ place p = some .expired := by
  cases placed : place p with
  | none => rw [owned.free.mpr placed] at found; cases found
  | some k =>
    cases k with
    | queued => exact absurd placed arrived
    | armed => exact Or.inl rfl
    | expired => exact Or.inr rfl

theorem Inv.consistent (inv : s.Inv) : s.Consistent := by
  obtain ⟨place, owned, queued, recorded⟩ := inv
  constructor
  case represented => exact owned.entry_iff
  case sizes => exact owned.sizes
  case current =>
    rintro a (armed | expired)
    · exact ((owned.actives a).mp armed).2
    · exact ((owned.members a).mp expired).2
  case owned =>
    intro p q repeats member kept
    rcases recorded.inserted p q repeats member with ⟨timer, found, sequence, _, elsewhere⟩ | ⟨gone, _⟩
    · have alive : ∃ timer, s.heap p = some timer ∧ timer.sequence = q := ⟨timer, found, sequence⟩
      rw [owned.actives, owned.members]
      -- a live Timer has a place, and only one
      rcases owned.armed_or_expired found elsewhere with placed | placed
      · exact Or.inl ⟨⟨placed, alive⟩, not_in _ placed (by decide)⟩
      · exact Or.inr ⟨⟨placed, alive⟩, not_in _ placed (by decide)⟩
    · exact absurd gone kept
  case order => exact recorded.order
  case back =>
    intro idle p q member uncancelled
    rcases recorded.inserted p q true member with ⟨timer, found, sequence, _, elsewhere⟩ | ⟨_, cancelled⟩
    · rw [owned.actives]
      rcases owned.armed_or_expired found elsewhere with placed | placed
      · exact ⟨placed, timer, found, sequence⟩
      · have inside := (owned.members (active p q)).mpr ⟨placed, timer, found, sequence⟩
        simp [batchMembers, idle] at inside
    · exact absurd (cancelled rfl) uncancelled

/-- No check fails in a run of the queue, and every state it reaches is consistent. -/
theorem timers_consistent (acts : List Action) (onLoop : ∀ t, .returnId t ∉ acts) :
    Safe Consistent (Run.exec step start acts) := by
  have meets : Run.Meets step (fun _ a => ∀ t, a ≠ .returnId t) start acts := by
    refine Run.meets_of_forall start acts ?_
    rintro s a member t rfl
    exact onLoop t member
  refine (Run.exec_safe ?_ start acts inv_start meets).mono fun s inv => inv.consistent
  exact fun s a inv onLoop => step_inv a onLoop inv

/-- A repeating timer cancels itself in the batch that also runs a one-shot timer; the address
it leaves is used again. -/
def selfCancel : List Action :=
  [.add 1 5 (.every 10) 1, .add 2 6 .once 1, .poll, .handleRead 7 true, .run, .cancel (active 1 0), .ret,
    .run, .ret, .reset 8, .add 1 20 .once 9]

theorem timers_consistent_selfCancel : (∀ t, .returnId t ∉ selfCancel) ∧
    ∃ s, Run.exec step start selfCancel = .ok s ∧ s.Consistent ∧
      s.activeTimers.toList = [active 1 2] := by
  have onLoop : ∀ t, .returnId t ∉ selfCancel := by simp [selfCancel]
  have last : (Run.exec step start selfCancel).toOption.map (fun s => s.activeTimers.toList) =
      some [active 1 2] := by decide +kernel
  obtain ⟨s, reached, armed⟩ := returned_of_map last
  exact ⟨onLoop, s, reached, (timers_consistent selfCancel onLoop).result reached, armed⟩

end Rnet.Network.TimerState
