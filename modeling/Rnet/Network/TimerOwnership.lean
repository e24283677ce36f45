import Rnet.Network.TimerOperations

/-!
# Who owns a Timer

Every live Timer is in one place: on its way to the loop in a queued `AddTimerInLoop`, armed in
`timers_` and `activeTimers_`, or in the expired batch of the running `HandleRead`. The places
are a function of the address, so that no Timer can be in two. `Owned` ties them to the state of
the queue, and `Effect` says once what a step does to both.
-/
namespace Rnet.Network

open Check

inductive Place where
  | queued
  | armed
  | expired
  deriving DecidableEq, Repr

abbrev Places := Addr → Option Place

open TimerState in
/-- The entries of a batch and the timers they were taken out for. -/
structure Batch.Wf (b : Batch) : Prop where
  same : addresses b.expired = b.members.map ActiveTimer.timer
  distinct : (addresses b.expired).Nodup
  rest : b.rest <:+ b.expired

namespace TimerState

variable {s : TimerState} {place : Places} {p : Addr} {timer : Timer}

/-- The Timer `id` names is alive and in place `k`. -/
def In (s : TimerState) (place : Places) (k : Place) (id : ActiveTimer) : Prop :=
  place id.timer = some k ∧ ∃ timer, s.heap id.timer = some timer ∧ timer.sequence = id.sequence

/-- The timers of the running batch. -/
def batchMembers (s : TimerState) : List ActiveTimer :=
  match s.batch with
  | some b => b.members
  | none => []

/-- The addresses of the batch whose callbacks have not been started. -/
def unstarted (s : TimerState) : List Addr :=
  match s.batch with
  | some b => addresses b.rest
  | none => []

/-- What holds of one address. -/
structure OwnedAt (s : TimerState) (place : Places) (p : Addr) : Prop where
  live : (s.heap p).isSome = (place p).isSome
  range : (place p).isSome → p < uintptrMax
  fresh : ∀ timer, s.heap p = some timer → timer.sequence < s.sNumCreated
  timers : ∀ t, entry t p ∈ s.timers ↔
    place p = some .armed ∧ ∃ timer, s.heap p = some timer ∧ timer.expiration = t
  actives : ∀ q, active p q ∈ s.activeTimers ↔ s.In place .armed (active p q)
  members : ∀ q, active p q ∈ s.batchMembers ↔ s.In place .expired (active p q)

structure Owned (s : TimerState) (place : Places) : Prop where
  each : ∀ p, s.OwnedAt place p
  unique : ∀ p p' timer timer', s.heap p = some timer → s.heap p' = some timer' →
    timer.sequence = timer'.sequence → p = p'
  sizes : s.timers.size = s.activeTimers.size
  batch : ∀ b, s.batch = some b → b.Wf
  calling : s.callingExpiredTimers = s.batch.isSome

/-- The queued functors own the Timers that are on their way, each one functor. -/
structure Queued (s : TimerState) (place : Places) : Prop where
  carries : ∀ p, s.loop.Carries TimerFunctor.owned p ↔ place p = some .queued
  once : s.loop.CarriesOnce TimerFunctor.owned

theorem Owned.timers (owned : s.Owned place) (e : Entry) :
    e ∈ s.timers ↔ place e.timer = some .armed ∧ ∃ timer, s.heap e.timer = some timer ∧ timer.expiration = e.when :=
  (owned.each e.timer).timers e.when

theorem Owned.actives (owned : s.Owned place) (a : ActiveTimer) : a ∈ s.activeTimers ↔ s.In place .armed a :=
  (owned.each a.timer).actives a.sequence

theorem Owned.members (owned : s.Owned place) (a : ActiveTimer) : a ∈ s.batchMembers ↔ s.In place .expired a :=
  (owned.each a.timer).members a.sequence

theorem Owned.found {k : Place} (owned : s.Owned place) (placed : place p = some k) :
    ∃ timer, s.heap p = some timer := by
  have live := (owned.each p).live
  rw [placed] at live
  exact Option.isSome_iff_exists.mp live

theorem Owned.free (owned : s.Owned place) : s.heap p = none ↔ place p = none := by
  rw [← Option.not_isSome_iff_eq_none, (owned.each p).live, Option.not_isSome_iff_eq_none]

theorem Owned.unarmed (owned : s.Owned place) (elsewhere : place p ≠ some .armed) : s.Unarmed p := by
  constructor
  · rintro e member rfl
    exact elsewhere ((owned.timers e).mp member).1
  · rintro a member rfl
    exact elsewhere ((owned.actives a).mp member).1

/-- The two sets agree. -/
theorem Owned.entry_iff (owned : s.Owned place) (t : Int) (p : Addr) :
    entry t p ∈ s.timers ↔ ∃ timer, s.heap p = some timer ∧
      active p timer.sequence ∈ s.activeTimers ∧ timer.expiration = t := by
  rw [owned.timers]
  constructor
  · rintro ⟨armed, timer, found, when⟩
    exact ⟨timer, found, (owned.actives _).mpr ⟨armed, timer, found, rfl⟩, when⟩
  · rintro ⟨timer, found, member, when⟩
    exact ⟨((owned.actives _).mp member).1, timer, found, when⟩

theorem owned_start : start.Owned (fun _ => none) := by
  constructor
  · intro p
    constructor <;> simp [start, In, batchMembers]
  all_goals simp [start]

theorem queued_start : start.Queued (fun _ => none) := by
  constructor
  · simp [start, EventLoop.start, EventLoop.Carries, EventLoop.queued]
  · constructor <;> simp [start, EventLoop.start, EventLoop.queued]

/-! ### What a step does -/

/-- The id for which the action calls `CancelInLoop`. -/
def cancelledBy (s : TimerState) : Action → Option ActiveTimer
  | .cancel id => some id
  | .functor _ => match s.loop.functors with
    | .cancelInLoop id :: _ => some id
    | _ => none
  | _ => none

/-- The Timer the action asks for. -/
def requestedBy (s : TimerState) : Action → List Timer
  | .addOther _ _ expiration interval => [⟨expiration, interval, s.sNumCreated⟩]
  | .add _ expiration interval _ => [⟨expiration, interval, s.sNumCreated⟩]
  | _ => []

/-- The addresses `expired` holds have left the sets for the batch. -/
def placesExpired (place : Places) (expired : List Entry) : Places :=
  fun p => if p ∈ addresses expired then some .expired else place p

/-- The batch is over: what is still alive of it is armed again. -/
def placesReset (place : Places) (expired : List Entry) (H : Addr → Option Timer) : Places :=
  fun p => if p ∈ addresses expired then (H p).map fun _ => .armed else place p

inductive Effect : TimerState → Places → Action → TimerState → Places → Prop where
  | quiet {s : TimerState} {place : Places} (a : Action) (loop : EventLoop TimerFunctor)
      (returning : Tid → Option Addr) (issued : List ActiveTimer) :
      Effect s place a { s with loop := loop, returning := returning, issued := issued } place
  | create {s : TimerState} {place : Places} (a : Action) (p : Addr) (timer : Timer)
      (loop : EventLoop TimerFunctor) (free : place p = none) (range : p < uintptrMax)
      (sequence : timer.sequence = s.sNumCreated) (positive : 0 < p) (requested : s.requestedBy a = [timer]) :
      Effect s place a
        { s with
          heap := Function.update s.heap p (some timer), sNumCreated := s.sNumCreated + 1, loop := loop }
        (Function.update place p (some .queued))
  | insert {s : TimerState} {place : Places} (a : Action) (p : Addr) (timer : Timer) (clock : Int)
      (T : OrderedSet Entry) (A : OrderedSet ActiveTimer) (alarm : Option Int) (settimes : List Timespec)
      (loop : EventLoop TimerFunctor) (issued : List ActiveTimer)
      (found : s.heap p = some timer) (placed : place p = some .queued)
      (adds : Adds s p timer T A) (rearms : Rearms s timer clock alarm settimes) :
      Effect s place a
        { s with
          timers := T, activeTimers := A, alarm := alarm, settimes := settimes, loop := loop
          issued := issued, log := s.log ++ [.inserted p timer.sequence timer.repeats] }
        (Function.update place p (some .armed))
  | add {s s' s'' : TimerState} {place place' place'' : Places} {p : Addr} {expiration : Int}
      {interval : Interval} {clock : Int}
      (first : Effect s place (.add p expiration interval clock) s' place')
      (second : Effect s' place' (.add p expiration interval clock) s'' place'') (heap : s''.heap = s'.heap) :
      Effect s place (.add p expiration interval clock) s'' place''
  | cancelArmed {s : TimerState} {place : Places} (a : Action) (id : ActiveTimer) (timer : Timer)
      (T : OrderedSet Entry) (A : OrderedSet ActiveTimer) (loop : EventLoop TimerFunctor)
      (cancels : s.cancelledBy a = some id) (found : s.heap id.timer = some timer)
      (sequence : timer.sequence = id.sequence) (placed : place id.timer = some .armed)
      (removes : Removes s id timer T A) :
      Effect s place a
        { s with
          heap := Function.update s.heap id.timer none, timers := T, activeTimers := A, loop := loop
          log := s.log ++ [.deleted id.sequence, .cancelled id] }
        (Function.update place id.timer none)
  | cancelUnarmed {s : TimerState} {place : Places} (a : Action) (id : ActiveTimer)
      (loop : EventLoop TimerFunctor) (cancels : s.cancelledBy a = some id) (unarmed : ¬ s.In place .armed id) :
      Effect s place a
        { s with
          cancelingTimers := if s.callingExpiredTimers then (s.cancelingTimers.insert id).1 else s.cancelingTimers
          loop := loop, log := s.log ++ [.cancelled id] } place
  | expire {s : TimerState} {place : Places} (now : Int) (ready : Bool) (expired : List Entry)
      (T : OrderedSet Entry) (A : OrderedSet ActiveTimer) (idle : s.batch = none)
      (expires : Expires s now expired T A) :
      Effect s place (.handleRead now ready)
        { s with
          alarm := if ready then none else s.alarm
          timers := T, activeTimers := A, callingExpiredTimers := true, cancelingTimers := .empty
          batch := some ⟨now, expired, s.membersOf expired, expired, false⟩ }
        (placesExpired place expired)
  | start {s : TimerState} {place : Places} (b : Batch) (e : Entry) (rest : List Entry) (timer : Timer)
      (running : s.batch = some b) (next : b.rest = e :: rest) (found : s.heap e.timer = some timer) :
      Effect s place .run
        { s with
          batch := some { b with rest := rest, running := true }
          log := s.log ++ [.started timer.sequence timer.repeats] } place
  | ret {s : TimerState} {place : Places} (b : Batch) (running : s.batch = some b) :
      Effect s place .ret { s with batch := some { b with running := false } } place
  | reset {s : TimerState} {place : Places} (clock : Int) (b : Batch) (H : Addr → Option Timer)
      (T : OrderedSet Entry) (A : OrderedSet ActiveTimer) (D : List TimerEvent) (alarm : Option Int)
      (settimes : List Timespec) (running : s.batch = some b) (done : b.rest = [])
      (resets : Resets s b.now b.expired H T A D) (arms : ArmsNext s T clock alarm settimes) :
      Effect s place (.reset clock)
        { s with
          heap := H, timers := T, activeTimers := A, log := s.log ++ D, alarm := alarm
          settimes := settimes, callingExpiredTimers := false, batch := none }
        (placesReset place b.expired H)

/-! ### Ownership is kept -/

theorem not_in {k k' : Place} (id : ActiveTimer) (placed : place id.timer = some k) (different : k ≠ k') :
    ¬ s.In place k' id := by
  rintro ⟨other, _⟩
  rw [placed, Option.some.injEq] at other
  exact different other

/-- An address the step does not touch. -/
theorem OwnedAt.congr {s' : TimerState} {place' : Places} (own : s.OwnedAt place p)
    (heap : s'.heap p = s.heap p) (same : place' p = place p) (created : s.sNumCreated ≤ s'.sNumCreated)
    (timers : ∀ t, entry t p ∈ s'.timers ↔ entry t p ∈ s.timers)
    (actives : ∀ q, active p q ∈ s'.activeTimers ↔ active p q ∈ s.activeTimers)
    (members : ∀ q, active p q ∈ s'.batchMembers ↔ active p q ∈ s.batchMembers) :
    s'.OwnedAt place' p := by
  have inside (k : Place) (q : Nat) : s'.In place' k (active p q) ↔ s.In place k (active p q) := by
    simp only [In, active_timer, heap, same]
  constructor
  · rw [heap, same]; exact own.live
  · rw [same]; exact own.range
  · rw [heap]; exact fun timer found => lt_of_lt_of_le (own.fresh timer found) created
  · intro t; rw [timers, same, heap]; exact own.timers t
  · intro q; rw [actives, inside]; exact own.actives q
  · intro q; rw [members, inside]; exact own.members q

/-- A new Timer, at an address that held none, belongs to nobody's set. -/
theorem Owned.create {loop : EventLoop TimerFunctor} (owned : s.Owned place) (free : place p = none)
    (range : p < uintptrMax) (sequence : timer.sequence = s.sNumCreated) :
    { s with
      heap := Function.update s.heap p (some timer), sNumCreated := s.sNumCreated + 1
      loop := loop : TimerState }.Owned (Function.update place p (some .queued)) := by
  constructor
  case each =>
    intro q
    by_cases here : q = p
    · subst here
      have unarmed := owned.unarmed (p := q) (by simp [free])
      have outside : ∀ n, active q n ∉ s.batchMembers := fun n member => by
        have placed := ((owned.members _).mp member).1
        rw [active_timer, free] at placed
        cases placed
      constructor
      · simp
      · exact fun _ => range
      · simp [sequence]
      · intro t
        simp only [Function.update_self, Option.some.injEq, reduceCtorEq, false_and, iff_false]
        exact fun member => unarmed.timers _ member rfl
      · intro n
        simp only [In, active_timer, Function.update_self, Option.some.injEq, reduceCtorEq, false_and, iff_false]
        exact fun member => unarmed.actives _ member rfl
      · intro n
        simp only [In, active_timer, Function.update_self, Option.some.injEq, reduceCtorEq, false_and, iff_false]
        exact outside n
    · exact (owned.each q).congr (Function.update_of_ne here _ _) (Function.update_of_ne here _ _)
        (Nat.le_succ _) (fun _ => Iff.rfl) (fun _ => Iff.rfl) (fun _ => Iff.rfl)
  case unique =>
    intro q q' timer' timer'' found' found'' same
    -- the new number is larger than all in use
    have old (r : Addr) (t : Timer) (different : r ≠ p) (found : Function.update s.heap p (some timer) r = some t) :
        s.heap r = some t := by rwa [Function.update_of_ne different] at found
    have new (t : Timer) (found : Function.update s.heap p (some timer) p = some t) :
        t.sequence = s.sNumCreated := by
      rw [Function.update_self, Option.some.injEq] at found
      exact found ▸ sequence
    by_cases here : q = p <;> by_cases there : q' = p
    · exact here.trans there.symm
    · subst here
      have less := (owned.each q').fresh timer'' (old q' timer'' there found'')
      have equal := new timer' found'
      omega
    · subst there
      have less := (owned.each q).fresh timer' (old q timer' here found')
      have equal := new timer'' found''
      omega
    · exact owned.unique q q' timer' timer'' (old q timer' here found') (old q' timer'' there found'') same
  case sizes => exact owned.sizes
  case batch => exact owned.batch
  case calling => exact owned.calling

theorem Owned.insert {T : OrderedSet Entry} {A : OrderedSet ActiveTimer} {alarm : Option Int}
    {settimes : List Timespec} {loop : EventLoop TimerFunctor} {issued : List ActiveTimer} {log : List TimerEvent}
    (owned : s.Owned place)
    (found : s.heap p = some timer) (placed : place p = some .queued) (adds : Adds s p timer T A) :
    { s with
      timers := T, activeTimers := A, alarm := alarm, settimes := settimes, loop := loop
      issued := issued, log := log : TimerState }.Owned (Function.update place p (some .armed)) := by
  have unarmed := owned.unarmed (p := p) (by simp [placed])
  constructor
  case each =>
    intro q
    by_cases here : q = p
    · subst here
      constructor
      · simp [found]
      · exact fun _ => (owned.each q).range (by simp [placed])
      · exact (owned.each q).fresh
      · intro t
        simp only [Function.update_self, true_and, adds.timers, found, Option.some.injEq, exists_eq_left']
        constructor
        · rintro (same | member)
          · exact (congrArg Entry.when same).symm
          · exact absurd rfl (unarmed.timers _ member)
        · rintro rfl
          exact Or.inl rfl
      · intro n
        simp only [In, active_timer, active_sequence, Function.update_self, true_and, adds.actives, found,
          Option.some.injEq, exists_eq_left']
        constructor
        · rintro (same | member)
          · exact (congrArg ActiveTimer.sequence same).symm
          · exact absurd rfl (unarmed.actives _ member)
        · rintro rfl
          exact Or.inl rfl
      · intro n
        simp only [In, active_timer, Function.update_self, Option.some.injEq, reduceCtorEq, false_and, iff_false]
        exact fun member => not_in _ placed (by decide) ((owned.members _).mp member)
    · refine (owned.each q).congr rfl (Function.update_of_ne here _ _) (Nat.le_refl _) (fun t => ?_)
        (fun n => ?_) (fun _ => Iff.rfl)
      · exact (adds.timers _).trans (or_iff_right (entry_ne here))
      · exact (adds.actives _).trans (or_iff_right (active_ne here))
  case unique => exact owned.unique
  case sizes => exact adds.sizes
  case batch => exact owned.batch
  case calling => exact owned.calling

theorem Owned.cancelArmed {id : ActiveTimer} {T : OrderedSet Entry} {A : OrderedSet ActiveTimer}
    {loop : EventLoop TimerFunctor} {log : List TimerEvent} (owned : s.Owned place)
    (found : s.heap id.timer = some timer)
    (sequence : timer.sequence = id.sequence) (placed : place id.timer = some .armed)
    (removes : Removes s id timer T A) :
    { s with
      heap := Function.update s.heap id.timer none, timers := T, activeTimers := A, loop := loop
      log := log : TimerState }.Owned (Function.update place id.timer none) := by
  constructor
  case each =>
    intro q
    by_cases here : q = id.timer
    · subst here
      constructor
      · simp
      · simp
      · simp
      · intro t
        -- its one entry is that of its expiration, which is gone
        simp only [Function.update_self, reduceCtorEq, false_and, iff_false, removes.timers, not_and_or, not_not]
        by_cases when : timer.expiration = t
        · exact Or.inl (when ▸ rfl)
        · refine Or.inr fun member => when ?_
          obtain ⟨_, timer', found', when'⟩ := (owned.timers _).mp member
          rw [entry_timer, found, Option.some.injEq] at found'
          exact found' ▸ when'
      · intro n
        simp only [In, active_timer, Function.update_self, reduceCtorEq, false_and, iff_false, removes.actives,
          not_and_or, not_not]
        by_cases same : id.sequence = n
        · exact Or.inl (same ▸ rfl)
        · refine Or.inr fun member => same ?_
          obtain ⟨_, timer', found', same'⟩ := (owned.actives _).mp member
          rw [active_timer, found, Option.some.injEq] at found'
          exact sequence.symm.trans (found' ▸ same')
      · intro n
        simp only [In, active_timer, Function.update_self, reduceCtorEq, false_and, iff_false]
        exact fun member => not_in (active id.timer n) placed (by decide) ((owned.members _).mp member)
    · refine (owned.each q).congr (Function.update_of_ne here _ _) (Function.update_of_ne here _ _)
        (Nat.le_refl _) (fun t => ?_) (fun n => ?_) (fun _ => Iff.rfl)
      · exact (removes.timers _).trans (and_iff_right (entry_ne here))
      · exact (removes.actives _).trans (and_iff_right (active_ne here))
  case unique => exact unique_update owned.unique found (by nofun)
  case sizes => exact removes.sizes
  case batch => exact owned.batch
  case calling => exact owned.calling

theorem mem_membersOf {entries : List Entry} {a : ActiveTimer} :
    a ∈ s.membersOf entries ↔ a.timer ∈ addresses entries ∧
      ∃ timer, s.heap a.timer = some timer ∧ timer.sequence = a.sequence := by
  simp only [membersOf, List.mem_filterMap, Option.map_eq_some_iff, addresses, List.mem_map]
  constructor
  · rintro ⟨e, member, timer, found, rfl⟩
    exact ⟨⟨e, member, rfl⟩, timer, found, rfl⟩
  · rintro ⟨⟨e, member, same⟩, timer, found, sequence⟩
    exact ⟨e, member, timer, same ▸ found, active_ext same sequence⟩

theorem membersOf_timers {entries : List Entry} (live : ∀ e ∈ entries, ∃ timer, s.heap e.timer = some timer) :
    addresses entries = (s.membersOf entries).map ActiveTimer.timer := by
  induction entries with
  | nil => rfl
  | cons e rest ih =>
    obtain ⟨timer, found⟩ := live e List.mem_cons_self
    have tail := ih fun f member => live f (List.mem_cons_of_mem e member)
    have head : s.membersOf (e :: rest) = active e.timer timer.sequence :: s.membersOf rest :=
      List.filterMap_cons_some (by simp [found])
    rw [head, List.map_cons, active_timer, ← tail]
    rfl

theorem Owned.expire {now : Int} {expired : List Entry} {T : OrderedSet Entry} {A : OrderedSet ActiveTimer}
    {alarm : Option Int} {canceling : OrderedSet ActiveTimer} (owned : s.Owned place) (idle : s.batch = none)
    (expires : Expires s now expired T A) :
    { s with
      alarm := alarm, timers := T, activeTimers := A, callingExpiredTimers := true
      cancelingTimers := canceling
      batch := some ⟨now, expired, s.membersOf expired, expired, false⟩ : TimerState }.Owned
      (placesExpired place expired) := by
  constructor
  case each =>
    intro q
    by_cases inside : q ∈ addresses expired
    · have placed : placesExpired place expired q = some .expired := if_pos inside
      obtain ⟨e, member, rfl⟩ := List.mem_map.mp inside
      obtain ⟨listed, due⟩ := (expires.due e).mp member
      obtain ⟨armed, timer, found, when⟩ := (owned.timers e).mp listed
      constructor
      · simp [placed, found]
      · exact fun _ => (owned.each e.timer).range (by simp [armed])
      · exact (owned.each e.timer).fresh
      · intro t
        -- an entry left behind would be that of the same Timer, which is due
        simp only [placed, Option.some.injEq, reduceCtorEq, false_and, iff_false, expires.timers]
        rintro ⟨other, late⟩
        obtain ⟨_, timer', found', when'⟩ := (owned.timers _).mp other
        rw [entry_timer, found, Option.some.injEq] at found'
        subst found'
        rw [when'] at when
        rw [← when] at due
        exact absurd late (not_lt.mpr due)
      · intro n
        simp only [In, active_timer, placed, Option.some.injEq, reduceCtorEq, false_and, iff_false,
          expires.actives, not_and, not_not]
        exact fun _ => inside
      · intro n
        simp only [In, active_timer, placed, true_and, batchMembers, mem_membersOf]
        exact and_iff_right inside
    · have placed : placesExpired place expired q = place q := if_neg inside
      refine (owned.each q).congr rfl placed (Nat.le_refl _) (fun t => ?_) (fun n => ?_) (fun n => ?_)
      · refine (expires.timers _).trans (and_iff_left_of_imp fun listed => not_le.mp fun due => inside ?_)
        exact List.mem_map.mpr ⟨entry t q, (expires.due _).mpr ⟨listed, due⟩, rfl⟩
      · exact (expires.actives _).trans (and_iff_left inside)
      · simp only [batchMembers, idle, mem_membersOf, active_timer, List.not_mem_nil, iff_false, not_and]
        exact fun other => absurd other inside
  case unique => exact owned.unique
  case sizes => exact expires.sizes
  case batch =>
    rintro b ⟨⟩
    refine ⟨membersOf_timers fun e member => ?_, expires.distinct, List.suffix_refl expired⟩
    obtain ⟨_, timer, found, _⟩ := (owned.timers e).mp ((expires.due e).mp member).1
    exact ⟨timer, found⟩
  case calling => rfl

/-- What the addresses of the running batch point to. -/
theorem Owned.expired {b : Batch} (owned : s.Owned place) (running : s.batch = some b) (p : Addr) :
    p ∈ addresses b.expired ↔ place p = some .expired := by
  have members : s.batchMembers = b.members := by rw [batchMembers, running]
  rw [(owned.batch b running).same, List.mem_map]
  constructor
  · rintro ⟨a, member, rfl⟩
    exact ((owned.members a).mp (members ▸ member)).1
  · intro placed
    obtain ⟨timer, found⟩ := owned.found placed
    exact ⟨active p timer.sequence, members ▸ (owned.members _).mpr ⟨placed, timer, found, rfl⟩, rfl⟩

/-- Timers that survive the reset keep their number. -/
theorem Resets.same_sequence {now : Int} {entries : List Entry} {H : Addr → Option Timer}
    {T : OrderedSet Entry} {A : OrderedSet ActiveTimer} {D : List TimerEvent}
    (resets : Resets s now entries H T A D) (live : ∀ p ∈ addresses entries, ∃ timer, s.heap p = some timer)
    (found : H p = some timer) :
    ∃ before, s.heap p = some before ∧ timer.sequence = before.sequence ∧ timer.repeats = before.repeats := by
  by_cases inside : p ∈ addresses entries
  · obtain ⟨before, foundBefore⟩ := live p inside
    have outcome := resets.outcome p before inside foundBefore
    rw [found] at outcome
    split at outcome
    · obtain rfl : timer = before.restart now := Option.some.inj outcome
      exact ⟨before, foundBefore, rfl, rfl⟩
    · cases outcome
  · rw [resets.others p inside] at found
    exact ⟨timer, found, rfl, rfl⟩

theorem Owned.reset {b : Batch} {H : Addr → Option Timer} {T : OrderedSet Entry} {A : OrderedSet ActiveTimer}
    {D log : List TimerEvent} {alarm : Option Int} {settimes : List Timespec} (owned : s.Owned place)
    (running : s.batch = some b) (resets : Resets s b.now b.expired H T A D) :
    { s with
      heap := H, timers := T, activeTimers := A, log := log, alarm := alarm, settimes := settimes
      callingExpiredTimers := false, batch := none : TimerState }.Owned (placesReset place b.expired H) := by
  have live (p : Addr) (inside : p ∈ addresses b.expired) : ∃ timer, s.heap p = some timer :=
    owned.found ((owned.expired running p).mp inside)
  constructor
  case each =>
    intro q
    by_cases inside : q ∈ addresses b.expired
    · have placed : placesReset place b.expired H q = (H q).map fun _ => .armed := if_pos inside
      have before := (owned.expired running q).mp inside
      have unarmed := owned.unarmed (p := q) (by simp [before])
      constructor
      · simp [placed]
      · exact fun _ => (owned.each q).range (by simp [before])
      · intro timer found
        obtain ⟨timer', found', sequence, _⟩ := resets.same_sequence live found
        exact sequence ▸ (owned.each q).fresh timer' found'
      · intro t
        -- it was in no set during the batch, so what is there now was put there by `Reset`
        rw [resets.timers, or_iff_right fun member => unarmed.timers _ member rfl]
        constructor
        · rintro ⟨_, timer, found, when⟩
          exact ⟨placed.trans (congrArg (Option.map _) found), timer, found, when⟩
        · exact fun armed => ⟨inside, armed.2⟩
      · intro n
        rw [resets.actives, or_iff_right fun member => unarmed.actives _ member rfl]
        constructor
        · rintro ⟨_, timer, found, sequence⟩
          exact ⟨placed.trans (congrArg (Option.map _) found), timer, found, sequence⟩
        · exact fun armed => ⟨inside, armed.2⟩
      · intro n
        simp only [batchMembers, List.not_mem_nil, In, active_timer, placed, false_iff, not_and]
        cases H q <;> simp
    · have placed : placesReset place b.expired H q = place q := if_neg inside
      refine (owned.each q).congr (resets.others q inside) placed (Nat.le_refl _) (fun t => ?_) (fun n => ?_)
        (fun n => ?_)
      · exact (resets.timers _).trans (or_iff_left fun other => inside other.1)
      · exact (resets.actives _).trans (or_iff_left fun other => inside other.1)
      · refine (iff_of_false List.not_mem_nil fun member => inside ?_)
        exact (owned.expired running q).mpr ((owned.members _).mp member).1
  case unique =>
    intro q q' timer timer' found found' same
    obtain ⟨before, foundBefore, sequence, _⟩ := resets.same_sequence live found
    obtain ⟨before', foundBefore', sequence', _⟩ := resets.same_sequence live found'
    exact owned.unique q q' before before' foundBefore foundBefore'
      (sequence.symm.trans (same.trans sequence'))
  case sizes => exact resets.sizes
  case batch => nofun
  case calling => rfl

/-- A batch that has got further in its list of callbacks. -/
theorem Owned.advance {b b' : Batch} {log : List TimerEvent} (owned : s.Owned place)
    (running : s.batch = some b) (expired : b'.expired = b.expired) (members : b'.members = b.members)
    (rest : b'.rest <:+ b.rest) : { s with batch := some b', log := log : TimerState }.Owned place := by
  have wf := owned.batch b running
  constructor
  case each =>
    intro q
    refine (owned.each q).congr rfl rfl (Nat.le_refl _) (fun _ => Iff.rfl) (fun _ => Iff.rfl) (fun n => ?_)
    simp only [batchMembers, running, members]
  case unique => exact owned.unique
  case sizes => exact owned.sizes
  case batch =>
    rintro _ ⟨⟩
    exact ⟨by rw [expired, members]; exact wf.same, expired ▸ wf.distinct, expired ▸ rest.trans wf.rest⟩
  case calling => simpa [running] using owned.calling

theorem Owned.quiet {loop : EventLoop TimerFunctor} {returning : Tid → Option Addr} {issued : List ActiveTimer}
    {canceling : OrderedSet ActiveTimer} {log : List TimerEvent} (owned : s.Owned place) :
    { s with
      loop := loop, returning := returning, issued := issued, cancelingTimers := canceling
      log := log : TimerState }.Owned place :=
  ⟨fun q => (owned.each q).congr rfl rfl (Nat.le_refl _) (fun _ => Iff.rfl) (fun _ => Iff.rfl) (fun _ => Iff.rfl),
    owned.unique, owned.sizes, owned.batch, owned.calling⟩

theorem Owned.effect {s' : TimerState} {place' : Places} {a : Action} (effect : Effect s place a s' place')
    (owned : s.Owned place) : s'.Owned place' := by
  induction effect with
  | quiet => exact owned.quiet
  | create a p timer loop free range sequence => exact owned.create free range sequence
  | insert a p timer clock T A alarm settimes loop issued found placed adds _ => exact owned.insert found placed adds
  | add _ _ _ first second => exact second (first owned)
  | cancelArmed a id timer T A loop _ found sequence placed removes =>
    exact owned.cancelArmed found sequence placed removes
  | cancelUnarmed => exact owned.quiet
  | expire now ready expired T A idle expires => exact owned.expire idle expires
  | start b e rest timer running next _ => exact owned.advance running rfl rfl ⟨[e], next.symm⟩
  | ret b running => exact owned.advance running rfl rfl (List.suffix_refl _)
  | reset clock b H T A D alarm settimes running done resets _ => exact owned.reset running resets

end TimerState

end Rnet.Network
