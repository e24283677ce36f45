import Rnet.Network.TimerInvariant

/-!
# The alarm of the timer queue

Between the operations of the queue the timerfd is programmed for a time no later than the first
expiration, so no timer waits for another one's alarm. Inside `HandleRead` the alarm has been
consumed; the entries that are left then lie in the future, or an insertion has armed it again.
-/
namespace Rnet.Network.TimerState

open Check

variable {s : TimerState} {place : Places}

/-! ### The programmed value -/

/-- At least a hundred microseconds, in the form `timerfd_settime` takes. -/
structure Arms (value : Timespec) : Prop where
  sec : 0 ≤ value.sec
  nsec : 0 ≤ value.nsec ∧ value.nsec < 1000000000
  total : 100 * 1000 ≤ value.sec * 1000000000 + value.nsec

theorem howMuchTimeFromNow_arms (expiration now : Int) : Arms (howMuchTimeFromNow expiration now) := by
  unfold howMuchTimeFromNow kMicroSecondsPerSecond
  simp only
  generalize chosen : (if expiration - now < 100 then 100 else expiration - now) = microseconds
  have atLeast : 100 ≤ microseconds := by
    rw [← chosen]
    split <;> omega
  have nonneg : 0 ≤ microseconds := by omega
  rw [Int.tdiv_eq_ediv_of_nonneg nonneg, Int.tmod_eq_emod_of_nonneg nonneg]
  constructor
  · exact Int.ediv_nonneg nonneg (by decide)
  · simp only
    omega
  · simp only
    omega

/-! ### The pending alarm -/

/-- The timerfd is programmed for a time no later than all of `timers`. -/
def Covers (alarm : Option Int) (timers : OrderedSet Entry) : Prop :=
  ∃ time, alarm = some time ∧ ∀ e ∈ timers, time ≤ e.when

/-- During a batch the entries may also all be valid times: then `Reset` will program the first. -/
structure Alarmed (s : TimerState) : Prop where
  idle : s.batch = none → (∀ e, e ∉ s.timers) ∨ Covers s.alarm s.timers
  busy : ∀ b, s.batch = some b → 0 < b.now ∧ (Covers s.alarm s.timers ∨ ∀ e ∈ s.timers, 0 < e.when)
  settimes : ∀ value ∈ s.settimes, Arms value

theorem alarmed_start : start.Alarmed := by
  constructor <;> simp [start]

theorem Covers.shrink {alarm : Option Int} {T T' : OrderedSet Entry} (covers : Covers alarm T)
    (fewer : ∀ e ∈ T', e ∈ T) : Covers alarm T' := by
  obtain ⟨time, programmed, least⟩ := covers
  exact ⟨time, programmed, fun e member => least e (fewer e member)⟩

/-- An insertion that does not program the timerfd finds an earlier entry. -/
theorem Rearms.covers {p : Addr} {timer : Timer} {clock : Int} {alarm : Option Int} {settimes : List Timespec}
    {T : OrderedSet Entry} {A : OrderedSet ActiveTimer} (rearms : Rearms s timer clock alarm settimes)
    (adds : Adds s p timer T A) :
    ((∀ e, e ∉ s.timers) ∨ Covers s.alarm s.timers → Covers alarm T) ∧
      ((∀ e ∈ s.timers, 0 < e.when) → Covers alarm T ∨ ∀ e ∈ T, 0 < e.when) := by
  cases rearms with
  | earliest before =>
    have covers : Covers (some timer.expiration) T := by
      refine ⟨timer.expiration, rfl, fun e member => ?_⟩
      rcases (adds.timers e).mp member with rfl | old
      · exact le_refl _
      · exact le_of_lt (before e old)
    exact ⟨fun _ => covers, fun _ => Or.inl covers⟩
  | later first member le =>
    constructor
    · rintro (empty | ⟨time, programmed, least⟩)
      · exact absurd member (empty first)
      · refine ⟨time, programmed, fun e inside => ?_⟩
        rcases (adds.timers e).mp inside with rfl | old
        · exact le_trans (least first member) le
        · exact least e old
    · intro valid
      refine Or.inr fun e inside => ?_
      rcases (adds.timers e).mp inside with rfl | old
      · exact lt_of_lt_of_le (valid first member) le
      · exact valid e old

theorem Rearms.settimes {timer : Timer} {clock : Int} {alarm : Option Int} {settimes : List Timespec}
    (rearms : Rearms s timer clock alarm settimes) (arms : ∀ value ∈ s.settimes, Arms value) :
    ∀ value ∈ settimes, Arms value := by
  cases rearms with
  | earliest _ =>
    intro value member
    rcases List.mem_append.mp member with old | new
    · exact arms value old
    · rw [List.mem_singleton.mp new]
      exact howMuchTimeFromNow_arms _ _
  | later _ _ _ => exact arms

theorem Alarmed.insert {p : Addr} {timer : Timer} {clock : Int} {T : OrderedSet Entry} {A : OrderedSet ActiveTimer}
    {alarm : Option Int} {settimes : List Timespec} {loop : EventLoop TimerFunctor} {issued : List ActiveTimer}
    {log : List TimerEvent} (alarmed : s.Alarmed) (adds : Adds s p timer T A)
    (rearms : Rearms s timer clock alarm settimes) :
    { s with
      timers := T, activeTimers := A, alarm := alarm, settimes := settimes, loop := loop
      issued := issued, log := log : TimerState }.Alarmed := by
  obtain ⟨covers, valid⟩ := rearms.covers adds
  constructor
  · exact fun idle => Or.inr (covers (alarmed.idle idle))
  · intro b running
    obtain ⟨positive, before⟩ := alarmed.busy b running
    refine ⟨positive, ?_⟩
    rcases before with covered | future
    · exact Or.inl (covers (Or.inr covered))
    · exact valid future
  · exact rearms.settimes alarmed.settimes

/-- What `Restart` makes of a timer lies after the time of the batch. -/
theorem Resets.restarted {now : Int} {entries : List Entry} {H : Addr → Option Timer}
    {T : OrderedSet Entry} {A : OrderedSet ActiveTimer} {D : List TimerEvent}
    (resets : Resets s now entries H T A D) (live : ∀ p ∈ addresses entries, ∃ timer, s.heap p = some timer)
    {e : Entry} (member : e ∈ T) : e ∈ s.timers ∨ now ≤ e.when := by
  rcases (resets.timers e).mp member with old | ⟨inside, timer, found, when⟩
  · exact Or.inl old
  · obtain ⟨before, foundBefore⟩ := live e.timer inside
    have outcome := resets.outcome e.timer before inside foundBefore
    rw [found] at outcome
    split at outcome
    next keeps =>
      obtain rfl : timer = before.restart now := Option.some.inj outcome
      have nonneg := before.interval.nonneg keeps.1
      rw [← when, Timer.restart, if_pos keeps.1]
      exact Or.inr (Int.le_add_of_nonneg_right nonneg)
    next => cases outcome

theorem Alarmed.reset {b : Batch} {clock : Int} {H : Addr → Option Timer} {T : OrderedSet Entry}
    {A : OrderedSet ActiveTimer} {D log : List TimerEvent} {alarm : Option Int} {settimes : List Timespec}
    (alarmed : s.Alarmed) (owned : s.Owned place) (running : s.batch = some b)
    (resets : Resets s b.now b.expired H T A D) (arms : ArmsNext s T clock alarm settimes) :
    { s with
      heap := H, timers := T, activeTimers := A, log := log, alarm := alarm, settimes := settimes
      callingExpiredTimers := false, batch := none : TimerState }.Alarmed := by
  obtain ⟨positive, before⟩ := alarmed.busy b running
  have live (p : Addr) (inside : p ∈ addresses b.expired) : ∃ timer, s.heap p = some timer :=
    owned.found ((owned.expired running p).mp inside)
  refine ⟨fun _ => ?_, nofun, ?_⟩
  · cases arms with
    | empty absent => exact Or.inl absent
    | set first member least valid => exact Or.inr ⟨first.when, rfl, least⟩
    | past first member least invalid =>
      -- a first entry of the past was there before, and the alarm covers it
      have old : first ∈ s.timers := by
        rcases resets.restarted live member with old | restarted
        · exact old
        · exact absurd (lt_of_lt_of_le positive restarted) (not_lt.mpr invalid)
      rcases before with ⟨time, programmed, earliest⟩ | future
      · exact Or.inr ⟨time, programmed, fun e inside => le_trans (earliest first old) (least e inside)⟩
      · exact absurd (future first old) (not_lt.mpr invalid)
  · cases arms with
    | empty _ => exact alarmed.settimes
    | past _ _ _ _ => exact alarmed.settimes
    | set first _ _ _ =>
      intro value member
      rcases List.mem_append.mp member with old | new
      · exact alarmed.settimes value old
      · rw [List.mem_singleton.mp new]
        exact howMuchTimeFromNow_arms _ _

theorem Alarmed.effect {s' : TimerState} {place' : Places} {a : Action} (effect : Effect s place a s' place')
    (clock : ∀ now ready, a = .handleRead now ready → 0 < now) (owned : s.Owned place) (alarmed : s.Alarmed) :
    s'.Alarmed := by
  induction effect with
  | quiet => exact ⟨alarmed.1, alarmed.2, alarmed.3⟩
  | create => exact ⟨alarmed.1, alarmed.2, alarmed.3⟩
  | insert a p timer clock T A alarm settimes loop issued _ _ adds rearms => exact alarmed.insert adds rearms
  | add first _ _ afterFirst afterSecond =>
    exact afterSecond clock (owned.effect first) (afterFirst clock owned alarmed)
  | cancelArmed a id timer T A loop _ _ _ _ removes =>
    have fewer (e : Entry) (member : e ∈ T) := ((removes.timers e).mp member).2
    constructor
    · intro idle
      rcases alarmed.idle idle with empty | covers
      · exact Or.inl fun e member => empty e (fewer e member)
      · exact Or.inr (covers.shrink fewer)
    · intro b running
      obtain ⟨positive, before⟩ := alarmed.busy b running
      refine ⟨positive, ?_⟩
      rcases before with covers | future
      · exact Or.inl (covers.shrink fewer)
      · exact Or.inr fun e member => future e (fewer e member)
    · exact alarmed.settimes
  | cancelUnarmed => exact ⟨alarmed.1, alarmed.2, alarmed.3⟩
  | expire now ready expired T A _ expires =>
    have positive := clock now ready rfl
    refine ⟨nofun, ?_, alarmed.settimes⟩
    rintro b ⟨⟩
    exact ⟨positive, Or.inr fun e member => lt_trans positive ((expires.timers e).mp member).2⟩
  | start b e rest timer running _ _ =>
    refine ⟨nofun, ?_, alarmed.settimes⟩
    rintro _ ⟨⟩
    exact alarmed.busy b running
  | ret b running =>
    refine ⟨nofun, ?_, alarmed.settimes⟩
    rintro _ ⟨⟩
    exact alarmed.busy b running
  | reset clock b H T A D alarm settimes running _ resets arms => exact alarmed.reset owned running resets arms

/-- The clock `HandleRead` reads is positive, and ids are not read off the loop thread. -/
def ClockPositive (_ : TimerState) : Action → Prop
  | .handleRead now _ => 0 < now
  | .returnId _ => False
  | _ => True

instance (s : TimerState) (a : Action) : Decidable (ClockPositive s a) := by
  unfold ClockPositive
  cases a <;> infer_instance

theorem step_alarmed (a : Action) (positive : ClockPositive s a)
    (inv : ∃ place, s.Owned place ∧ s.Queued place ∧ s.Alarmed) :
    Safe (fun s' => ∃ place, s'.Owned place ∧ s'.Queued place ∧ s'.Alarmed) (s.step a) := by
  obtain ⟨place, owned, queued, alarmed⟩ := inv
  have onLoop (t : Tid) : a ≠ .returnId t := by
    rintro rfl
    exact positive
  refine (step_effect a onLoop owned queued).mono ?_
  rintro s' ⟨place', effect, queued'⟩
  refine ⟨place', owned.effect effect, queued', alarmed.effect effect ?_ owned⟩
  rintro now ready rfl
  exact positive

/-- Between the operations of the queue an alarm is pending for the first entry or earlier, and
no value given to the timerfd has ever disarmed it. -/
theorem timerfd_armed (acts : List Action) (positive : Run.Meets step ClockPositive start acts) :
    Safe (fun s => (s.batch = none → ∀ first, s.timers.first = some first →
        ∃ time, s.alarm = some time ∧ time ≤ first.when) ∧ ∀ value ∈ s.settimes, Arms value)
      (Run.exec step start acts) := by
  refine (Run.exec_safe (fun s a inv positive => step_alarmed a positive inv) start acts
    ⟨_, owned_start, queued_start, alarmed_start⟩ positive).mono ?_
  rintro s ⟨_, _, _, alarmed⟩
  refine ⟨fun idle first found => ?_, alarmed.settimes⟩
  rcases alarmed.idle idle with empty | ⟨time, programmed, least⟩
  · exact absurd (OrderedSet.first_mem found) (empty first)
  · exact ⟨time, programmed, least first (OrderedSet.first_mem found)⟩

/-- A callback adds a timer for a time before the epoch and cancels the alarm's own timer. -/
def addsPast : List Action :=
  [.add 1 5 (.every 10) 1, .add 2 90 .once 1, .poll, .handleRead 7 true, .run, .add 3 (-4) .once 7,
    .cancel (active 3 2), .ret, .reset 8]

theorem timerfd_armed_addsPast : Run.Meets step ClockPositive start addsPast ∧
    ∃ s, Run.exec step start addsPast = .ok s ∧ s.timers.first = some (entry 17 1) ∧
      ∃ time, s.alarm = some time ∧ time ≤ 17 := by
  have positive : Run.Meets step ClockPositive start addsPast := by decide +kernel
  have last : (Run.exec step start addsPast).toOption.map (fun s => (s.batch.isNone, s.timers.first)) =
      some (true, some (entry 17 1)) := by decide +kernel
  obtain ⟨s, reached, ended⟩ := returned_of_map last
  obtain ⟨idle, first⟩ := Prod.mk.inj ended
  have safe := (timerfd_armed addsPast positive).result reached
  exact ⟨positive, s, reached, first, safe.1 (Option.isNone_iff_eq_none.mp idle) _ first⟩

end Rnet.Network.TimerState
