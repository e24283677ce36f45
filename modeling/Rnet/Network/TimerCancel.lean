import Rnet.Network.TimerInvariant

/-!
# What a processed cancel achieves

`CancelInLoop` deletes a timer it finds armed, and remembers one it finds missing while a batch
runs; the remembered ones are looked at in `Reset` only. So a cancel is final for a timer that
is armed or whose callback the batch has already started. It is not for a timer that waits for
its turn in the running batch, nor for one whose insertion is still queued.
-/
namespace Rnet.Network.TimerState

open Check

variable {s : TimerState} {place : Places} {p : Addr} {timer : Timer}

/-- The second event is not a start of the timer the first one cancels. -/
def NotRevived : TimerEvent → TimerEvent → Prop
  | .cancelled id, .started q _ => id.sequence ≠ q
  | _, _ => True

instance : DecidableRel NotRevived := fun e f => by
  unfold NotRevived
  cases e <;> cases f <;> infer_instance

/-- `AddTimerInLoop` has run for the id, and the timer is not waiting for its turn. -/
def Timely (s : TimerState) (id : ActiveTimer) : Prop :=
  (∃ repeats, .inserted id.timer id.sequence repeats ∈ s.log) ∧ ∀ b ∈ s.batch, id ∉ s.membersOf b.rest

instance (s : TimerState) (id : ActiveTimer) : Decidable (s.Timely id) := inferInstanceAs (Decidable (_ ∧ _))

def CancelsTimely (s : TimerState) (a : Action) : Prop := ∀ id ∈ s.cancelledBy a, s.Timely id

instance (s : TimerState) (a : Action) : Decidable (s.CancelsTimely a) := inferInstanceAs (Decidable (∀ _ ∈ _, _))

/-- A cancelled timer is gone, or it is on its way out: started already in the running batch,
and remembered for `Reset`. -/
structure Final (s : TimerState) (place : Places) : Prop where
  order : s.log.Pairwise NotRevived
  cancelled : ∀ id, .cancelled id ∈ s.log → .deleted id.sequence ∈ s.log ∨
    s.In place .expired id ∧ id.timer ∉ s.unstarted ∧ id ∈ s.cancelingTimers

theorem final_start : start.Final (fun _ => none) := by
  constructor <;> simp [start]

theorem Final.quiet {s' : TimerState} {place' : Places} (final : s.Final place) (log : s'.log = s.log)
    (unstarted : s'.unstarted = s.unstarted) (canceling : s'.cancelingTimers = s.cancelingTimers)
    (kept : ∀ id, s.In place .expired id → s'.In place' .expired id) : s'.Final place' := by
  constructor
  · rw [log]; exact final.order
  · rw [log, unstarted, canceling]
    intro id member
    rcases final.cancelled id member with gone | ⟨expired, rest⟩
    · exact Or.inl gone
    · exact Or.inr ⟨kept id expired, rest⟩

/-- Events added to the record: none of them starts a cancelled timer. -/
theorem notRevived_append {events : List TimerEvent} (order : s.log.Pairwise NotRevived)
    (own : events.Pairwise NotRevived)
    (others : ∀ id, .cancelled id ∈ s.log → ∀ event ∈ events, NotRevived (.cancelled id) event) :
    (s.log ++ events).Pairwise NotRevived := by
  refine List.pairwise_append.mpr ⟨order, own, fun earlier member later last => ?_⟩
  cases earlier with
  | cancelled id => exact others id member later last
  | _ => trivial

/-- The case in which the cancel finds its timer armed. -/
theorem Final.cancelArmed {id : ActiveTimer} {T : OrderedSet Entry} {A : OrderedSet ActiveTimer}
    {loop : EventLoop TimerFunctor} (final : s.Final place) (placed : place id.timer = some .armed) :
    { s with
      heap := Function.update s.heap id.timer none, timers := T, activeTimers := A, loop := loop
      log := s.log ++ [.deleted id.sequence, .cancelled id] : TimerState }.Final
      (Function.update place id.timer none) := by
  constructor
  · refine notRevived_append final.order (by simp [NotRevived]) fun id' _ event member => ?_
    rcases List.mem_pair.mp member with rfl | rfl <;> trivial
  · intro id' member
    rcases List.mem_append.mp member with old | new
    · rcases final.cancelled id' old with gone | ⟨⟨expired, alive⟩, rest⟩
      · exact Or.inl (List.mem_append_left _ gone)
      · have here : id'.timer ≠ id.timer := fun same => by
          rw [same, placed] at expired
          cases expired
        refine Or.inr ⟨⟨?_, ?_⟩, rest⟩
        · rwa [Function.update_of_ne here]
        · simpa only [Function.update_of_ne here] using alive
    · obtain rfl : id' = id := by simpa using new
      exact Or.inl (by simp)

/-- The other case: a timer that was inserted and is not armed is gone or in the batch. -/
theorem Final.cancelUnarmed {id : ActiveTimer} {loop : EventLoop TimerFunctor} (final : s.Final place)
    (owned : s.Owned place) (recorded : s.Recorded place) (timely : s.Timely id)
    (unarmed : ¬ s.In place .armed id) :
    { s with
      cancelingTimers := if s.callingExpiredTimers then (s.cancelingTimers.insert id).1 else s.cancelingTimers
      loop := loop, log := s.log ++ [.cancelled id] : TimerState }.Final place := by
  obtain ⟨⟨repeats, inserted⟩, waits⟩ := timely
  constructor
  · refine notRevived_append final.order (List.pairwise_singleton _ _) fun id' _ event member => ?_
    rw [List.mem_singleton.mp member]
    trivial
  · intro id' member
    rcases List.mem_append.mp member with old | new
    · rcases final.cancelled id' old with gone | ⟨expired, started, remembered⟩
      · exact Or.inl (List.mem_append_left _ gone)
      · refine Or.inr ⟨expired, started, ?_⟩
        simp only
        split
        · exact OrderedSet.mem_insert.mpr (Or.inr remembered)
        · exact remembered
    · obtain rfl : id' = id := by simpa using new
      rcases recorded.inserted _ _ _ inserted with ⟨timer, found, sequence, _, elsewhere⟩ | ⟨gone, _⟩
      · have alive : ∃ timer, s.heap id'.timer = some timer ∧ timer.sequence = id'.sequence :=
          ⟨timer, found, sequence⟩
        have expired : s.In place .expired id' := by
          rcases owned.armed_or_expired found elsewhere with placed | placed
          · exact absurd ⟨placed, alive⟩ unarmed
          · exact ⟨placed, alive⟩
        have member := (owned.members id').mpr expired
        cases running : s.batch with
        | none => simp [batchMembers, running] at member
        | some b =>
          refine Or.inr ⟨expired, fun inside => waits b running ?_, ?_⟩
          · simp only [unstarted] at inside
            exact mem_membersOf.mpr ⟨inside, alive⟩
          · rw [owned.calling, running]
            exact OrderedSet.mem_insert.mpr (Or.inl rfl)
      · exact Or.inl (List.mem_append_left _ gone)

/-- A callback that starts now belongs to no cancelled timer. -/
theorem Final.start {b : Batch} {e : Entry} {rest : List Entry} (final : s.Final place) (owned : s.Owned place)
    (recorded : s.Recorded place) (running : s.batch = some b) (next : b.rest = e :: rest)
    (found : s.heap e.timer = some timer) :
    { s with
      batch := some { b with rest := rest, running := true }
      log := s.log ++ [.started timer.sequence timer.repeats] : TimerState }.Final place := by
  have unstarted : s.unstarted = e.timer :: addresses rest := by
    rw [TimerState.unstarted, running]
    exact (congrArg addresses next).trans List.map_cons
  constructor
  · refine notRevived_append final.order (List.pairwise_singleton _ _) fun id member event last => ?_
    rw [List.mem_singleton.mp last]
    intro same
    rcases final.cancelled id member with gone | ⟨⟨_, timer', found', sequence⟩, started, _⟩
    · exact (recorded.deleted _ gone).2 e.timer timer found same.symm
    · have here := owned.unique _ _ timer' timer found' found (sequence.trans same)
      rw [here, unstarted] at started
      exact started List.mem_cons_self
  · intro id member
    rcases final.cancelled id (by simpa using member) with gone | ⟨expired, started, remembered⟩
    · exact Or.inl (List.mem_append_left _ gone)
    · rw [unstarted, List.mem_cons, not_or] at started
      exact Or.inr ⟨expired, started.2, remembered⟩

/-- `Reset` deletes the timers remembered for it. -/
theorem Final.reset {b : Batch} {H : Addr → Option Timer} {T : OrderedSet Entry} {A : OrderedSet ActiveTimer}
    {D : List TimerEvent} {alarm : Option Int} {settimes : List Timespec} (final : s.Final place)
    (owned : s.Owned place) (running : s.batch = some b) (resets : Resets s b.now b.expired H T A D) :
    { s with
      heap := H, timers := T, activeTimers := A, log := s.log ++ D, alarm := alarm, settimes := settimes
      callingExpiredTimers := false, batch := none : TimerState }.Final (placesReset place b.expired H) := by
  constructor
  · refine notRevived_append final.order ?_ fun id _ event member => ?_
    · refine resets.once.imp_of_mem fun member _ _ => ?_
      obtain ⟨_, _, _, _, _, rfl⟩ := (resets.deleted _).mp member
      trivial
    · obtain ⟨_, _, _, _, _, rfl⟩ := (resets.deleted event).mp member
      trivial
  · intro id member
    rcases List.mem_append.mp member with old | new
    · rcases final.cancelled id old with gone | ⟨⟨expired, timer, found, sequence⟩, _, remembered⟩
      · exact Or.inl (List.mem_append_left _ gone)
      · have inside := (owned.expired running id.timer).mpr expired
        have same : active id.timer timer.sequence = id := active_ext rfl sequence
        have drops : ¬ s.Keeps id.timer timer := fun keeps => keeps.2 (same ▸ remembered)
        have freed := (resets.outcome id.timer timer inside found).trans (if_neg drops)
        refine Or.inl (List.mem_append_right _ ((resets.deleted _).mpr ⟨id.timer, timer, inside, found, freed, ?_⟩))
        rw [sequence]
    · obtain ⟨_, _, _, _, _, different⟩ := (resets.deleted _).mp new
      cases different

theorem Final.effect {s' : TimerState} {place' : Places} {a : Action} (effect : Effect s place a s' place')
    (timely : s.CancelsTimely a) (owned : s.Owned place) (recorded : s.Recorded place)
    (final : s.Final place) : s'.Final place' := by
  induction effect with
  | quiet => exact final.quiet rfl rfl rfl fun _ expired => expired
  | create a p timer loop free _ _ =>
    refine final.quiet rfl rfl rfl ?_
    rintro id ⟨expired, alive⟩
    have here : id.timer ≠ p := fun same => by
      rw [same, free] at expired
      cases expired
    refine ⟨?_, ?_⟩
    · rwa [Function.update_of_ne here]
    · simpa only [Function.update_of_ne here] using alive
  | insert a p timer clock T A alarm settimes loop issued _ placed _ _ =>
    constructor
    · refine notRevived_append final.order (List.pairwise_singleton _ _) fun id _ event member => ?_
      rw [List.mem_singleton.mp member]
      trivial
    · intro id member
      rcases final.cancelled id (by simpa using member) with gone | ⟨⟨expired, alive⟩, rest⟩
      · exact Or.inl (List.mem_append_left _ gone)
      · have here : id.timer ≠ p := fun same => by
          rw [same, placed] at expired
          cases expired
        exact Or.inr ⟨⟨by rwa [Function.update_of_ne here], alive⟩, rest⟩
  | add first _ _ afterFirst afterSecond =>
    exact afterSecond (by nofun) (owned.effect first) (recorded.effect first owned)
      (afterFirst timely owned recorded final)
  | cancelArmed a id timer T A loop _ _ _ placed _ => exact final.cancelArmed placed
  | cancelUnarmed a id loop cancels unarmed =>
    exact final.cancelUnarmed owned recorded (timely id cancels) unarmed
  | expire now ready expired T A idle _ =>
    refine ⟨final.order, fun id member => ?_⟩
    rcases final.cancelled id member with gone | ⟨inBatch, _⟩
    · exact Or.inl gone
    · have member := (owned.members id).mpr inBatch
      simp [batchMembers, idle] at member
  | start b e rest timer running next found => exact final.start owned recorded running next found
  | ret b running => exact final.quiet rfl (by rw [unstarted, unstarted, running]) rfl fun _ expired => expired
  | reset clock b H T A D alarm settimes running _ resets _ => exact final.reset owned running resets

/-! ### Every run -/

/-- The read of the sequence number off the loop thread, where it gets through. -/
theorem returnId_quiet {t : Tid} {s' : TimerState} (returned : s.step (.returnId t) = .ok s') :
    ∃ returning issued, s' = { s with returning := returning, issued := issued } := by
  simp only [step, read, bind_eq_ok, given_eq_ok, demand_eq_ok] at returned
  obtain ⟨p, _, timer, _, result⟩ := returned
  exact ⟨_, _, (Except.ok.inj result).symm⟩

/-- The effect of any step that gets through. -/
theorem taken_effect (a : Action) {s' : TimerState} (owned : s.Owned place) (queued : s.Queued place)
    (taken : s.step a = .ok s') : ∃ place', Effect s place a s' place' ∧ s'.Queued place' := by
  by_cases onLoop : ∀ t, a ≠ .returnId t
  · exact (step_effect a onLoop owned queued).result taken
  · obtain ⟨t, rfl⟩ : ∃ t, a = .returnId t := by simpa using onLoop
    obtain ⟨returning, issued, rfl⟩ := returnId_quiet taken
    exact ⟨place, .quiet _ s.loop returning issued, queued.congr rfl fun _ => Iff.rfl⟩

theorem step_final (a : Action) (s' : TimerState)
    (inv : ∃ place, s.Owned place ∧ s.Queued place ∧ s.Recorded place ∧ s.Final place)
    (timely : s.CancelsTimely a) (taken : s.step a = .ok s') :
    ∃ place, s'.Owned place ∧ s'.Queued place ∧ s'.Recorded place ∧ s'.Final place := by
  obtain ⟨place, owned, queued, recorded, final⟩ := inv
  obtain ⟨place', effect, queued'⟩ := taken_effect a owned queued taken
  exact ⟨place', owned.effect effect, queued', recorded.effect effect owned,
    final.effect effect timely owned recorded⟩

/-- In a run whose cancels are timely, no callback is started after its timer was cancelled. -/
theorem cancel_final (acts : List Action) (s : TimerState)
    (timely : Run.Meets step CancelsTimely start acts) (reached : Run.exec step start acts = .ok s) :
    s.log.Pairwise NotRevived := by
  obtain ⟨_, _, _, _, final⟩ := Run.exec_keeps (fun s a s' inv timely taken => step_final a s' inv timely taken)
    start s acts ⟨_, owned_start, queued_start, recorded_start, final_start⟩ timely reached
  exact final.order

/-- A repeating timer cancelled by its own callback, in a batch with another one, and a timer
cancelled while it is armed. -/
def cancelsOwn : List Action :=
  [.add 1 5 (.every 10) 1, .add 2 6 .once 1, .add 3 40 .once 1, .poll, .handleRead 7 true, .run,
    .cancel (active 1 0), .cancel (active 3 2), .ret, .run, .ret, .reset 8]

theorem cancel_final_own : Run.Meets step CancelsTimely start cancelsOwn ∧
    ∃ s, Run.exec step start cancelsOwn = .ok s ∧ s.log.Pairwise NotRevived ∧
      .cancelled (active 1 0) ∈ s.log ∧ s.timers.toList = [] := by
  have timely : Run.Meets step CancelsTimely start cancelsOwn := by decide +kernel
  have last : (Run.exec step start cancelsOwn).toOption.map
      (fun s => (decide (.cancelled (active 1 0) ∈ s.log), s.timers.toList)) = some (true, []) := by
    decide +kernel
  obtain ⟨s, reached, ended⟩ := returned_of_map last
  obtain ⟨cancelled, empty⟩ := Prod.mk.inj ended
  exact ⟨timely, s, reached, cancel_final cancelsOwn s timely reached, of_decide_eq_true cancelled, empty⟩

/-- The ids given to `Cancel` are ones `AddTimer` has returned. -/
def CancelsIssued (s : TimerState) : Action → Prop
  | .cancel id => id ∈ s.issued
  | .cancelOther _ id => id ∈ s.issued
  | _ => True

instance (s : TimerState) : (a : Action) → Decidable (s.CancelsIssued a)
  | .cancel id | .cancelOther _ id => inferInstanceAs (Decidable (id ∈ s.issued))
  | .addOther .. | .push _ | .returnId _ | .add .. | .poll | .swap | .functor _ | .finish | .handleRead ..
  | .run | .ret | .reset _ => .isTrue trivial

/-- The first callback of a batch cancels the timer of the second. -/
def cancelsMate : List Action :=
  [.add 1 5 .once 1, .add 2 6 .once 1, .poll, .handleRead 7 true, .run, .cancel (active 2 1), .ret, .run]

/-- Thread `0` adds a timer; the loop thread cancels it before it gets to the insertion. -/
def cancelsEarly : List Action :=
  [.addOther 0 1 5 .once, .push 0, .returnId 0, .poll, .cancel (active 1 0), .swap, .functor 2, .finish,
    .poll, .handleRead 7 true, .run]

theorem cancel_not_final :
    (Run.Meets step CancelsIssued start cancelsMate ∧
      ∃ s, Run.exec step start cancelsMate = .ok s ∧ ¬ s.log.Pairwise NotRevived) ∧
    (Run.Meets step CancelsIssued start cancelsEarly ∧
      ∃ s, Run.exec step start cancelsEarly = .ok s ∧ ¬ s.log.Pairwise NotRevived) := by
  have mate : (Run.exec step start cancelsMate).toOption.map (fun s => decide (s.log.Pairwise NotRevived)) =
      some false := by decide +kernel
  have early : (Run.exec step start cancelsEarly).toOption.map (fun s => decide (s.log.Pairwise NotRevived)) =
      some false := by decide +kernel
  obtain ⟨s, reached, revived⟩ := returned_of_map mate
  obtain ⟨s', reached', revived'⟩ := returned_of_map early
  exact ⟨⟨by decide +kernel, s, reached, of_decide_eq_false revived⟩,
    by decide +kernel, s', reached', of_decide_eq_false revived'⟩

end Rnet.Network.TimerState
