import Rnet.Network.TimerCancel

/-!
# What a cancel leaves alone

A `TimerId` is an address and a sequence number. An address may have been freed and handed out
again, and `timers_` is ordered by expiration and address only; the sequence number is what keeps
a stale id from touching the timer that has the address now. `CancelInLoop` changes nothing about
any timer but the one its id names, and over a whole run a timer that was not cancelled by its own
id is deleted in one case only: it does not repeat, and it has run.
-/
namespace Rnet.Network.TimerState

open Check

variable {s : TimerState} {place : Places} {p : Addr} {timer : Timer}

/-- The id of the default constructor of `TimerId`. -/
def noTimer : ActiveTimer := active 0 0

/-! ### One cancel -/

/-- The Timer at `p` keeps its entries, its expiration and its future: it is not deleted, and
`Reset` treats it as it would have before. -/
structure Spared (s : TimerState) (p : Addr) (timer : Timer) (t : TimerState) : Prop where
  heap : t.heap p = some timer
  timers : ∀ e, e.timer = p → (e ∈ t.timers ↔ e ∈ s.timers)
  actives : ∀ a, a.timer = p → (a ∈ t.activeTimers ↔ a ∈ s.activeTimers)
  batch : t.batch = s.batch
  canceling : active p timer.sequence ∈ t.cancelingTimers ↔ active p timer.sequence ∈ s.cancelingTimers
  queue : t.loop = s.loop
  deleted : .deleted timer.sequence ∈ t.log ↔ .deleted timer.sequence ∈ s.log

theorem cancelArmed_enabled (id : ActiveTimer) : Enabled (s.cancelArmed id) := by
  unfold cancelArmed
  refine Enabled.bind (enabled_demand _ _) fun timer => Enabled.bind (enabled_ensure _ _) fun _ => ?_
  refine Enabled.bind ?_ fun _ => enabled_pure _
  exact Enabled.bind (enabled_demand _ _) fun _ => enabled_pure _

theorem cancelInLoop_enabled (id : ActiveTimer) : Enabled (s.cancelInLoop id) := by
  unfold cancelInLoop
  refine Enabled.bind (enabled_ensure _ _) fun _ => ?_
  dsimp only
  split
  · exact Enabled.bind (cancelArmed_enabled id) fun _ => Enabled.bind (enabled_ensure _ _) fun _ => enabled_pure _
  · split <;>
    exact Enabled.bind (enabled_pure _) fun _ => Enabled.bind (enabled_ensure _ _) fun _ => enabled_pure _

/-- The address of an armed timer determines its sequence number, and the other way round. -/
theorem Owned.apart (owned : s.Owned place) {id : ActiveTimer} {target : Timer}
    (found : s.heap id.timer = some target) (sequence : target.sequence = id.sequence)
    (found' : s.heap p = some timer) (other : active p timer.sequence ≠ id) :
    p ≠ id.timer ∧ timer.sequence ≠ id.sequence := by
  constructor
  · rintro rfl
    obtain rfl : target = timer := Option.some.inj (found.symm.trans found')
    exact other (active_ext rfl sequence)
  · intro same
    have here : p = id.timer := owned.unique p id.timer timer target found' found (same.trans sequence.symm)
    exact other (active_ext here same)

theorem cancelInLoop_spares (owned : s.Owned place) (id : ActiveTimer) :
    Returns (fun t => ∀ p timer, s.heap p = some timer → active p timer.sequence ≠ id → Spared s p timer t)
      (s.cancelInLoop id) := by
  refine Safe.returns ?_ (cancelInLoop_enabled id)
  -- an id that is not armed changes no set but, inside a batch, `cancelingTimers_`
  by_cases armed : s.In place .armed id
  · obtain ⟨placed, target, found, sequence⟩ := armed
    have member : id ∈ s.activeTimers := (owned.actives id).mpr ⟨placed, target, found, sequence⟩
    have listed : entry target.expiration id.timer ∈ s.timers :=
      (owned.timers _).mpr ⟨placed, target, found, rfl⟩
    refine (cancelInLoop_armed_safe owned.sizes found sequence member listed).mono ?_
    rintro t ⟨T, A, rfl, removes⟩ p timer found' other
    obtain ⟨address, number⟩ := owned.apart found sequence found' other
    constructor
    case heap => exact (Function.update_of_ne address _ _).trans found'
    case timers =>
      rintro e rfl
      exact (removes.timers e).trans (and_iff_right (entry_ne address))
    case actives =>
      rintro a rfl
      exact (removes.actives a).trans (and_iff_right (active_ne address))
    case deleted => simp [number]
    case batch | canceling | queue => rfl
  · have unarmed : id ∉ s.activeTimers := fun member => armed ((owned.actives id).mp member)
    refine (cancelInLoop_unarmed_safe owned.sizes unarmed).mono ?_
    rintro t rfl p timer found' other
    constructor
    case heap => exact found'
    case canceling =>
      -- what is remembered is the id itself
      simp only
      split
      · rw [OrderedSet.mem_insert, or_iff_right other]
      · rfl
    case deleted => simp
    case timers | actives => exact fun _ _ => Iff.rfl
    case batch | queue => rfl

/-! ### The null pointer -/

/-- Every timer of the batch is alive until `Reset`. -/
theorem Owned.batch_live {b : Batch} (owned : s.Owned place) (running : s.batch = some b)
    (inside : p ∈ addresses b.expired) : ∃ timer, s.heap p = some timer :=
  owned.found ((owned.expired running p).mp inside)

theorem Effect.null {s' : TimerState} {place' : Places} {a : Action} (effect : Effect s place a s' place')
    (owned : s.Owned place) (null : s.heap 0 = none) : s'.heap 0 = none := by
  induction effect with
  | create a p timer loop _ _ _ positive _ =>
    -- `new` does not return the null pointer
    exact (Function.update_of_ne (Nat.ne_of_lt positive) _ _).trans null
  | add first _ _ afterFirst afterSecond => exact afterSecond (owned.effect first) (afterFirst owned null)
  | cancelArmed a id timer T A loop _ found =>
    have other : 0 ≠ id.timer := by
      intro same
      rw [← same, null] at found
      cases found
    exact (Function.update_of_ne other _ _).trans null
  | reset clock b H T A D alarm settimes running _ resets _ =>
    have outside : 0 ∉ addresses b.expired := by
      intro inside
      obtain ⟨timer, found⟩ := owned.batch_live running inside
      rw [null] at found
      cases found
    exact (resets.others 0 outside).trans null
  | quiet | insert | cancelUnarmed | expire | start | ret => exact null

/-! ### Why a timer is deleted -/

structure Ran (s : TimerState) : Prop where
  /-- A timer of the batch that is not waiting for its turn has run. -/
  started : ∀ m ∈ s.batchMembers, m.timer ∉ s.unstarted → ∀ timer, s.heap m.timer = some timer →
    .started m.sequence timer.repeats ∈ s.log
  deleted : ∀ p q, .inserted p q false ∈ s.log → .deleted q ∈ s.log →
    .cancelled (active p q) ∈ s.log ∨ .started q false ∈ s.log

theorem ran_start : start.Ran := by
  constructor <;> simp [start, batchMembers]

theorem unstarted_eq {b : Batch} (running : s.batch = some b) : s.unstarted = addresses b.rest := by
  rw [unstarted, running]

theorem batchMembers_eq {b : Batch} (running : s.batch = some b) : s.batchMembers = b.members := by
  rw [batchMembers, running]

/-- The reason stays on record. -/
theorem Ran.reason {q : Nat} (ran : s.Ran) (inserted : .inserted p q false ∈ s.log) (gone : .deleted q ∈ s.log)
    (events : List TimerEvent) :
    .cancelled (active p q) ∈ s.log ++ events ∨ .started q false ∈ s.log ++ events :=
  (ran.deleted p q inserted gone).imp (List.mem_append_left _) (List.mem_append_left _)

theorem Owned.member_ne (owned : s.Owned place) {m : ActiveTimer} (member : m ∈ s.batchMembers)
    (elsewhere : place p ≠ some .expired) : m.timer ≠ p := by
  rintro rfl
  exact elsewhere ((owned.members m).mp member).1

theorem Ran.insert {T : OrderedSet Entry} {A : OrderedSet ActiveTimer} {alarm : Option Int}
    {settimes : List Timespec} {loop : EventLoop TimerFunctor} {issued : List ActiveTimer} (ran : s.Ran)
    (recorded : s.Recorded place) (found : s.heap p = some timer) :
    { s with
      timers := T, activeTimers := A, alarm := alarm, settimes := settimes, loop := loop
      issued := issued, log := s.log ++ [.inserted p timer.sequence timer.repeats] : TimerState }.Ran := by
  constructor
  · exact fun m member waits timer' found' => List.mem_append_left _ (ran.started m member waits timer' found')
  · intro p' q inserted gone
    have gone : .deleted q ∈ s.log := by simpa using gone
    rcases List.mem_append.mp inserted with before | new
    · exact ran.reason before gone _
    · -- a Timer that is alive has not been deleted
      obtain ⟨_, rfl, _⟩ := TimerEvent.inserted.inj (List.mem_singleton.mp new)
      exact absurd rfl ((recorded.deleted _ gone).2 p timer found)

theorem Ran.cancelArmed {id : ActiveTimer} {target : Timer} {T : OrderedSet Entry} {A : OrderedSet ActiveTimer}
    {loop : EventLoop TimerFunctor} (ran : s.Ran) (owned : s.Owned place) (recorded : s.Recorded place)
    (found : s.heap id.timer = some target) (sequence : target.sequence = id.sequence)
    (placed : place id.timer = some .armed) :
    { s with
      heap := Function.update s.heap id.timer none, timers := T, activeTimers := A, loop := loop
      log := s.log ++ [.deleted id.sequence, .cancelled id] : TimerState }.Ran := by
  constructor
  · intro m member waits timer found'
    have apart := owned.member_ne (p := id.timer) (s := s) member (by simp [placed])
    have found' : s.heap m.timer = some timer := (Function.update_of_ne apart _ _).symm.trans found'
    exact List.mem_append_left _ (ran.started m member waits timer found')
  · intro p q inserted gone
    have inserted : .inserted p q false ∈ s.log := by simpa using inserted
    have gone : .deleted q ∈ s.log ∨ q = id.sequence := by simpa using gone
    rcases gone with before | rfl
    · exact ran.reason inserted before _
    · -- the cancel deletes the Timer its id names, and records that id
      rcases recorded.inserted p _ false inserted with ⟨timer, found', same, _⟩ | ⟨earlier, _⟩
      · have here : p = id.timer := owned.unique p id.timer timer target found' found (same.trans sequence.symm)
        have named : active p id.sequence = id := active_ext here rfl
        left
        rw [named]
        exact List.mem_append_right _ (by simp)
      · exact absurd sequence ((recorded.deleted _ earlier).2 id.timer target found)

theorem Ran.start {b : Batch} {e : Entry} {rest : List Entry} (ran : s.Ran) (owned : s.Owned place)
    (running : s.batch = some b) (next : b.rest = e :: rest) (found : s.heap e.timer = some timer) :
    { s with
      batch := some { b with rest := rest, running := true }
      log := s.log ++ [.started timer.sequence timer.repeats] : TimerState }.Ran := by
  constructor
  · intro m member waits timer' found'
    have member : m ∈ s.batchMembers := batchMembers_eq running ▸ member
    by_cases here : m.timer = e.timer
    · obtain ⟨_, timer'', found'', sequence⟩ := (owned.members m).mp member
      rw [here, found] at found'
      rw [here, found] at found''
      obtain rfl := Option.some.inj found'
      obtain rfl := Option.some.inj found''
      exact List.mem_append_right _ (by simp [sequence])
    · refine List.mem_append_left _ (ran.started m member ?_ timer' found')
      rw [unstarted_eq running, next]
      exact fun inside => (mem_addresses_cons.mp inside).elim here waits
  · exact fun p q inserted gone => ran.reason (by simpa using inserted) (by simpa using gone) _

theorem Ran.ret {b : Batch} (ran : s.Ran) (running : s.batch = some b) :
    { s with batch := some { b with running := false } : TimerState }.Ran := by
  refine ⟨fun m member waits => ran.started m ?_ ?_, ran.deleted⟩
  · rw [batchMembers_eq running]
    exact member
  · rw [unstarted_eq running]
    exact waits

theorem Ran.reset {b : Batch} {H : Addr → Option Timer} {T : OrderedSet Entry} {A : OrderedSet ActiveTimer}
    {D : List TimerEvent} {alarm : Option Int} {settimes : List Timespec} (ran : s.Ran) (owned : s.Owned place)
    (recorded : s.Recorded place) (running : s.batch = some b) (done : b.rest = [])
    (resets : Resets s b.now b.expired H T A D) :
    { s with
      heap := H, timers := T, activeTimers := A, log := s.log ++ D, alarm := alarm, settimes := settimes
      callingExpiredTimers := false, batch := none : TimerState }.Ran := by
  have deletions (event : TimerEvent) (member : event ∈ D) : ∃ q, event = .deleted q := by
    obtain ⟨_, timer, _, _, _, rfl⟩ := (resets.deleted event).mp member
    exact ⟨_, rfl⟩
  constructor
  · simp [batchMembers]
  · intro p q inserted gone
    have inserted : .inserted p q false ∈ s.log := by
      rcases List.mem_append.mp inserted with before | new
      · exact before
      · obtain ⟨_, other⟩ := deletions _ new
        cases other
    rcases recorded.inserted p q false inserted with ⟨timer, found, rfl, once, _⟩ | ⟨earlier, _⟩
    · rcases List.mem_append.mp gone with before | new
      · exact absurd rfl ((recorded.deleted _ before).2 p timer found)
      · -- `Reset` comes when nobody waits, so the timer has run
        obtain ⟨p', timer', inside, found', _, same⟩ := (resets.deleted _).mp new
        have here : p = p' := owned.unique p p' timer timer' found found' (TimerEvent.deleted.inj same)
        subst here
        have member : active p timer.sequence ∈ s.batchMembers :=
          (owned.members _).mpr ⟨(owned.expired running p).mp inside, timer, found, rfl⟩
        have waits : p ∉ s.unstarted := by
          rw [unstarted_eq running, done]
          exact List.not_mem_nil
        right
        exact List.mem_append_left _ (once ▸ ran.started _ member waits timer found)
    · exact ran.reason inserted earlier _

theorem Ran.effect {s' : TimerState} {place' : Places} {a : Action} (effect : Effect s place a s' place')
    (owned : s.Owned place) (recorded : s.Recorded place) (ran : s.Ran) : s'.Ran := by
  induction effect with
  | quiet => exact ⟨ran.1, ran.2⟩
  | create a p timer loop free _ _ =>
    refine ⟨fun m member waits timer' found' => ?_, ran.deleted⟩
    have apart := owned.member_ne (p := p) (m := m) member (by simp [free])
    exact ran.started m member waits timer' ((Function.update_of_ne apart _ _).symm.trans found')
  | insert a p timer clock T A alarm settimes loop issued found _ _ _ => exact ran.insert recorded found
  | add first _ _ afterFirst afterSecond =>
    exact afterSecond (owned.effect first) (recorded.effect first owned) (afterFirst owned recorded ran)
  | cancelArmed a id timer T A loop _ found sequence placed _ =>
    exact ran.cancelArmed owned recorded found sequence placed
  | cancelUnarmed a id loop _ _ =>
    refine ⟨fun m member waits timer' found' => ?_, fun p q inserted gone => ?_⟩
    · exact List.mem_append_left _ (ran.started m member waits timer' found')
    · exact ran.reason (by simpa using inserted) (by simpa using gone) _
  | expire now ready expired T A idle _ =>
    -- all of a new batch wait for their turn
    refine ⟨fun m member waits => ?_, ran.deleted⟩
    exact absurd (mem_membersOf.mp member).1 waits
  | start b e rest timer running next found => exact ran.start owned running next found
  | ret b running => exact ran.ret running
  | reset clock b H T A D alarm settimes running done resets _ => exact ran.reset owned recorded running done resets

/-! ### Every run -/

/-- What holds in every run, the read of a sequence number off the loop thread included. -/
def Kept (s : TimerState) : Prop :=
  (∃ place, s.Owned place ∧ s.Queued place ∧ s.Recorded place) ∧ s.Ran ∧ s.heap 0 = none

theorem kept_start : start.Kept := ⟨⟨_, owned_start, queued_start, recorded_start⟩, ran_start, rfl⟩

theorem step_kept (a : Action) (s' : TimerState) (kept : s.Kept) (taken : s.step a = .ok s') : s'.Kept := by
  obtain ⟨⟨place, owned, queued, recorded⟩, ran, null⟩ := kept
  obtain ⟨place', effect, queued'⟩ := taken_effect a owned queued taken
  exact ⟨⟨place', owned.effect effect, queued', recorded.effect effect owned⟩, ran.effect effect owned recorded,
    effect.null owned null⟩

/-- In every state a run reaches: whatever id `CancelInLoop` is called with, it returns and spares
every Timer but the one of that address and that sequence number, and the default id names none.
A timer whose own id was not cancelled has been deleted only if it does not repeat and has run,
and a repeating one is armed whenever no batch is running. -/
theorem cancel_spares_others (acts : List Action) (s : TimerState) (reached : Run.exec step start acts = .ok s) :
    (∀ id, Returns
      (fun t => ∀ p timer, s.heap p = some timer → active p timer.sequence ≠ id → Spared s p timer t)
      (s.cancelInLoop id)) ∧
    (∀ p timer, s.heap p = some timer → active p timer.sequence ≠ noTimer) ∧
    ∀ p q repeats, .inserted p q repeats ∈ s.log → .cancelled (active p q) ∉ s.log →
      (.deleted q ∈ s.log → repeats = false ∧ .started q false ∈ s.log) ∧
      (repeats = true → s.batch = none → active p q ∈ s.activeTimers) := by
  have kept : s.Kept :=
    Run.exec_keeps_all (fun s a s' kept taken => step_kept a s' kept taken) start s acts kept_start reached
  obtain ⟨⟨place, owned, queued, recorded⟩, ran, null⟩ := kept
  refine ⟨fun id => cancelInLoop_spares owned id, ?_, ?_⟩
  · intro p timer found same
    have here : p = 0 := congrArg ActiveTimer.timer same
    rw [here, null] at found
    cases found
  · intro p q repeats inserted uncancelled
    constructor
    · intro gone
      cases repeats with
      | false => exact ⟨rfl, (ran.deleted p q inserted gone).resolve_left uncancelled⟩
      | true =>
        rcases recorded.inserted p q true inserted with ⟨timer, found, rfl, _⟩ | ⟨_, cancelled⟩
        · exact absurd rfl ((recorded.deleted _ gone).2 p timer found)
        · exact absurd (cancelled rfl) uncancelled
    · rintro rfl idle
      have consistent := Inv.consistent ⟨place, owned, queued, recorded⟩
      exact consistent.back idle p q inserted uncancelled

/-- A one-shot timer fires and is deleted; a repeating one gets its address. -/
def recycled : List Action :=
  [.add 1 5 .once 1, .poll, .handleRead 7 true, .run, .ret, .reset 8, .add 1 20 (.every 10) 9]

theorem cancel_spares_others_recycled :
    ∃ s, Run.exec step start recycled = .ok s ∧ s.activeTimers.toList = [active 1 1] ∧
      Returns (fun t => active 1 1 ∈ t.activeTimers) (s.cancelInLoop (active 1 0)) := by
  have last : (Run.exec step start recycled).toOption.map
      (fun s => (s.activeTimers.toList, (s.heap 1).map Timer.sequence)) = some ([active 1 1], some 1) := by
    decide +kernel
  obtain ⟨s, reached, ended⟩ := returned_of_map last
  obtain ⟨armed, named⟩ := Prod.mk.inj ended
  obtain ⟨timer, found, sequence⟩ := Option.map_eq_some_iff.mp named
  refine ⟨s, reached, armed, ((cancel_spares_others recycled s reached).1 (active 1 0)).mono fun t spared => ?_⟩
  have other : active 1 timer.sequence ≠ active 1 0 := by
    rw [sequence]
    decide
  refine ((spared 1 timer found other).actives (active 1 1) rfl).mpr ?_
  rw [OrderedSet.mem_def, armed]
  exact List.mem_singleton.mpr rfl

end Rnet.Network.TimerState
