import Rnet.Network.TimerQueue

/-!
# What the operations of the timer queue do

One lemma for each operation: the state it needs so that none of its checks fails, and the
state it leaves. The sets are described by their elements, everything an operation does not
touch by the form of the resulting state.
-/
namespace Rnet.Network.TimerState

open Check

variable {s : TimerState} {p : Addr} {timer : Timer}

/-! ### Insert and AddTimerInLoop -/

/-- The sets after an insertion. -/
structure Adds (s : TimerState) (p : Addr) (timer : Timer) (T : OrderedSet Entry)
    (A : OrderedSet ActiveTimer) : Prop where
  timers : ∀ e, e ∈ T ↔ e = entry timer.expiration p ∨ e ∈ s.timers
  actives : ∀ a, a ∈ A ↔ a = active p timer.sequence ∨ a ∈ s.activeTimers
  sizes : T.size = A.size

/-- The address is in neither set. -/
structure Unarmed (s : TimerState) (p : Addr) : Prop where
  timers : ∀ e ∈ s.timers, e.timer ≠ p
  actives : ∀ a ∈ s.activeTimers, a.timer ≠ p

theorem insert_safe (sizes : s.timers.size = s.activeTimers.size) (found : s.heap p = some timer)
    (unarmed : s.Unarmed p) :
    Safe (fun r => (∃ timers activeTimers,
        r.1 = { s with timers := timers, activeTimers := activeTimers } ∧
        Adds s p timer timers activeTimers) ∧
      (r.2 = true ↔ ∀ e ∈ s.timers, timer.expiration < e.when)) (s.insert p) := by
  have newEntry : entry timer.expiration p ∉ s.timers := fun member =>
    unarmed.timers _ member (entry_timer _ _)
  have newActive : active p timer.sequence ∉ s.activeTimers := fun member =>
    unarmed.actives _ member (active_timer _ _)
  have sizesAfter : (s.timers.insert (entry timer.expiration p)).1.size =
      (s.activeTimers.insert (active p timer.sequence)).1.size := by
    rw [OrderedSet.size_insert newEntry, OrderedSet.size_insert newActive, sizes]
  simp only [insert, read, safe_bind, safe_ensure, safe_demand, safe_pure]
  refine ⟨sizes, timer, found, OrderedSet.insert_new.mpr newEntry, OrderedSet.insert_new.mpr newActive,
    sizesAfter, ⟨_, _, rfl, ⟨fun e => OrderedSet.mem_insert, fun a => OrderedSet.mem_insert, sizesAfter⟩⟩, ?_⟩
  -- the comparison with the first entry decides about all of them
  cases start : s.timers.first with
  | none =>
    have empty := OrderedSet.first_eq_none.mp start
    simp only [true_iff]
    exact fun e member => absurd member (empty e)
  | some first =>
    simp only [decide_eq_true_eq]
    constructor
    · intro earlier e member
      exact lt_of_lt_of_le earlier (when_le (OrderedSet.first_le start member))
    · exact fun earlier => earlier first (OrderedSet.first_mem start)

/-- The alarm after an insertion: set again only for the earliest timer. -/
inductive Rearms (s : TimerState) (timer : Timer) (clock : Int) : Option Int → List Timespec → Prop where
  | earliest (before : ∀ e ∈ s.timers, timer.expiration < e.when) :
      Rearms s timer clock (some timer.expiration)
        (s.settimes ++ [howMuchTimeFromNow timer.expiration clock])
  | later (e : Entry) (member : e ∈ s.timers) (le : e.when ≤ timer.expiration) :
      Rearms s timer clock s.alarm s.settimes

theorem addTimerInLoop_safe (clock : Int) (sizes : s.timers.size = s.activeTimers.size)
    (found : s.heap p = some timer) (unarmed : s.Unarmed p) :
    Safe (fun s' => ∃ timers activeTimers alarm settimes,
        s' = { s with
          timers := timers, activeTimers := activeTimers, alarm := alarm, settimes := settimes
          log := s.log ++ [.inserted p timer.sequence timer.repeats] } ∧
        Adds s p timer timers activeTimers ∧ Rearms s timer clock alarm settimes)
      (s.addTimerInLoop p clock) := by
  refine Safe.bind (insert_safe sizes found unarmed) ?_
  rintro ⟨s', earliestChanged⟩ ⟨⟨timers, activeTimers, rfl, adds⟩, earliest⟩
  simp only at earliest
  simp only [read, found, safe_bind, safe_demand, Option.some.injEq, exists_eq_left']
  split
  next changed =>
    exact ⟨timers, activeTimers, _, _, rfl, adds, .earliest (earliest.mp changed)⟩
  next unchanged =>
    have other : ∃ e ∈ s.timers, e.when ≤ timer.expiration := by
      simpa only [not_forall, not_lt, exists_prop] using mt earliest.mpr unchanged
    obtain ⟨e, member, le⟩ := other
    exact ⟨timers, activeTimers, _, _, rfl, adds, .later e member le⟩

/-! ### CancelInLoop -/

/-- The sets after a timer was taken out of both. -/
structure Removes (s : TimerState) (id : ActiveTimer) (timer : Timer) (T : OrderedSet Entry)
    (A : OrderedSet ActiveTimer) : Prop where
  timers : ∀ e, e ∈ T ↔ e ≠ entry timer.expiration id.timer ∧ e ∈ s.timers
  actives : ∀ a, a ∈ A ↔ a ≠ id ∧ a ∈ s.activeTimers
  sizes : T.size = A.size

theorem cancelInLoop_armed_safe {id : ActiveTimer} (sizes : s.timers.size = s.activeTimers.size)
    (found : s.heap id.timer = some timer) (sequence : timer.sequence = id.sequence)
    (armed : id ∈ s.activeTimers) (listed : entry timer.expiration id.timer ∈ s.timers) :
    Safe (fun s' => ∃ timers activeTimers,
        s' = { s with
          heap := Function.update s.heap id.timer none
          timers := timers, activeTimers := activeTimers
          log := s.log ++ [.deleted id.sequence, .cancelled id] } ∧
        Removes s id timer timers activeTimers) (s.cancelInLoop id) := by
  have sizesAfter : (s.timers.erase (entry timer.expiration id.timer)).1.size =
      (s.activeTimers.erase id).1.size := by
    have one := OrderedSet.size_erase listed
    have other := OrderedSet.size_erase armed
    omega
  simp only [cancelInLoop, if_pos armed, cancelArmed, read, free, record, found, safe_bind, safe_ensure,
    safe_demand, safe_pure, Option.some.injEq, exists_eq_left']
  refine ⟨sizes, OrderedSet.erase_count listed, sizesAfter, _, _, ?_,
    ⟨fun e => OrderedSet.mem_erase, fun a => OrderedSet.mem_erase, sizesAfter⟩⟩
  rw [sequence, List.append_assoc]
  rfl

/-- A timer that is not armed is only remembered, and only while callbacks run. -/
theorem cancelInLoop_unarmed_safe {id : ActiveTimer} (sizes : s.timers.size = s.activeTimers.size)
    (unarmed : id ∉ s.activeTimers) :
    Safe (fun s' => s' = { s with
        cancelingTimers := if s.callingExpiredTimers then (s.cancelingTimers.insert id).1 else s.cancelingTimers
        log := s.log ++ [.cancelled id] }) (s.cancelInLoop id) := by
  simp only [cancelInLoop, if_neg unarmed, safe_bind, safe_ensure]
  refine ⟨sizes, ?_⟩
  split
  next calling => simp only [safe_pure, safe_bind, safe_ensure]; exact ⟨sizes, rfl⟩
  next idle => simp only [safe_pure, safe_bind, safe_ensure]; exact ⟨sizes, rfl⟩

/-! ### GetExpired -/

/-- The addresses the entries hold. -/
abbrev addresses (entries : List Entry) : List Addr := entries.map Entry.timer

theorem mem_addresses_cons {e : Entry} {entries : List Entry} :
    p ∈ addresses (e :: entries) ↔ p = e.timer ∨ p ∈ addresses entries :=
  List.mem_cons

theorem eraseActive_safe (entries : List Entry) (distinct : (addresses entries).Nodup)
    (current : ∀ a ∈ s.activeTimers, ∃ timer, s.heap a.timer = some timer ∧ timer.sequence = a.sequence)
    (present : ∀ e ∈ entries, ∃ timer, s.heap e.timer = some timer ∧
      active e.timer timer.sequence ∈ s.activeTimers) :
    Safe (fun s' => ∃ A : OrderedSet ActiveTimer, s' = { s with activeTimers := A } ∧
        (∀ a, a ∈ A ↔ a ∈ s.activeTimers ∧ a.timer ∉ addresses entries) ∧
        A.size + entries.length = s.activeTimers.size) (eraseActive entries s) := by
  induction entries generalizing s with
  | nil => exact ⟨s.activeTimers, rfl, by simp, rfl⟩
  | cons e rest ih =>
    obtain ⟨timer, found, member⟩ := present e List.mem_cons_self
    obtain ⟨absent, restDistinct⟩ := List.nodup_cons.mp distinct
    simp only [eraseActive, read, found, safe_bind, safe_demand, Option.some.injEq, exists_eq_left',
      safe_ensure]
    refine ⟨OrderedSet.erase_count member, ?_⟩
    refine (ih restDistinct ?current ?present).mono ?after
    case current => exact fun a inside => current a (OrderedSet.mem_erase.mp inside).2
    case present =>
      intro f inside
      obtain ⟨timer', found', member'⟩ := present f (List.mem_cons_of_mem e inside)
      refine ⟨timer', found', OrderedSet.mem_erase.mpr ⟨fun same => absent ?_, member'⟩⟩
      have sameTimer : f.timer = e.timer := congrArg ActiveTimer.timer same
      exact sameTimer ▸ List.mem_map_of_mem inside
    case after =>
      rintro s' ⟨A, rfl, members, size⟩
      refine ⟨A, rfl, fun a => ?_, ?_⟩
      · rw [members, OrderedSet.mem_erase, mem_addresses_cons, not_or]
        constructor
        · rintro ⟨⟨different, inside⟩, outside⟩
          refine ⟨inside, fun same => different ?_, outside⟩
          -- the address determines the timer, and with it the pair
          obtain ⟨timer', found', sequence⟩ := current a inside
          rw [same, found, Option.some.injEq] at found'
          exact active_ext same (found' ▸ sequence.symm)
        · rintro ⟨inside, different, outside⟩
          exact ⟨⟨fun same => different (same ▸ rfl), inside⟩, outside⟩
      · have one := OrderedSet.size_erase member
        simp only at size
        rw [List.length_cons]
        omega

/-- What `GetExpired` moves out, and what it leaves. -/
structure Expires (s : TimerState) (now : Int) (expired : List Entry) (T : OrderedSet Entry)
    (A : OrderedSet ActiveTimer) : Prop where
  due : ∀ e, e ∈ expired ↔ e ∈ s.timers ∧ e.when ≤ now
  distinct : (addresses expired).Nodup
  timers : ∀ e, e ∈ T ↔ e ∈ s.timers ∧ now < e.when
  actives : ∀ a, a ∈ A ↔ a ∈ s.activeTimers ∧ a.timer ∉ addresses expired
  sizes : T.size = A.size

theorem getExpired_safe (now : Int) (sizes : s.timers.size = s.activeTimers.size)
    (range : ∀ e ∈ s.timers, e.timer < uintptrMax)
    (apart : ∀ e ∈ s.timers, ∀ f ∈ s.timers, e.timer = f.timer → e = f)
    (current : ∀ a ∈ s.activeTimers, ∃ timer, s.heap a.timer = some timer ∧ timer.sequence = a.sequence)
    (present : ∀ e ∈ s.timers, ∃ timer, s.heap e.timer = some timer ∧
      active e.timer timer.sequence ∈ s.activeTimers) :
    Safe (fun r => ∃ T A, r.1 = { s with timers := T, activeTimers := A } ∧ Expires s now r.2 T A)
      (s.getExpired now) := by
  have expired (e : Entry) : e ∈ s.timers.below (entry now uintptrMax) ↔ e ∈ s.timers ∧ e.when ≤ now := by
    rw [OrderedSet.mem_below]
    exact and_congr_right fun member => lt_sentry (range e member)
  have remaining (e : Entry) : e ∈ s.timers.onward (entry now uintptrMax) ↔ e ∈ s.timers ∧ now < e.when := by
    rw [OrderedSet.mem_onward]
    refine and_congr_right fun member => ?_
    rw [← not_lt, lt_sentry (range e member), not_le]
  have distinct : (addresses (s.timers.below (entry now uintptrMax))).Nodup := by
    refine List.Nodup.map_on ?_ ((s.timers.below_sorted _).imp fun less => ne_of_lt less)
    exact fun e inside f inside' same => apart e ((expired e).mp inside).1 f ((expired f).mp inside').1 same
  simp only [getExpired, safe_bind, safe_ensure]
  refine ⟨sizes, ?first, Safe.mono (eraseActive_safe _ distinct current ?present) ?after⟩
  case first =>
    rw [Option.all_eq_true]
    intro first found
    exact decide_eq_true ((remaining first).mp (OrderedSet.first_mem found)).2
  case present => exact fun e inside => present e ((expired e).mp inside).1
  case after =>
    rintro s' ⟨A, rfl, members, size⟩
    have sizesAfter : (s.timers.onward (entry now uintptrMax)).size = A.size := by
      have parts := s.timers.below_length (entry now uintptrMax)
      simp only at size
      omega
    exact ⟨sizesAfter, _, A, rfl, ⟨expired, distinct, remaining, members, sizesAfter⟩⟩

/-! ### Reset -/

/-- `Reset` puts the timer back. -/
def Keeps (s : TimerState) (p : Addr) (timer : Timer) : Prop :=
  timer.repeats = true ∧ active p timer.sequence ∉ s.cancelingTimers

instance (s : TimerState) (p : Addr) (timer : Timer) : Decidable (s.Keeps p timer) :=
  inferInstanceAs (Decidable (_ ∧ _))

/-- What the loop of `Reset` makes of the heap, the sets and the record of deletions. -/
structure Resets (s : TimerState) (now : Int) (entries : List Entry) (H : Addr → Option Timer)
    (T : OrderedSet Entry) (A : OrderedSet ActiveTimer) (D : List TimerEvent) : Prop where
  others : ∀ p, p ∉ addresses entries → H p = s.heap p
  outcome : ∀ p timer, p ∈ addresses entries → s.heap p = some timer →
    H p = if s.Keeps p timer then some (timer.restart now) else none
  timers : ∀ e, e ∈ T ↔ e ∈ s.timers ∨
    e.timer ∈ addresses entries ∧ ∃ timer, H e.timer = some timer ∧ timer.expiration = e.when
  actives : ∀ a, a ∈ A ↔ a ∈ s.activeTimers ∨
    a.timer ∈ addresses entries ∧ ∃ timer, H a.timer = some timer ∧ timer.sequence = a.sequence
  sizes : T.size = A.size
  deleted : ∀ event, event ∈ D ↔ ∃ p timer, p ∈ addresses entries ∧ s.heap p = some timer ∧
    H p = none ∧ event = .deleted timer.sequence
  once : D.Nodup

/-- One entry, with the outcome `o` for its timer, then the others. -/
theorem Resets.cons {now : Int} {e : Entry} {rest : List Entry} {H : Addr → Option Timer}
    {T : OrderedSet Entry} {A : OrderedSet ActiveTimer} {D D' : List TimerEvent} {s' : TimerState}
    {o : Option Timer} (resets : Resets s' now rest H T A D)
    (found : s.heap e.timer = some timer) (absent : e.timer ∉ addresses rest)
    (outcome : o = if s.Keeps e.timer timer then some (timer.restart now) else none)
    (canceling : s'.cancelingTimers = s.cancelingTimers)
    (heap : s'.heap = Function.update s.heap e.timer o)
    (timers : ∀ f, f ∈ s'.timers ↔ f ∈ s.timers ∨
      f.timer = e.timer ∧ ∃ timer, o = some timer ∧ timer.expiration = f.when)
    (actives : ∀ a, a ∈ s'.activeTimers ↔ a ∈ s.activeTimers ∨
      a.timer = e.timer ∧ ∃ timer, o = some timer ∧ timer.sequence = a.sequence)
    (deleted : ∀ event, event ∈ D' ↔ o = none ∧ event = .deleted timer.sequence ∨ event ∈ D)
    (once : D'.Nodup) : Resets s now (e :: rest) H T A D' := by
  -- the entries have different addresses, so later ones do not touch this timer
  have here : H e.timer = o := by
    rw [resets.others e.timer absent, heap]
    exact Function.update_self _ _ _
  have elsewhere (p : Addr) (different : p ≠ e.timer) : s'.heap p = s.heap p := by
    rw [heap]
    exact Function.update_of_ne different _ _
  have apart (p : Addr) (inside : p ∈ addresses rest) : p ≠ e.timer := fun same => absent (same ▸ inside)
  constructor
  case others =>
    intro p outside
    rw [mem_addresses_cons, not_or] at outside
    rw [resets.others p outside.2, elsewhere p outside.1]
  case outcome =>
    intro p timer' inside found'
    rcases mem_addresses_cons.mp inside with rfl | inside
    · obtain rfl : timer = timer' := Option.some.inj (found.symm.trans found')
      rw [here, outcome]
    · have same : s'.Keeps p timer' ↔ s.Keeps p timer' := by rw [Keeps, Keeps, canceling]
      rw [resets.outcome p timer' inside ((elsewhere p (apart p inside)).trans found')]
      simp only [same]
  case timers =>
    intro f
    rw [resets.timers, timers, mem_addresses_cons, or_assoc, or_and_right]
    refine or_congr_right (or_congr_left (and_congr_right fun same => ?_))
    rw [same, here]
  case actives =>
    intro a
    rw [resets.actives, actives, mem_addresses_cons, or_assoc, or_and_right]
    refine or_congr_right (or_congr_left (and_congr_right fun same => ?_))
    rw [same, here]
  case sizes => exact resets.sizes
  case deleted =>
    intro event
    rw [deleted, resets.deleted]
    constructor
    · rintro (⟨freed, rfl⟩ | ⟨p, timer', inside, found', freed, rfl⟩)
      · exact ⟨e.timer, timer, List.mem_cons_self, found, here.trans freed, rfl⟩
      · exact ⟨p, timer', List.mem_cons_of_mem _ inside,
          (elsewhere p (apart p inside)).symm.trans found', freed, rfl⟩
    · rintro ⟨p, timer', inside, found', freed, rfl⟩
      rcases mem_addresses_cons.mp inside with rfl | inside
      · obtain rfl : timer = timer' := Option.some.inj (found.symm.trans found')
        exact Or.inl ⟨here.symm.trans freed, rfl⟩
      · exact Or.inr ⟨p, timer', inside, (elsewhere p (apart p inside)).trans found', freed, rfl⟩
  case once => exact once

/-- Sequence numbers stay unique when one Timer is replaced by one of the same number or freed. -/
theorem unique_update {heap : Addr → Option Timer} {o : Option Timer}
    (unique : ∀ p p' timer timer', heap p = some timer → heap p' = some timer' →
      timer.sequence = timer'.sequence → p = p')
    (found : heap p = some timer) (same : ∀ timer', o = some timer' → timer'.sequence = timer.sequence) :
    ∀ q q' timer timer', Function.update heap p o q = some timer → Function.update heap p o q' = some timer' →
      timer.sequence = timer'.sequence → q = q' := by
  have before (q : Addr) (timer' : Timer) (found' : Function.update heap p o q = some timer') :
      ∃ timer'', heap q = some timer'' ∧ timer''.sequence = timer'.sequence := by
    by_cases here : q = p
    · subst here
      rw [Function.update_self] at found'
      exact ⟨timer, found, (same timer' found').symm⟩
    · rw [Function.update_of_ne here] at found'
      exact ⟨timer', found', rfl⟩
  intro q q' timer' timer'' found' found'' sequence
  obtain ⟨one, foundOne, sameOne⟩ := before q timer' found'
  obtain ⟨other, foundOther, sameOther⟩ := before q' timer'' found''
  exact unique q q' one other foundOne foundOther (sameOne.trans (sequence.trans sameOther.symm))

theorem resetLoop_safe (now : Int) (entries : List Entry) (distinct : (addresses entries).Nodup)
    (sizes : s.timers.size = s.activeTimers.size)
    (live : ∀ p ∈ addresses entries, ∃ timer, s.heap p = some timer)
    (unique : ∀ p p' timer timer', s.heap p = some timer → s.heap p' = some timer' →
      timer.sequence = timer'.sequence → p = p')
    (unarmed : ∀ p ∈ addresses entries, s.Unarmed p) :
    Safe (fun s' => ∃ H T A D,
        s' = { s with heap := H, timers := T, activeTimers := A, log := s.log ++ D } ∧
        Resets s now entries H T A D) (resetLoop now entries s) := by
  induction entries generalizing s with
  | nil =>
    refine ⟨s.heap, s.timers, s.activeTimers, [], by simp, ?_⟩
    constructor <;> simp [sizes]
  | cons e rest ih =>
    obtain ⟨absent, restDistinct⟩ := List.nodup_cons.mp distinct
    obtain ⟨timer, found⟩ := live e.timer List.mem_cons_self
    have here := unarmed e.timer List.mem_cons_self
    have apart (p : Addr) (inside : p ∈ addresses rest) : p ≠ e.timer :=
      fun same => absent (same ▸ inside)
    simp only [resetLoop, read, found, safe_bind, safe_demand, Option.some.injEq, exists_eq_left']
    by_cases keeps : s.Keeps e.timer timer
    · rw [if_pos (show timer.repeats = true ∧ active e.timer timer.sequence ∉ s.cancelingTimers from keeps)]
      refine Safe.bind (insert_safe sizes (Function.update_self _ _ _) ⟨here.timers, here.actives⟩) ?_
      rintro ⟨s', _⟩ ⟨⟨T, A, rfl, adds⟩, _⟩
      refine (ih restDistinct adds.sizes ?live ?unique ?unarmed).mono ?after
      case live =>
        intro p inside
        simp only [Function.update_of_ne (apart p inside)]
        exact live p (List.mem_cons_of_mem _ inside)
      case unique =>
        exact unique_update unique found (by rintro _ ⟨⟩; rfl)
      case unarmed =>
        intro p inside
        obtain ⟨timers, actives⟩ := unarmed p (List.mem_cons_of_mem _ inside)
        constructor
        · intro f member
          rcases (adds.timers f).mp member with rfl | member
          · exact (apart p inside).symm
          · exact timers f member
        · intro a member
          rcases (adds.actives a).mp member with rfl | member
          · exact (apart p inside).symm
          · exact actives a member
      case after =>
        rintro s' ⟨H, T', A', D, rfl, resets⟩
        refine ⟨H, T', A', D, rfl, resets.cons found absent (if_pos keeps).symm rfl rfl ?_ ?_ ?_ resets.once⟩
        · intro f
          rw [adds.timers, or_comm]
          refine or_congr_right ⟨?_, ?_⟩
          · rintro rfl
            exact ⟨rfl, _, rfl, rfl⟩
          · rintro ⟨same, _, ⟨⟩, when⟩
            exact entry_ext when.symm same
        · intro a
          rw [adds.actives, or_comm]
          refine or_congr_right ⟨?_, ?_⟩
          · rintro rfl
            exact ⟨rfl, _, rfl, rfl⟩
          · rintro ⟨same, _, ⟨⟩, sequence⟩
            exact active_ext same sequence.symm
        · simp
    · rw [if_neg (show ¬ (timer.repeats = true ∧ active e.timer timer.sequence ∉ s.cancelingTimers) from keeps)]
      simp only [free, record, found, safe_bind, safe_demand, Option.some.injEq, exists_eq_left', safe_pure]
      refine (ih restDistinct ?sizes ?live ?unique ?unarmed).mono ?after
      case sizes => exact sizes
      case live =>
        intro p inside
        simp only [Function.update_of_ne (apart p inside)]
        exact live p (List.mem_cons_of_mem _ inside)
      case unique => exact unique_update unique found (by simp)
      case unarmed =>
        intro p inside
        obtain ⟨timers, actives⟩ := unarmed p (List.mem_cons_of_mem _ inside)
        exact ⟨timers, actives⟩
      case after =>
        rintro s' ⟨H, T', A', D, rfl, resets⟩
        refine ⟨H, T', A', .deleted timer.sequence :: D, ?_, resets.cons found absent (if_neg keeps).symm rfl rfl
          ?_ ?_ ?_ ?_⟩
        · simp only [List.append_assoc, List.singleton_append]
        · simp
        · simp
        · simp
        · refine List.nodup_cons.mpr ⟨fun member => ?_, resets.once⟩
          -- the others have other sequence numbers
          obtain ⟨p, timer', inside, found', _, same⟩ := (resets.deleted _).mp member
          have found' := (Function.update_of_ne (apart p inside) none s.heap).symm.trans found'
          exact apart p inside (unique p e.timer timer' timer found' found (TimerEvent.deleted.inj same).symm)

/-- The alarm at the end of `Reset`: set for the first entry, if that one has a valid time. -/
inductive ArmsNext (s : TimerState) (T : OrderedSet Entry) (clock : Int) :
    Option Int → List Timespec → Prop where
  | empty (absent : ∀ e, e ∉ T) : ArmsNext s T clock s.alarm s.settimes
  | past (first : Entry) (member : first ∈ T) (least : ∀ e ∈ T, first.when ≤ e.when)
      (invalid : first.when ≤ 0) : ArmsNext s T clock s.alarm s.settimes
  | set (first : Entry) (member : first ∈ T) (least : ∀ e ∈ T, first.when ≤ e.when)
      (valid : 0 < first.when) :
      ArmsNext s T clock (some first.when) (s.settimes ++ [howMuchTimeFromNow first.when clock])

theorem reset_safe (now clock : Int) (entries : List Entry) (distinct : (addresses entries).Nodup)
    (sizes : s.timers.size = s.activeTimers.size)
    (live : ∀ p ∈ addresses entries, ∃ timer, s.heap p = some timer)
    (unique : ∀ p p' timer timer', s.heap p = some timer → s.heap p' = some timer' →
      timer.sequence = timer'.sequence → p = p')
    (unarmed : ∀ p ∈ addresses entries, s.Unarmed p)
    (listed : ∀ e ∈ s.timers, ∃ timer, s.heap e.timer = some timer ∧ timer.expiration = e.when) :
    Safe (fun s' => ∃ H T A D alarm settimes,
        s' = { s with
          heap := H, timers := T, activeTimers := A, log := s.log ++ D, alarm := alarm, settimes := settimes } ∧
        Resets s now entries H T A D ∧ ArmsNext s T clock alarm settimes) (s.reset entries now clock) := by
  refine Safe.bind (resetLoop_safe now entries distinct sizes live unique unarmed) ?_
  rintro s' ⟨H, T, A, D, rfl, resets⟩
  simp only
  cases start : T.first with
  | none =>
    simp only [pure_bind, lt_self_iff_false, if_false, safe_pure]
    exact ⟨H, T, A, D, _, _, rfl, resets, .empty (OrderedSet.first_eq_none.mp start)⟩
  | some first =>
    have member := OrderedSet.first_mem start
    have least (e : Entry) (inside : e ∈ T) : first.when ≤ e.when := when_le (OrderedSet.first_le start inside)
    have pointed : ∃ timer, H first.timer = some timer ∧ timer.expiration = first.when := by
      rcases (resets.timers first).mp member with old | ⟨_, new⟩
      · have outside : first.timer ∉ addresses entries := fun inside =>
          (unarmed _ inside).timers first old rfl
        rw [resets.others _ outside]
        exact listed first old
      · exact new
    obtain ⟨timer, found, when⟩ := pointed
    simp only [read, found, demand, safe_bind, safe_ok, safe_pure, when]
    split
    next valid => exact ⟨H, T, A, D, _, _, rfl, resets, .set first member least valid⟩
    next invalid => exact ⟨H, T, A, D, _, _, rfl, resets, .past first member least (not_lt.mp invalid)⟩

end Rnet.Network.TimerState
