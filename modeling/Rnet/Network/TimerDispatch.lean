import Rnet.Network.TimerFrame

/-!
# The timers of one batch

`GetExpired` cuts `timers_` at a sentry of the time `now` and the largest address, so that an
entry that expires at `now` is on the near side whatever its address. `HandleRead` then runs the
callbacks of what was cut off, in that order, and `Reset` puts the repeating timers back. The
callbacks may add and cancel timers in between, which changes the sets but not the batch.
-/
namespace Rnet.Network

open Check

/-- The sequence number of a timer that is started. -/
def TimerEvent.startedSequence : TimerEvent → Option Nat
  | .started q _ => some q
  | _ => none

namespace TimerState

variable {s s₁ : TimerState} {place : Places} {p : Addr} {timer : Timer} {b₀ : Batch}

/-! ### GetExpired -/

/-- What `GetExpired` returns and what it leaves. -/
structure ExpiresExactly (s : TimerState) (now : Int) (expired : List Entry) (t : TimerState) : Prop where
  due : ∀ e, e ∈ expired ↔ e ∈ s.timers ∧ e.when ≤ now
  order : expired.Pairwise fun e f => e.when ≤ f.when
  once : (addresses expired).Nodup
  timers : ∀ e, e ∈ t.timers ↔ e ∈ s.timers ∧ e ∉ expired
  actives : ∀ a, a ∈ t.activeTimers ↔ a ∈ s.activeTimers ∧ a.timer ∉ addresses expired
  later : ∀ e ∈ t.timers, now < e.when

theorem eraseActive_enabled (entries : List Entry) (s : TimerState) : Enabled (eraseActive entries s) := by
  induction entries generalizing s with
  | nil => exact enabled_pure _
  | cons e rest ih =>
    unfold eraseActive
    exact Enabled.bind (enabled_demand _ _) fun timer => Enabled.bind (enabled_ensure _ _) fun _ => ih _

theorem getExpired_enabled (now : Int) : Enabled (s.getExpired now) := by
  unfold getExpired
  refine Enabled.bind (enabled_ensure _ _) fun _ => Enabled.bind (enabled_ensure _ _) fun _ => ?_
  refine Enabled.bind (eraseActive_enabled _ _) fun _ => ?_
  exact Enabled.bind (enabled_ensure _ _) fun _ => enabled_pure _

/-- The entries are those before the sentry, in the order of the set. -/
theorem getExpired_below (s : TimerState) (now : Int) :
    Yields (fun r => r.2 = s.timers.below (entry now uintptrMax)) (s.getExpired now) := by
  simp only [getExpired, yields_bind, yields_ensure, yields_pure]
  exact fun _ _ _ _ _ => trivial

theorem Expires.exactly {now : Int} {expired : List Entry} {T : OrderedSet Entry} {A : OrderedSet ActiveTimer}
    (expires : Expires s now expired T A) (below : expired = s.timers.below (entry now uintptrMax))
    {t : TimerState} (timers : t.timers = T) (actives : t.activeTimers = A) : ExpiresExactly s now expired t where
  due := expires.due
  order := by
    rw [below]
    exact (s.timers.below_sorted _).imp fun less => when_le (le_of_lt less)
  once := expires.distinct
  timers e := by
    rw [timers, expires.timers, expires.due, not_and, not_le]
    exact and_congr_right fun member => ⟨fun late _ => late, fun late => late member⟩
  actives := actives ▸ expires.actives
  later e member := by
    rw [timers] at member
    exact ((expires.timers e).mp member).2

theorem getExpired_cut (owned : s.Owned place) (now : Int) (alarm : Option Int) :
    Returns (fun r => ∃ T A, r.1 = { s with alarm := alarm, timers := T, activeTimers := A } ∧
        r.2 = s.timers.below (entry now uintptrMax) ∧ Expires s now r.2 T A)
      ({ s with alarm := alarm }.getExpired now) := by
  refine Safe.returns ?_ (getExpired_enabled now)
  have expires := getExpired_owned now alarm owned
  refine expires.of_result fun r returned => ?_
  obtain ⟨T, A, left, expires⟩ := expires.result returned
  exact ⟨T, A, left, getExpired_below { s with alarm := alarm } now r returned, expires⟩

/-! ### Inside a batch -/

/-- What was recorded between the two states. -/
def eventsSince (s₁ s : TimerState) : List TimerEvent := s.log.drop s₁.log.length

/-- The timers started between the two states, in order. -/
def startedSince (s₁ s : TimerState) : List Nat := (s₁.eventsSince s).filterMap TimerEvent.startedSequence

/-- The timers of the batch that wait for their turn, in order. -/
def waitingTimers (s : TimerState) : List ActiveTimer :=
  match s.batch with
  | some b => s.membersOf b.rest
  | none => []

/-- The state is one of the batch that began with `b₀` in `s₁`. -/
structure During (s₁ : TimerState) (b₀ : Batch) (s : TimerState) : Prop where
  batch : ∃ b done waiting, s.batch = some b ∧ b.now = b₀.now ∧ b.expired = b₀.expired ∧ b.members = b₀.members ∧
    b₀.members = done ++ waiting ∧ waiting.map ActiveTimer.timer = addresses b.rest ∧
    s₁.startedSince s = done.map ActiveTimer.sequence
  log : s₁.log <+: s.log
  heap : ∀ m ∈ b₀.members, s.heap m.timer = s₁.heap m.timer
  canceling : ∀ a ∈ s.cancelingTimers, .cancelled a ∈ s₁.eventsSince s

theorem eventsSince_append {s' : TimerState} {events : List TimerEvent} (log : s₁.log <+: s.log)
    (appended : s'.log = s.log ++ events) : s₁.eventsSince s' = s₁.eventsSince s ++ events := by
  rw [eventsSince, appended, List.drop_append_of_le_length log.length_le]
  rfl

/-- Those of the batch that have run, and those that wait. -/
theorem During.parts {b : Batch} (during : During s₁ b₀ s) (running : s.batch = some b) :
    ∃ done waiting, b.now = b₀.now ∧ b.expired = b₀.expired ∧ b.members = b₀.members ∧
      b₀.members = done ++ waiting ∧ waiting.map ActiveTimer.timer = addresses b.rest ∧
      s₁.startedSince s = done.map ActiveTimer.sequence := by
  obtain ⟨b', done, waiting, running', parts⟩ := during.batch
  obtain rfl : b = b' := Option.some.inj (running.symm.trans running')
  exact ⟨done, waiting, parts⟩

/-- A step that leaves the batch alone and starts no timer. -/
theorem During.aside {s' : TimerState} {events : List TimerEvent} (during : During s₁ b₀ s)
    (batch : s'.batch = s.batch) (heap : ∀ m ∈ b₀.members, s'.heap m.timer = s.heap m.timer)
    (log : s'.log = s.log ++ events) (still : events.filterMap TimerEvent.startedSequence = [])
    (canceling : ∀ a ∈ s'.cancelingTimers, a ∈ s.cancelingTimers ∨ .cancelled a ∈ events) :
    During s₁ b₀ s' := by
  have since := eventsSince_append during.log log
  constructor
  · have started : s₁.startedSince s' = s₁.startedSince s := by
      rw [startedSince, since, List.filterMap_append, still, List.append_nil]
      rfl
    rw [batch, started]
    exact during.batch
  · exact during.log.trans (log ▸ List.prefix_append _ _)
  · exact fun m member => (heap m member).trans (during.heap m member)
  · intro a member
    rw [since]
    rcases canceling a member with before | new
    · exact List.mem_append_left _ (during.canceling a before)
    · exact List.mem_append_right _ new

theorem During.member (during : During s₁ b₀ s) {m : ActiveTimer} (member : m ∈ b₀.members) :
    m ∈ s.batchMembers := by
  obtain ⟨b, _, _, running, _, _, members, _⟩ := during.batch
  rw [batchMembers_eq running, members]
  exact member

/-- The next timer of the batch is started. -/
theorem During.start {b : Batch} {e : Entry} {rest : List Entry} (during : During s₁ b₀ s)
    (owned : s.Owned place) (running : s.batch = some b) (next : b.rest = e :: rest)
    (found : s.heap e.timer = some timer) :
    During s₁ b₀ { s with
      batch := some { b with rest := rest, running := true }
      log := s.log ++ [.started timer.sequence timer.repeats] } := by
  obtain ⟨done, waiting, now, expired, members, parts, order, started⟩ := during.parts running
  -- the first that waits is the one of the first entry
  rw [next] at order
  obtain ⟨m, later, rfl, first, order⟩ := List.map_eq_cons_iff.mp order
  have member : m ∈ s.batchMembers := during.member (by simp [parts])
  have sequence : timer.sequence = m.sequence := by
    obtain ⟨_, timer', found', sequence⟩ := (owned.members m).mp member
    rw [first, found] at found'
    rw [Option.some.inj found', sequence]
  have since : s₁.eventsSince { s with
      batch := some { b with rest := rest, running := true }
      log := s.log ++ [.started timer.sequence timer.repeats] } =
      s₁.eventsSince s ++ [.started timer.sequence timer.repeats] := eventsSince_append during.log rfl
  refine ⟨⟨_, done ++ [m], later, rfl, now, expired, members, by simp [parts], order, ?_⟩, ?_, during.heap, ?_⟩
  · rw [startedSince, since, List.filterMap_append, List.map_append, ← started, sequence]
    rfl
  · exact during.log.trans (List.prefix_append _ _)
  · intro a member
    rw [since]
    exact List.mem_append_left _ (during.canceling a member)

theorem During.ret {b : Batch} (during : During s₁ b₀ s) (running : s.batch = some b) :
    During s₁ b₀ { s with batch := some { b with running := false } } := by
  obtain ⟨done, waiting, now, expired, members, parts, order, started⟩ := during.parts running
  exact ⟨⟨_, done, waiting, rfl, now, expired, members, parts, order, started⟩, during.log, during.heap,
    during.canceling⟩

theorem During.effect {s' : TimerState} {place' : Places} {a : Action} (effect : Effect s place a s' place')
    (owned : s.Owned place) (during : During s₁ b₀ s) (goes : ∀ clock, a ≠ .reset clock) : During s₁ b₀ s' := by
  induction effect with
  | quiet => exact during.aside rfl (fun _ _ => rfl) (List.append_nil _).symm rfl fun _ => Or.inl
  | create a p timer loop free _ _ =>
    refine during.aside rfl (fun m member => ?_) (List.append_nil _).symm rfl fun _ => Or.inl
    exact Function.update_of_ne (owned.member_ne (during.member member) (by simp [free])) _ _
  | insert a p timer clock T A alarm settimes loop issued found _ _ _ =>
    exact during.aside rfl (fun _ _ => rfl) rfl rfl fun _ => Or.inl
  | add first _ _ afterFirst afterSecond =>
    exact afterSecond (owned.effect first) (afterFirst owned during goes) goes
  | cancelArmed a id timer T A loop _ found sequence placed _ =>
    refine during.aside rfl (fun m member => ?_) rfl rfl fun _ => Or.inl
    exact Function.update_of_ne (owned.member_ne (during.member member) (by simp [placed])) _ _
  | cancelUnarmed a id loop _ _ =>
    refine during.aside rfl (fun _ _ => rfl) rfl rfl fun a member => ?_
    simp only at member
    -- inside a batch the id is remembered
    split at member
    · rcases OrderedSet.mem_insert.mp member with rfl | before
      · exact Or.inr (List.mem_singleton.mpr rfl)
      · exact Or.inl before
    · exact Or.inl member
  | expire now ready expired T A idle _ =>
    -- there is a batch already
    obtain ⟨b, _, _, running, _⟩ := during.batch
    rw [idle] at running
    cases running
  | start b e rest timer running next found => exact during.start owned running next found
  | ret b running => exact during.ret running
  | reset clock => exact absurd rfl (goes clock)

/-! ### The beginning and the end of a batch -/

/-- The timers of some entries, given by address. -/
theorem membersOf_eq {entries : List Entry} {ms : List ActiveTimer}
    (order : ms.map ActiveTimer.timer = addresses entries)
    (live : ∀ m ∈ ms, ∃ timer, s.heap m.timer = some timer ∧ timer.sequence = m.sequence) :
    s.membersOf entries = ms := by
  -- along the entries, which have the same addresses one by one
  induction entries generalizing ms with
  | nil =>
    rw [List.map_eq_nil_iff.mp order]
    rfl
  | cons e rest ih =>
    obtain ⟨m, later, rfl, first, order⟩ := List.map_eq_cons_iff.mp order
    obtain ⟨timer, found, sequence⟩ := live m List.mem_cons_self
    rw [first] at found
    have head : s.membersOf (e :: rest) = active e.timer timer.sequence :: s.membersOf rest :=
      List.filterMap_cons_some (by rw [found]; rfl)
    rw [head, ih order fun m' member => live m' (List.mem_cons_of_mem m member)]
    exact congrArg (· :: later) (active_ext first.symm sequence)

/-- The state in which the loop over the expired entries begins. -/
def begun (s : TimerState) (now : Int) (alarm : Option Int) (T : OrderedSet Entry) (A : OrderedSet ActiveTimer)
    (expired : List Entry) : TimerState :=
  { s with
    alarm := alarm, timers := T, activeTimers := A, callingExpiredTimers := true, cancelingTimers := .empty
    batch := some ⟨now, expired, s.membersOf expired, expired, false⟩ }

theorem handleRead_begins (owned : s.Owned place) (now : Int) (ready : Bool) :
    Returns (fun s₁ => ∃ T A alarm, s₁ = s.begun now alarm T A (s.timers.below (entry now uintptrMax)) ∧
        Expires s now (s.timers.below (entry now uintptrMax)) T A) (s.handleRead now ready) := by
  have read : (if ready then { s with alarm := none } else s) =
      { s with alarm := if ready then none else s.alarm } := by cases ready <;> rfl
  rw [handleRead, read]
  refine Returns.bind (getExpired_cut owned now _) ?_
  rintro ⟨s', expired⟩ ⟨T, A, rfl, rfl, expires⟩
  exact ⟨T, A, _, rfl, expires⟩

theorem During.begin {now : Int} {alarm : Option Int} {T : OrderedSet Entry} {A : OrderedSet ActiveTimer}
    {expired : List Entry} (live : ∀ e ∈ expired, ∃ timer, s.heap e.timer = some timer) :
    During (s.begun now alarm T A expired) ⟨now, expired, s.membersOf expired, expired, false⟩
      (s.begun now alarm T A expired) := by
  have silent : (s.begun now alarm T A expired).eventsSince (s.begun now alarm T A expired) = [] := List.drop_length
  refine ⟨⟨_, [], s.membersOf expired, rfl, rfl, rfl, rfl, rfl, ?_, ?_⟩, List.prefix_refl _, fun _ _ => rfl, nofun⟩
  · exact (membersOf_timers live).symm
  · rw [startedSince, silent]
    rfl

theorem During.waiting (during : During s₁ b₀ s) (owned : s.Owned place) :
    s₁.startedSince s ++ s.waitingTimers.map ActiveTimer.sequence = b₀.members.map ActiveTimer.sequence := by
  obtain ⟨b, done, waiting, running, _, _, _, parts, order, started⟩ := during.batch
  have rest : s.membersOf b.rest = waiting := by
    refine membersOf_eq order fun m member => ?_
    exact ((owned.members m).mp (during.member (by simp [parts, member]))).2
  have left : s.waitingTimers = waiting := by
    rw [waitingTimers, running]
    exact rest
  rw [left, started, parts, List.map_append]

theorem insert_enabled (s : TimerState) (p : Addr) : Enabled (s.insert p) := by
  unfold insert
  refine Enabled.bind (enabled_ensure _ _) fun _ => Enabled.bind (enabled_demand _ _) fun timer => ?_
  refine Enabled.bind (enabled_ensure _ _) fun _ => Enabled.bind (enabled_ensure _ _) fun _ => ?_
  exact Enabled.bind (enabled_ensure _ _) fun _ => enabled_pure _

theorem resetLoop_enabled (now : Int) (entries : List Entry) (s : TimerState) :
    Enabled (resetLoop now entries s) := by
  induction entries generalizing s with
  | nil => exact enabled_pure _
  | cons e rest ih =>
    unfold resetLoop
    refine Enabled.bind (enabled_demand _ _) fun timer => ?_
    split
    · exact Enabled.bind (insert_enabled _ _) fun r => ih r.1
    · refine Enabled.bind ?_ ih
      exact Enabled.bind (enabled_demand _ _) fun _ => enabled_pure _

theorem reset_enabled (s : TimerState) (entries : List Entry) (now clock : Int) :
    Enabled (s.reset entries now clock) := by
  have armed (t : TimerState) (expire : Int) :
      Enabled (if 0 < expire then pure (t.resetTimerfd expire clock) else pure t : Comp TimerFault _) := by
    split <;> exact enabled_pure _
  refine Enabled.bind (resetLoop_enabled now entries s) fun t => ?_
  dsimp only
  split
  · exact armed t 0
  · exact Enabled.bind (enabled_demand _ _) fun timer => armed t timer.expiration

/-- The batch is over. -/
structure Completed (now : Int) (members : List ActiveTimer) (s₁ t : TimerState) : Prop where
  batch : t.batch = none
  ran : s₁.startedSince t = members.map ActiveTimer.sequence
  /-- A repeating timer that was not cancelled meanwhile is armed for `now` and its interval. -/
  rearmed : ∀ m ∈ members, ∀ timer, s₁.heap m.timer = some timer → timer.repeats = true →
    .cancelled m ∉ s₁.eventsSince t →
    t.heap m.timer = some { timer with expiration := now + timer.interval.micros } ∧
    entry (now + timer.interval.micros) m.timer ∈ t.timers ∧ m ∈ t.activeTimers

theorem During.reset {b : Batch} (during : During s₁ b₀ s) (owned : s.Owned place) (running : s.batch = some b)
    (idle : b.running = false) (last : b.rest = []) (clock : Int) :
    Returns (Completed b₀.now b₀.members s₁) (s.step (.reset clock)) := by
  obtain ⟨done, waiting, now, expired, members, parts, order, started⟩ := during.parts running
  have nobody : waiting = [] := by
    rw [last] at order
    exact List.map_eq_nil_iff.mp order
  rw [nobody, List.append_nil] at parts
  have taken : (given s.batch : Comp TimerFault Batch) = .ok b := given_eq_ok.mpr running
  simp only [step, taken, returns_bind, returns_ok, returns_require, returns_pure]
  refine ⟨⟨idle, last⟩, ((reset_owned clock owned running).returns (reset_enabled _ _ _ _)).mono ?_⟩
  rintro t ⟨H, T, A, D, alarm, settimes, rfl, resets, _⟩
  have deletions : D.filterMap TimerEvent.startedSequence = [] := by
    refine List.filterMap_eq_nil_iff.mpr fun event member => ?_
    obtain ⟨_, _, _, _, _, rfl⟩ := (resets.deleted event).mp member
    rfl
  let t : TimerState := { s with
    heap := H, timers := T, activeTimers := A, log := s.log ++ D, alarm := alarm, settimes := settimes
    callingExpiredTimers := false, batch := none }
  have since : s₁.eventsSince t = s₁.eventsSince s ++ D := eventsSince_append during.log rfl
  constructor
  case batch => rfl
  case ran =>
    change s₁.startedSince t = _
    rw [startedSince, since, List.filterMap_append, deletions, List.append_nil, parts, ← started]
    rfl
  case rearmed =>
    intro m member timer found repeats uncancelled
    have found : s.heap m.timer = some timer := (during.heap m member).trans found
    obtain ⟨placed, timer', found', sequence⟩ := (owned.members m).mp (during.member member)
    obtain rfl : timer = timer' := Option.some.inj (found.symm.trans found')
    have named : active m.timer timer.sequence = m := active_ext rfl sequence
    have inside : m.timer ∈ addresses b.expired := (owned.expired running m.timer).mpr placed
    -- `Reset` asks `cancelingTimers_`, which has no id that was not cancelled in this batch
    have keeps : s.Keeps m.timer timer := by
      refine ⟨repeats, fun remembered => uncancelled ?_⟩
      change _ ∈ s₁.eventsSince t
      rw [since]
      exact List.mem_append_left _ (during.canceling m (named ▸ remembered))
    have outcome := resets.outcome m.timer timer inside found
    rw [if_pos keeps, Timer.restart, if_pos repeats, now] at outcome
    refine ⟨outcome, ?_, ?_⟩
    · exact (resets.timers _).mpr (Or.inr ⟨inside, _, outcome, rfl⟩)
    · exact (resets.actives m).mpr (Or.inr ⟨inside, _, outcome, sequence⟩)

/-- The next callback can be started: its Timer is there. -/
theorem run_returns {b : Batch} (owned : s.Owned place) (running : s.batch = some b) (idle : b.running = false)
    (waits : b.rest ≠ []) : Returns (fun _ => True) (s.step .run) := by
  obtain ⟨e, rest, next⟩ := List.exists_cons_of_ne_nil waits
  have inside : e.timer ∈ addresses b.expired := by
    refine List.mem_map_of_mem ((owned.batch b running).rest.subset ?_)
    rw [next]
    exact List.mem_cons_self
  obtain ⟨timer, found⟩ := owned.found ((owned.expired running e.timer).mp inside)
  have taken : (given s.batch : Comp TimerFault Batch) = .ok b := given_eq_ok.mpr running
  simp only [step, taken, returns_bind, returns_ok, returns_require, runNext, next, read, found, demand,
    returns_pure]
  exact ⟨idle, trivial⟩

/-! ### Every batch -/

/-- A state of the batch that began in `s₁`: the timers started since then, and those that wait,
are all of its timers in their order; and the batch goes on, with the next callback or with
`Reset`. -/
structure Dispatches (now : Int) (members : List ActiveTimer) (s₁ s : TimerState) : Prop where
  ran : s₁.startedSince s ++ s.waitingTimers.map ActiveTimer.sequence = members.map ActiveTimer.sequence
  proceeds : ∃ b, s.batch = some b ∧ (b.running = false →
    (b.rest ≠ [] → Returns (fun _ => True) (s.step .run)) ∧
    (b.rest = [] → ∀ clock, Returns (Completed now members s₁) (s.step (.reset clock))))

theorem During.dispatches (during : During s₁ b₀ s) (owned : s.Owned place) :
    Dispatches b₀.now b₀.members s₁ s := by
  obtain ⟨b, _, _, running, _⟩ := during.batch
  refine ⟨during.waiting owned, b, running, fun idle => ⟨?_, ?_⟩⟩
  · exact fun waits => run_returns owned running idle waits
  · exact fun last clock => during.reset owned running idle last clock

/-- Nothing but `Reset` ends a batch. -/
theorem During.exec (acts : List Action) (s : TimerState) (during : During s₁ b₀ s₁) (owned : s₁.Owned place)
    (queued : s₁.Queued place) (inside : ∀ clock, .reset clock ∉ acts)
    (reached : Run.exec step s₁ acts = .ok s) : ∃ place', s.Owned place' ∧ During s₁ b₀ s := by
  have meets : Run.Meets step (fun _ a => ∀ clock, a ≠ .reset clock) s₁ acts := by
    refine Run.meets_of_forall s₁ acts ?_
    rintro _ _ member clock rfl
    exact inside clock member
  have preserved : ∀ u a u', (∃ place, u.Owned place ∧ u.Queued place ∧ During s₁ b₀ u) →
      (∀ clock, a ≠ .reset clock) → u.step a = .ok u' →
      ∃ place, u'.Owned place ∧ u'.Queued place ∧ During s₁ b₀ u' := by
    rintro u a u' ⟨place, owned, queued, during⟩ goes taken
    obtain ⟨place', effect, queued'⟩ := taken_effect a owned queued taken
    exact ⟨place', owned.effect effect, queued', during.effect effect owned goes⟩
  obtain ⟨place', owned', _, during'⟩ :=
    Run.exec_keeps preserved s₁ s acts ⟨place, owned, queued, during⟩ meets reached
  exact ⟨place', owned', during'⟩

theorem ExpiresExactly.live {now : Int} {expired : List Entry} {t : TimerState}
    (exactly : ExpiresExactly s now expired t) (owned : s.Owned place) :
    ∀ e ∈ expired, ∃ timer, s.heap e.timer = some timer := by
  intro e member
  obtain ⟨_, timer, found, _⟩ := (owned.timers e).mp ((exactly.due e).mp member).1
  exact ⟨timer, found⟩

/-- The expired timers have different sequence numbers. -/
theorem ExpiresExactly.distinct {now : Int} {expired : List Entry} {t : TimerState}
    (exactly : ExpiresExactly s now expired t) (owned : s.Owned place) :
    ((s.membersOf expired).map ActiveTimer.sequence).Nodup := by
  have addresses := exactly.once
  rw [membersOf_timers (exactly.live owned)] at addresses
  refine List.Nodup.map_on ?_ addresses.of_map
  intro m member m' member' same
  obtain ⟨_, timer, found, sequence⟩ := mem_membersOf.mp member
  obtain ⟨_, timer', found', sequence'⟩ := mem_membersOf.mp member'
  have here := owned.unique _ _ timer timer' found found' (sequence.trans (same.trans sequence'.symm))
  exact active_ext here same

/-- In every state that satisfies the invariant of the queue, at every time `now`: `GetExpired`
returns the entries that are due, in the order of their expirations, and takes these and no others
out of both sets. A `HandleRead` that begins there runs the timers of those entries, which existed
before, in that order and each once, whatever its callbacks add or cancel; at its end every
repeating one that was not cancelled is armed for `now` and its interval. -/
theorem dispatch_exact (s : TimerState) (inv : s.Inv) (now : Int) :
    ∃ t expired, s.getExpired now = .ok (t, expired) ∧ ExpiresExactly s now expired t ∧
      (s.membersOf expired).map ActiveTimer.timer = addresses expired ∧
      ((s.membersOf expired).map ActiveTimer.sequence).Nodup ∧
      (∀ m ∈ s.membersOf expired, m.sequence < s.sNumCreated) ∧
      ∀ ready, s.batch = none → s.loop.phase = .handling →
        ∃ s₁, s.step (.handleRead now ready) = .ok s₁ ∧
          ∀ acts s₂, (∀ clock, .reset clock ∉ acts) → Run.exec step s₁ acts = .ok s₂ →
            Dispatches now (s.membersOf expired) s₁ s₂ := by
  obtain ⟨place, owned, queued, recorded⟩ := inv
  obtain ⟨⟨t, expired⟩, returned, T, A, left, below, expires⟩ := (getExpired_cut owned now s.alarm).exists
  have exactly : ExpiresExactly s now expired t :=
    expires.exactly below (congrArg TimerState.timers left) (congrArg TimerState.activeTimers left)
  refine ⟨t, expired, returned, exactly, (membersOf_timers (exactly.live owned)).symm, exactly.distinct owned, ?_, ?_⟩
  · intro m member
    obtain ⟨_, timer, found, sequence⟩ := mem_membersOf.mp member
    exact sequence ▸ (owned.each m.timer).fresh timer found
  · intro ready idle handling
    obtain ⟨s₁, began, T, A, alarm, shape, _⟩ := (handleRead_begins owned now ready).exists
    obtain ⟨place', effect, queued'⟩ := (handleRead_effect now ready owned queued idle).result began
    have during : During s₁ ⟨now, expired, s.membersOf expired, expired, false⟩ s₁ := by
      rw [shape, ← below]
      exact During.begin (exactly.live owned)
    refine ⟨s₁, ?_, fun acts s₂ inside reached => ?_⟩
    · simp only [step, idle, handling, require]
      exact began
    · obtain ⟨place'', owned'', during'⟩ := during.exec acts s₂ (owned.effect effect) queued' inside reached
      exact during'.dispatches owned''

/-- Two timers that expire at the same time, the later one at the lower address, and a third. -/
def twoDue : List Action := [.add 2 5 (.every 10) 1, .add 1 5 .once 1, .add 3 9 .once 1, .poll]

/-- The first callback adds a timer that has expired and cancels the third. -/
def addsAndCancels : List Action :=
  [.run, .add 4 3 .once 6, .cancel (active 3 2), .ret, .run, .ret]

theorem dispatch_exact_addsAndCancels :
    ∃ s s₁ s₂ t, Run.exec step start twoDue = .ok s ∧ s.step (.handleRead 5 true) = .ok s₁ ∧
      Run.exec step s₁ addsAndCancels = .ok s₂ ∧ s₂.step (.reset 7) = .ok t ∧
      Completed 5 [active 1 1, active 2 0] s₁ t := by
  have first : (Run.exec step start twoDue).toOption.map (fun s => (s.batch.isNone, s.loop.phase)) =
      some (true, .handling) := by decide +kernel
  obtain ⟨s, reached, ended⟩ := returned_of_map first
  obtain ⟨idle, handling⟩ := Prod.mk.inj ended
  have onLoop : Run.Meets step (fun _ a => ∀ t, a ≠ .returnId t) start twoDue :=
    Run.meets_of_forall start twoDue (by simp [twoDue])
  have inv : s.Inv :=
    (Run.exec_safe (fun s a inv onLoop => step_inv a onLoop inv) start twoDue inv_start onLoop).result reached
  obtain ⟨t, expired, returned, _, _, _, _, batch⟩ := dispatch_exact s inv 5
  obtain ⟨s₁, began, runs⟩ := batch true (Option.isNone_iff_eq_none.mp idle) handling
  have second : (Run.exec step start twoDue).toOption.bind (fun s => (s.step (.handleRead 5 true)).toOption.bind
      fun s₁ => (Run.exec step s₁ addsAndCancels).toOption.map fun s₂ =>
        ((s.getExpired 5).toOption.any fun r => decide (s.membersOf r.2 = [active 1 1, active 2 0]),
          s₂.batch.any fun b => !b.running && b.rest.isEmpty)) = some (true, true) := by decide +kernel
  rw [reached, Except.toOption, Option.bind_some, began, Except.toOption, Option.bind_some, returned] at second
  obtain ⟨s₂, ran, ended⟩ := returned_of_map second
  obtain ⟨members, atEnd⟩ := Prod.mk.inj ended
  obtain ⟨_, b, running, proceeds⟩ := runs addsAndCancels s₂ (by simp [addsAndCancels]) ran
  simp only [running, Option.any_some, Bool.and_eq_true, Bool.not_eq_true', List.isEmpty_iff] at atEnd
  obtain ⟨t, finished, completed⟩ := ((proceeds atEnd.1).2 atEnd.2 7).exists
  have named : s.membersOf expired = [active 1 1, active 2 0] := by simpa [Except.toOption] using members
  exact ⟨s, s₁, s₂, t, reached, began, ran, finished, named ▸ completed⟩

end TimerState

end Rnet.Network
