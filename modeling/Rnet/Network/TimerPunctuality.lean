import Rnet.Network.TimerFrame

/-!
# When the callbacks of the timers run

A run of the queue together with two records the code does not keep: the timers `AddTimer` was
asked for, and the callbacks `HandleRead` started, each with the time `HandleRead` had read. No
callback starts before the time it was asked for, one that repeats starts again only after its
interval, and one that does not repeat starts once. `Restart` counts from the time of the batch
and not from the expiration, so a repeating timer may drift, but only later. Nothing is assumed
about the clock, which may go backwards from one batch to the next.
-/
namespace Rnet.Network

open Check

/-- A call of `Run`: the Timer as it was then, and the time of the batch. -/
structure TimerStart where
  timer : Timer
  now : Int

/-- The second start may come after the first. -/
def TimerStart.Before (a b : TimerStart) : Prop :=
  a.timer.sequence = b.timer.sequence →
    a.timer.repeats = true ∧ b.timer.interval = a.timer.interval ∧ a.now + a.timer.interval.micros ≤ b.now

namespace TimerState

variable {s : TimerState} {place : Places} {p : Addr} {timer : Timer}

/-- The callback the action starts. -/
def startedBy (s : TimerState) : Action → List TimerStart
  | .run => match s.batch with
    | none => []
    | some b => match b.rest with
      | [] => []
      | e :: _ => match s.heap e.timer with
        | none => []
        | some timer => [⟨timer, b.now⟩]
  | _ => []

theorem startedBy_other {a : Action} (waits : a ≠ .run) : s.startedBy a = [] := by
  cases a
  case run => exact absurd rfl waits
  all_goals rfl

theorem startedBy_run {b : Batch} {e : Entry} {rest : List Entry} (running : s.batch = some b)
    (next : b.rest = e :: rest) (found : s.heap e.timer = some timer) :
    s.startedBy .run = [⟨timer, b.now⟩] := by
  simp only [startedBy, running, next, found]

/-! ### The starts -/

/-- The timer at `p` has been started in the running batch. -/
def Done (s : TimerState) (p : Addr) (now : Int) : Prop :=
  ∃ b, s.batch = some b ∧ b.now = now ∧ p ∈ addresses b.expired ∧ p ∉ addresses b.rest

/-- What the earlier starts of a live timer say about it. -/
def Rested (s : TimerState) (p : Addr) (timer : Timer) (start : TimerStart) : Prop :=
  start.timer.interval = timer.interval ∧
    ((∃ now, s.Done p now ∧ start.now ≤ now) ∨
      timer.repeats = true ∧ start.now + timer.interval.micros ≤ timer.expiration)

structure Timing (s : TimerState) (starts : List TimerStart) : Prop where
  order : starts.Pairwise TimerStart.Before
  early : ∀ start ∈ starts, start.timer.expiration ≤ start.now
  created : ∀ start ∈ starts, start.timer.sequence < s.sNumCreated
  due : ∀ b, s.batch = some b → ∀ p ∈ addresses b.expired, ∀ timer, s.heap p = some timer →
    timer.expiration ≤ b.now
  rested : ∀ p timer, s.heap p = some timer → ∀ start ∈ starts,
    start.timer.sequence = timer.sequence → s.Rested p timer start

variable {starts : List TimerStart}

theorem timing_start : start.Timing [] := by
  constructor <;> simp [start]

theorem micros_nonneg (repeats : timer.repeats = true) : 0 ≤ timer.interval.micros :=
  timer.interval.nonneg repeats

/-- A step that leaves the batch alone and every timer that is still alive as it was. -/
theorem Timing.aside {s' : TimerState} (timing : s.Timing starts) (batch : s'.batch = s.batch)
    (heap : ∀ p timer, s'.heap p = some timer → s.heap p = some timer)
    (created : s'.sNumCreated = s.sNumCreated) : s'.Timing starts := by
  constructor
  · exact timing.order
  · exact timing.early
  · rw [created]
    exact timing.created
  · rw [batch]
    exact fun b running p inside timer found => timing.due b running p inside timer (heap p timer found)
  · intro p timer found start member same
    have rested := timing.rested p timer (heap p timer found) start member same
    simpa only [Rested, Done, batch] using rested

/-- A new timer has not been started, and is not in the batch. -/
theorem Timing.create {loop : EventLoop TimerFunctor} (timing : s.Timing starts) (owned : s.Owned place)
    (free : place p = none) (sequence : timer.sequence = s.sNumCreated) :
    { s with
      heap := Function.update s.heap p (some timer), sNumCreated := s.sNumCreated + 1
      loop := loop : TimerState }.Timing starts := by
  constructor
  · exact timing.order
  · exact timing.early
  · exact fun start member => Nat.lt_succ_of_lt (timing.created start member)
  · intro b running q inside timer' found
    have elsewhere : q ≠ p := by
      rintro rfl
      have expired := (owned.expired running q).mp inside
      rw [free] at expired
      cases expired
    exact timing.due b running q inside timer' ((Function.update_of_ne elsewhere _ _).symm.trans found)
  · intro q timer' found start member same
    by_cases here : q = p
    · -- the number is new, so no start on record has it
      subst here
      obtain rfl : timer = timer' := by simpa using found
      exact absurd (same.trans sequence) (Nat.ne_of_lt (timing.created start member))
    · exact timing.rested q timer' ((Function.update_of_ne here _ _).symm.trans found) start member same

/-- The entries taken out of `timers_` carry the expirations of their timers. -/
theorem Timing.expire {s' : TimerState} {now : Int} {expired : List Entry} {T : OrderedSet Entry}
    {A : OrderedSet ActiveTimer} {b : Batch} (timing : s.Timing starts) (owned : s.Owned place)
    (idle : s.batch = none) (expires : Expires s now expired T A) (heap : s'.heap = s.heap)
    (created : s'.sNumCreated = s.sNumCreated) (batch : s'.batch = some b) (entries : b.expired = expired)
    (time : b.now = now) : s'.Timing starts := by
  constructor
  · exact timing.order
  · exact timing.early
  · rw [created]
    exact timing.created
  · intro b' running p inside timer found
    obtain rfl : b = b' := Option.some.inj (batch.symm.trans running)
    rw [entries] at inside
    obtain ⟨e, member, rfl⟩ := List.mem_map.mp inside
    obtain ⟨listed, before⟩ := (expires.due e).mp member
    obtain ⟨_, timer', found', when⟩ := (owned.timers e).mp listed
    rw [heap, found', Option.some.injEq] at found
    rw [time, ← found, when]
    exact before
  · intro p timer found start member same
    obtain ⟨interval, done | later⟩ := timing.rested p timer (heap ▸ found) start member same
    · -- no batch was running before
      obtain ⟨_, ⟨b', running, _⟩, _⟩ := done
      rw [idle] at running
      cases running
    · exact ⟨interval, Or.inr later⟩

/-- The next entry of the batch has waited for its expiration, and so for its interval since the
last start. -/
theorem Timing.waited {b : Batch} {e : Entry} {rest : List Entry} (timing : s.Timing starts)
    (running : s.batch = some b) (next : b.rest = e :: rest) (found : s.heap e.timer = some timer)
    {start : TimerStart} (member : start ∈ starts) (same : start.timer.sequence = timer.sequence)
    (due : timer.expiration ≤ b.now) :
    start.timer.interval = timer.interval ∧ timer.repeats = true ∧ start.now + timer.interval.micros ≤ b.now := by
  obtain ⟨interval, done | ⟨repeats, later⟩⟩ := timing.rested e.timer timer found start member same
  · -- started in this batch: then it would not be among the entries to come
    obtain ⟨_, ⟨b', running', _, _, outside⟩, _⟩ := done
    obtain rfl : b = b' := Option.some.inj (running.symm.trans running')
    rw [next] at outside
    exact absurd (List.mem_cons_self) outside
  · exact ⟨interval, repeats, later.trans due⟩

theorem Timing.start {b : Batch} {e : Entry} {rest : List Entry} {log : List TimerEvent}
    (timing : s.Timing starts) (owned : s.Owned place) (running : s.batch = some b)
    (next : b.rest = e :: rest) (found : s.heap e.timer = some timer) :
    { s with batch := some { b with rest := rest, running := true }, log := log : TimerState }.Timing
      (starts ++ [⟨timer, b.now⟩]) := by
  have wf := owned.batch b running
  have suffix : addresses b.rest <:+ addresses b.expired := wf.rest.map _
  have entries : addresses b.rest = e.timer :: addresses rest := by rw [next]; rfl
  have inside : e.timer ∈ addresses b.expired := suffix.subset (entries ▸ List.mem_cons_self)
  have once : e.timer ∉ addresses rest := by
    have distinct := wf.distinct.sublist suffix.sublist
    rw [entries] at distinct
    exact (List.nodup_cons.mp distinct).1
  have due : timer.expiration ≤ b.now := timing.due b running e.timer inside timer found
  have waited (start : TimerStart) (member : start ∈ starts) (same : start.timer.sequence = timer.sequence) :=
    timing.waited running next found member same due
  constructor
  case order =>
    refine List.pairwise_append.mpr ⟨timing.order, List.pairwise_singleton _ _, ?_⟩
    rintro start member _ last same
    obtain rfl := List.mem_singleton.mp last
    obtain ⟨interval, repeats, later⟩ := waited start member same
    refine ⟨?_, interval.symm, interval ▸ later⟩
    rw [Timer.repeats, interval]
    exact repeats
  case early =>
    intro start member
    rcases List.mem_append.mp member with old | last
    · exact timing.early start old
    · obtain rfl := List.mem_singleton.mp last
      exact due
  case created =>
    intro start member
    rcases List.mem_append.mp member with old | last
    · exact timing.created start old
    · obtain rfl := List.mem_singleton.mp last
      exact (owned.each e.timer).fresh timer found
  case due =>
    intro b' running' q member timer' found'
    obtain rfl := Option.some.inj running'
    exact timing.due b running q member timer' found'
  case rested =>
    intro q timer' found' start member same
    by_cases here : q = e.timer
    · -- the timer that is started now
      subst here
      obtain rfl : timer = timer' := Option.some.inj (found.symm.trans found')
      have done : Done { s with batch := some { b with rest := rest, running := true }, log := log }
          e.timer b.now := ⟨_, rfl, rfl, inside, once⟩
      rcases List.mem_append.mp member with old | last
      · obtain ⟨interval, repeats, later⟩ := waited start old same
        have nonneg := micros_nonneg repeats
        exact ⟨interval, Or.inl ⟨b.now, done, by omega⟩⟩
      · obtain rfl := List.mem_singleton.mp last
        exact ⟨rfl, Or.inl ⟨b.now, done, le_refl _⟩⟩
    · -- any other timer keeps its place in the batch, and the new start is not one of its own
      rcases List.mem_append.mp member with old | last
      · obtain ⟨interval, ⟨now, ⟨b', running', time, expired, outside⟩, before⟩ | later⟩ :=
          timing.rested q timer' found' start old same
        · obtain rfl : b = b' := Option.some.inj (running.symm.trans running')
          rw [entries] at outside
          have done : Done { s with batch := some { b with rest := rest, running := true }, log := log } q now :=
            ⟨_, rfl, time, expired, fun still => outside (List.mem_cons_of_mem _ still)⟩
          exact ⟨interval, Or.inl ⟨now, done, before⟩⟩
        · exact ⟨interval, Or.inr later⟩
      · obtain rfl := List.mem_singleton.mp last
        exact absurd (owned.unique q e.timer timer' timer found' found same.symm) here

theorem Timing.ret {b : Batch} (timing : s.Timing starts) (running : s.batch = some b) :
    { s with batch := some { b with running := false } : TimerState }.Timing starts := by
  constructor
  case order => exact timing.order
  case early => exact timing.early
  case created => exact timing.created
  case due =>
    intro b' running' p inside timer found
    obtain rfl := Option.some.inj running'
    exact timing.due b running p inside timer found
  case rested =>
    intro p timer found start member same
    obtain ⟨interval, ⟨now, ⟨b', running', time, expired, outside⟩, before⟩ | later⟩ :=
      timing.rested p timer found start member same
    · obtain rfl : b = b' := Option.some.inj (running.symm.trans running')
      exact ⟨interval, Or.inl ⟨now, ⟨_, rfl, time, expired, outside⟩, before⟩⟩
    · exact ⟨interval, Or.inr later⟩

/-- A timer `Reset` keeps repeats, and expires an interval after the time of the batch. -/
theorem Resets.kept {now : Int} {entries : List Entry} {H : Addr → Option Timer} {T : OrderedSet Entry}
    {A : OrderedSet ActiveTimer} {D : List TimerEvent} {timer' : Timer} (resets : Resets s now entries H T A D)
    (inside : p ∈ addresses entries) (found : s.heap p = some timer) (kept : H p = some timer') :
    timer.repeats = true ∧ timer' = timer.restart now := by
  rw [resets.outcome p timer inside found] at kept
  split at kept
  next keeps => exact ⟨keeps.1, (Option.some.inj kept).symm⟩
  next => cases kept

theorem restart_expiration (now : Int) (repeats : timer.repeats = true) :
    (timer.restart now).expiration = now + timer.interval.micros := by
  simp only [Timer.restart, repeats, ite_true]

theorem Timing.reset {s' : TimerState} {b : Batch} {H : Addr → Option Timer} {T : OrderedSet Entry}
    {A : OrderedSet ActiveTimer} {D : List TimerEvent} (timing : s.Timing starts) (owned : s.Owned place)
    (running : s.batch = some b) (resets : Resets s b.now b.expired H T A D) (heap : s'.heap = H)
    (created : s'.sNumCreated = s.sNumCreated) (finished : s'.batch = none) : s'.Timing starts := by
  constructor
  case order => exact timing.order
  case early => exact timing.early
  case created =>
    rw [created]
    exact timing.created
  case due =>
    rw [finished]
    intro b' running'
    cases running'
  case rested =>
    intro p timer' found' start member same
    rw [heap] at found'
    by_cases inside : p ∈ addresses b.expired
    · -- `Restart` counts from `b.now`, and every start of this timer was at that time or before
      obtain ⟨timer, found⟩ := owned.batch_live running inside
      obtain ⟨repeats, rfl⟩ := resets.kept inside found found'
      have nonneg := micros_nonneg repeats
      have due := timing.due b running p inside timer found
      obtain ⟨interval, rested⟩ := timing.rested p timer found start member same
      have before : start.now ≤ b.now := by
        rcases rested with ⟨now, ⟨b', running', time, _⟩, before⟩ | ⟨_, later⟩
        · obtain rfl : b = b' := Option.some.inj (running.symm.trans running')
          exact time ▸ before
        · omega
      refine ⟨interval, Or.inr ⟨repeats, ?_⟩⟩
      rw [restart_expiration b.now repeats]
      exact Int.add_le_add_right before _
    · rw [resets.others p inside] at found'
      obtain ⟨interval, ⟨now, ⟨b', running', _, expired, _⟩, _⟩ | later⟩ :=
        timing.rested p timer' found' start member same
      · obtain rfl : b = b' := Option.some.inj (running.symm.trans running')
        exact absurd expired inside
      · exact ⟨interval, Or.inr later⟩

/-- What is alive after a `delete` was alive before. -/
theorem alive_before {H : Addr → Option Timer} {q : Addr} (found : Function.update H q none p = some timer) :
    H p = some timer := by
  have elsewhere : p ≠ q := by
    rintro rfl
    rw [Function.update_self] at found
    cases found
  rwa [Function.update_of_ne elsewhere] at found

theorem Timing.effect {s' : TimerState} {place' : Places} {a : Action} (effect : Effect s place a s' place')
    (owned : s.Owned place) (timing : s.Timing starts) (waits : a ≠ .run) : s'.Timing starts := by
  -- on the effect, as that of `AddTimer` in the loop thread is one of two in a row
  induction effect with
  | quiet => exact timing.aside rfl (fun _ _ found => found) rfl
  | create a p timer loop free _ sequence => exact timing.create owned free sequence
  | insert => exact timing.aside rfl (fun _ _ found => found) rfl
  | add first _ _ afterFirst afterSecond =>
    exact afterSecond (owned.effect first) (afterFirst owned timing waits) waits
  | cancelArmed a id timer T A loop _ found sequence placed _ =>
    exact timing.aside rfl (fun _ _ => alive_before) rfl
  | cancelUnarmed => exact timing.aside rfl (fun _ _ found => found) rfl
  | expire now ready expired T A idle expires => exact timing.expire owned idle expires rfl rfl rfl rfl rfl
  | start => exact absurd rfl waits
  | ret b running => exact timing.ret running
  | reset clock b H T A D alarm settimes running _ resets _ => exact timing.reset owned running resets rfl rfl rfl

/-! ### The requests -/

/-- The timers of `s'` are those of `s`, with an expiration that is not earlier, and new ones. -/
structure Inherits (s s' : TimerState) : Prop where
  created : s.sNumCreated ≤ s'.sNumCreated
  old : ∀ p timer', s'.heap p = some timer' → s.sNumCreated ≤ timer'.sequence ∨
    ∃ timer, s.heap p = some timer ∧ timer.sequence = timer'.sequence ∧ timer.interval = timer'.interval ∧
      timer.expiration ≤ timer'.expiration

theorem Inherits.trans {s' s'' : TimerState} (first : Inherits s s') (second : Inherits s' s'') :
    Inherits s s'' := by
  refine ⟨first.created.trans second.created, fun p timer'' found'' => ?_⟩
  rcases second.old p timer'' found'' with new | ⟨timer', found', sequence', interval', before'⟩
  · exact Or.inl (first.created.trans new)
  · rcases first.old p timer' found' with new | ⟨timer, found, sequence, interval, before⟩
    · exact Or.inl (sequence' ▸ new)
    · exact Or.inr ⟨timer, found, sequence.trans sequence', interval.trans interval', before.trans before'⟩

theorem inherits_of_subset {s' : TimerState} (created : s'.sNumCreated = s.sNumCreated)
    (heap : ∀ p timer, s'.heap p = some timer → s.heap p = some timer) : Inherits s s' :=
  ⟨created.ge, fun p timer found => Or.inr ⟨timer, heap p timer found, rfl, rfl, le_refl _⟩⟩

theorem Timing.inherits_reset {s' : TimerState} {b : Batch} {H : Addr → Option Timer} {T : OrderedSet Entry}
    {A : OrderedSet ActiveTimer} {D : List TimerEvent} (timing : s.Timing starts) (owned : s.Owned place)
    (running : s.batch = some b) (resets : Resets s b.now b.expired H T A D) (heap : s'.heap = H)
    (created : s'.sNumCreated = s.sNumCreated) : Inherits s s' := by
  refine ⟨created.ge, fun p timer' found' => Or.inr ?_⟩
  rw [heap] at found'
  by_cases inside : p ∈ addresses b.expired
  · obtain ⟨timer, found⟩ := owned.batch_live running inside
    obtain ⟨repeats, rfl⟩ := resets.kept inside found found'
    have nonneg := micros_nonneg repeats
    have due := timing.due b running p inside timer found
    refine ⟨timer, found, rfl, rfl, ?_⟩
    rw [restart_expiration b.now repeats]
    omega
  · exact ⟨timer', (resets.others p inside).symm.trans found', rfl, rfl, le_refl _⟩

theorem Effect.inherits {s' : TimerState} {place' : Places} {a : Action} (effect : Effect s place a s' place')
    (owned : s.Owned place) (timing : s.Timing starts) : Inherits s s' := by
  induction effect with
  | create a p timer loop free _ sequence =>
    refine ⟨Nat.le_succ _, fun q timer' found => ?_⟩
    by_cases here : q = p
    · subst here
      obtain rfl : timer = timer' := by simpa using found
      exact Or.inl sequence.ge
    · exact Or.inr ⟨timer', (Function.update_of_ne here _ _).symm.trans found, rfl, rfl, le_refl _⟩
  | add first _ _ afterFirst afterSecond =>
    have between := timing.effect first owned (by simp)
    exact (afterFirst owned timing).trans (afterSecond (owned.effect first) between)
  | cancelArmed a id timer T A loop _ found sequence placed _ =>
    exact inherits_of_subset rfl fun _ _ => alive_before
  | reset clock b H T A D alarm settimes running _ resets _ =>
    exact timing.inherits_reset owned running resets rfl rfl
  | quiet | insert | cancelUnarmed | expire | start | ret =>
    exact inherits_of_subset rfl fun _ _ found => found

/-! ### Who creates timers -/

/-- The new Timers are those the action asks for. -/
def Requested (s : TimerState) (a : Action) (s' : TimerState) : Prop :=
  ∀ p timer, s'.heap p = some timer → s.sNumCreated ≤ timer.sequence → timer ∈ s.requestedBy a

/-- Where the counter stays, no Timer is new. -/
theorem requested_of_created {s' : TimerState} {place' : Places} {a : Action} (owned' : s'.Owned place')
    (same : s'.sNumCreated = s.sNumCreated) : s.Requested a s' := by
  intro p timer found new
  have old := (owned'.each p).fresh timer found
  omega

theorem Effect.requested {s' : TimerState} {place' : Places} {a : Action} (effect : Effect s place a s' place')
    (owned : s.Owned place) : s.Requested a s' := by
  have owned' := owned.effect effect
  induction effect with
  | create a p timer loop _ _ _ _ requested =>
    intro q timer' found new
    by_cases here : q = p
    · subst here
      obtain rfl : timer = timer' := by simpa using found
      rw [requested]
      exact List.mem_singleton_self _
    · have old := (owned.each q).fresh timer' ((Function.update_of_ne here _ _).symm.trans found)
      omega
  | add first _ heap afterFirst _ =>
    -- the insertion creates nothing
    intro q timer found new
    exact afterFirst owned (owned.effect first) q timer (heap ▸ found) new
  | quiet | insert | cancelArmed | cancelUnarmed | expire | start | ret | reset =>
    exact requested_of_created owned' rfl

end TimerState

/-! ### Whole runs -/

/-- The queue, the timers that were asked for and the callbacks that were started. -/
structure TimerHistory where
  queue : TimerState
  requested : List Timer
  starts : List TimerStart

namespace TimerHistory

def start : TimerHistory := ⟨.start, [], []⟩

def step (h : TimerHistory) (a : TimerState.Action) : Comp TimerFault TimerHistory := do
  let queue ← h.queue.step a
  return ⟨queue, h.requested ++ h.queue.requestedBy a, h.starts ++ h.queue.startedBy a⟩

/-- The request comes from an `AddTimer` call: same timer, and not before the time asked for. -/
def Answers (start : TimerStart) (request : Timer) : Prop :=
  request.sequence = start.timer.sequence ∧ request.interval = start.timer.interval ∧
    request.expiration ≤ start.now

/-- What the callbacks keep to. -/
structure Punctual (h : TimerHistory) : Prop where
  asked : ∀ start ∈ h.starts, ∃ request ∈ h.requested, Answers start request
  spaced : h.starts.Pairwise TimerStart.Before

structure Inv (h : TimerHistory) : Prop where
  queue : ∃ place, h.queue.Owned place ∧ h.queue.Queued place
  timing : h.queue.Timing h.starts
  live : ∀ p timer, h.queue.heap p = some timer → ∃ request ∈ h.requested,
    request.sequence = timer.sequence ∧ request.interval = timer.interval ∧ request.expiration ≤ timer.expiration
  asked : ∀ start ∈ h.starts, ∃ request ∈ h.requested, Answers start request

theorem inv_start : start.Inv := by
  refine ⟨⟨_, TimerState.owned_start, TimerState.queued_start⟩, TimerState.timing_start, ?_, ?_⟩ <;>
    simp [start, TimerState.start]

end TimerHistory

namespace TimerState

variable {s s' : TimerState} {place : Places} {starts : List TimerStart}

/-- The step that starts a callback. -/
theorem run_starts (taken : s.step .run = .ok s') : ∃ b e rest timer, s.batch = some b ∧ b.rest = e :: rest ∧
    s.heap e.timer = some timer ∧
      s' = { s with
        batch := some { b with rest := rest, running := true }
        log := s.log ++ [.started timer.sequence timer.repeats] } := by
  have starts : Yields (fun u => ∃ b e rest timer, s.batch = some b ∧ b.rest = e :: rest ∧
      s.heap e.timer = some timer ∧
        u = { s with
          batch := some { b with rest := rest, running := true }
          log := s.log ++ [.started timer.sequence timer.repeats] }) (s.step .run) := by
    simp only [step, runNext, read, yields_bind, yields_require]
    intro b running _
    split
    next => exact yields_error _ _
    next e rest next =>
      simp only [yields_bind, yields_pure]
      intro timer found
      exact ⟨b, e, rest, timer, given_eq_ok.mp running, next, demand_eq_ok.mp found, rfl⟩
  exact starts s' taken

theorem Timing.step {place' : Places} {a : Action} (timing : s.Timing starts) (owned : s.Owned place)
    (effect : Effect s place a s' place') (taken : s.step a = .ok s') :
    s'.Timing (starts ++ s.startedBy a) := by
  by_cases runs : a = .run
  · subst runs
    obtain ⟨b, e, rest, timer, running, next, found, rfl⟩ := run_starts taken
    rw [startedBy_run running next found]
    exact timing.start owned running next found
  · rw [startedBy_other runs, List.append_nil]
    exact timing.effect effect owned runs

/-- A callback that starts belongs to a live timer that has expired. -/
theorem Timing.startedBy (timing : s.Timing starts) (owned : s.Owned place) {a : Action} {start : TimerStart}
    (taken : s.step a = .ok s') (member : start ∈ s.startedBy a) :
    (∃ p, s.heap p = some start.timer) ∧ start.timer.expiration ≤ start.now := by
  by_cases runs : a = .run
  · subst runs
    obtain ⟨b, e, rest, timer, running, next, found, _⟩ := run_starts taken
    rw [startedBy_run running next found, List.mem_singleton] at member
    subst member
    have waiting : e ∈ b.rest := next ▸ List.mem_cons_self
    have inside : e.timer ∈ addresses b.expired :=
      List.mem_map_of_mem ((owned.batch b running).rest.subset waiting)
    exact ⟨⟨e.timer, found⟩, timing.due b running e.timer inside timer found⟩
  · rw [startedBy_other runs] at member
    cases member

end TimerState

namespace TimerHistory

theorem step_inv (h h' : TimerHistory) (a : TimerState.Action) (inv : h.Inv) (taken : h.step a = .ok h') :
    h'.Inv := by
  obtain ⟨queue, moved, rest⟩ := bind_eq_ok.mp taken
  obtain rfl := Except.ok.inj rest
  obtain ⟨⟨place, owned, queued⟩, timing, live, asked⟩ := inv
  obtain ⟨place', effect, queued'⟩ := TimerState.taken_effect a owned queued moved
  have owned' := owned.effect effect
  constructor
  case queue => exact ⟨place', owned', queued'⟩
  case timing => exact timing.step owned effect moved
  case live =>
    intro p timer' found'
    rcases (effect.inherits owned timing).old p timer' found' with new | ⟨timer, found, sequence, interval, before⟩
    · -- created by this step, so asked for by it
      have request := effect.requested owned p timer' found' new
      exact ⟨timer', List.mem_append_right _ request, rfl, rfl, le_refl _⟩
    · obtain ⟨request, member, sequence', interval', before'⟩ := live p timer found
      exact ⟨request, List.mem_append_left _ member, sequence'.trans sequence, interval'.trans interval,
        before'.trans before⟩
  case asked =>
    intro start member
    rcases List.mem_append.mp member with old | now
    · obtain ⟨request, member, answers⟩ := asked start old
      exact ⟨request, List.mem_append_left _ member, answers⟩
    · obtain ⟨⟨p, found⟩, due⟩ := timing.startedBy owned moved now
      obtain ⟨request, member, sequence, interval, before⟩ := live p start.timer found
      exact ⟨request, List.mem_append_left _ member, sequence, interval, before.trans due⟩

/-- The second batch comes late, and the third start is counted from there. -/
example : (Run.exec step start
      [.add 1 5 (.every 10) 1, .poll, .handleRead 7 true, .run, .ret, .reset 8,
        .handleRead 20 true, .run, .ret, .reset 21, .handleRead 29 false, .reset 29,
        .handleRead 30 true, .run]).toOption.map (fun h => h.starts.map TimerStart.now) =
    some [7, 20, 30] := by
  decide +kernel

end TimerHistory

end Rnet.Network
