import Rnet.Network.ReactorSafety

/-!
# What the reactor dispatches

The events the polls report are handled in the order of the reports, each once, and each call of
`HandleEvent` makes the callbacks its `revents_` ask for. User code that runs in between cannot
change this: `revents_` of a channel that waits is not its to change, and such a channel stays
where it is.

A channel that was removed hears nothing more until it is registered again, and the event list
grows with the busiest poll.
-/
namespace Rnet.Network

open Check

/-- The callbacks a call of `HandleEvent` has to make. -/
def Callback.asked (revents : Events) (callbacks tests : List Callback) : List Callback :=
  tests.filter fun c => c.due revents && decide (c ∈ callbacks)

def Dispatch.expected (d : Dispatch) : List Callback := Callback.asked d.revents d.callbacks Callback.all

def Dispatch.report (d : Dispatch) : ChannelId × Events := (d.addr, d.revents)

namespace Reactor

variable {s : Reactor} {a : ChannelId}

/-- What a channel has to be told. -/
def report (heap : ChannelHeap) (a : ChannelId) : ChannelId × Events :=
  (a, ((heap a).map (·.channel.revents)).getD 0#32)

/-- The tests that `HandleEventWithGuard` has still to make. -/
def tests (s : Reactor) : Option (List Callback) :=
  match s.point with
  | .testing tests | .calling tests => some tests
  | .outside | .polling | .between | .functors => none

/-- The call of `HandleEvent` on the stack has made the callbacks asked for by the tests behind it. -/
def UpTo (s : Reactor) (d : Dispatch) (left : List Callback) : Prop :=
  s.currentActiveChannel = some d.addr ∧
  (∃ o, s.heap d.addr = some o ∧ o.channel.revents = d.revents ∧ o.callbacks = d.callbacks) ∧
  ∃ made, Callback.all = made ++ left ∧ d.called = Callback.asked d.revents d.callbacks made

structure Exact (s : Reactor) : Prop where
  order : s.reported = s.handled.map Dispatch.report ++ s.running.toList.map Dispatch.report ++
    s.waiting.map (report s.heap)
  complete : ∀ d ∈ s.handled, d.called = d.expected
  idle : s.tests = none → s.running = none
  partway : ∀ left, s.tests = some left → ∃ d, s.running = some d ∧ s.UpTo d left

theorem start_exact : Exact start where
  order := rfl
  complete _ member := absurd member List.not_mem_nil
  idle _ := rfl
  partway _ testing := by cases testing

/-- What user code and `~Channel` must not touch: the events of the channels that wait, and of the
one that is being handled. -/
def Untouched (s : Reactor) (heap : ChannelHeap) : Prop :=
  ∀ b o, s.heap b = some o → b ∈ s.waiting ∨ s.Handles b →
    ∃ o', heap b = some o' ∧ o'.channel.revents = o.channel.revents ∧ o'.callbacks = o.callbacks

theorem inHandler_of_tests {left : List Callback} (testing : s.tests = some left) : s.inHandler = true := by
  cases point : s.point <;> simp_all [tests, inHandler]

theorem untouched_update {o changed : ChannelObject} (found : s.heap a = some o)
    (revents : changed.channel.revents = o.channel.revents) (callbacks : changed.callbacks = o.callbacks) :
    s.Untouched (Function.update s.heap a (some changed)) := by
  intro b other there _
  by_cases same : b = a
  · subst same
    obtain rfl := Option.some.inj (found.symm.trans there)
    exact ⟨changed, Function.update_self .., revents, callbacks⟩
  · exact ⟨other, (Function.update_of_ne same ..).trans there, rfl, rfl⟩

theorem untouched_elsewhere {value : Option ChannelObject} (absent : a ∉ s.waiting) (unhandled : ¬ s.Handles a) :
    s.Untouched (Function.update s.heap a value) := by
  intro b o there concerned
  have other : b ≠ a := by
    rintro rfl
    exact concerned.elim absent unhandled
  exact ⟨o, (Function.update_of_ne other ..).trans there, rfl, rfl⟩

namespace Exact

theorem reports (sound : Sound s) {heap : ChannelHeap} (untouched : s.Untouched heap) :
    s.waiting.map (report heap) = s.waiting.map (report s.heap) := by
  refine List.map_congr_left fun b member => ?_
  obtain ⟨o, found, _⟩ := sound.live b member
  obtain ⟨o', there, revents, _⟩ := untouched b o found (Or.inl member)
  simp [report, found, there, revents]

theorem change (precise : Exact s) (sound : Sound s) (epoll : Epoll) {heap : ChannelHeap}
    (untouched : s.Untouched heap) : Exact { s with epoll := epoll, heap := heap } where
  order := by rw [Exact.reports sound untouched]; exact precise.order
  complete := precise.complete
  idle := precise.idle
  partway left testing := by
    obtain ⟨d, running, current, ⟨o, found, revents, callbacks⟩, made⟩ := precise.partway left testing
    obtain ⟨o', there, revents', callbacks'⟩ :=
      untouched d.addr o found (Or.inr ⟨inHandler_of_tests testing, current⟩)
    exact ⟨d, running, current, ⟨o', there, revents'.trans revents, callbacks'.trans callbacks⟩, made⟩

/-! ### The loop -/

theorem move (precise : Exact s) {here there : ReactorPoint}
    (away : ({ s with point := here } : Reactor).tests = none)
    (away' : ({ s with point := there } : Reactor).tests = none) : Yields Exact (s.move here there) := by
  simp only [Reactor.move, yields_bind, yields_require, yields_pure]
  rintro rfl
  exact { precise with
    idle := fun _ => precise.idle away
    partway := fun left testing => by cases away'.symm.trans testing }

theorem poll (precise : Exact s) (sound : Sound s) (ready : List (Fd × Events)) : Yields Exact (s.poll ready) := by
  simp only [Reactor.poll, yields_bind, yields_require, yields_ensure]
  intro point events reported _
  rw [given_eq_ok] at reported
  obtain ⟨_, once, owned⟩ := sound.toEnrolled.wait_owned reported
  have filled := sound.toEnrolled.fillActiveChannels_returns events once fun r member => by
    obtain ⟨o, found, _, listed⟩ := owned r member
    exact ⟨o, found, listed⟩
  refine filled.safe.yields.mono fun heap facts => ?_
  obtain ⟨_, set, _⟩ := facts
  have idle : s.running = none := precise.idle (by simp [tests, point])
  have quiet := sound.quiet (by simp [dispatching, point])
  -- each channel reported has been told what was reported
  have told : (events.map Prod.fst).map (report heap) = events := by
    rw [List.map_map]
    refine (List.map_congr_left fun r member => ?_).trans (List.map_id events)
    obtain ⟨o, _, result⟩ := set r member
    simp [report, result]
  rw [yields_pure]
  refine { order := ?_, complete := precise.complete, idle := fun _ => idle, partway := ?_ }
  · have order := precise.order
    rw [quiet.1] at order
    simp only [idle, Option.toList_none, List.map_nil, List.append_nil] at order ⊢
    rw [told, ← order]
  · intro left testing
    cases testing

theorem dispatch (precise : Exact s) (sound : Sound s) : Yields Exact s.dispatch := by
  simp only [Reactor.dispatch, yields_bind, yields_require]
  intro point
  split
  next => exact yields_error Exact .disabled
  next a rest waiting =>
    simp only [yields_bind, yields_demand]
    intro object found
    have out : s.inHandler = false := by simp [inHandler, point]
    have held : object.held = true := (sound.idle out found).2
    have idle : s.running = none := precise.idle (by simp [tests, point])
    have fresh : a ∉ rest := by
      have once := sound.once
      rw [waiting] at once
      exact (List.nodup_cons.mp once).1
    simp only [held]
    rw [if_neg (by simp), yields_pure]
    refine { order := ?_, complete := precise.complete, idle := ?_, partway := ?_ }
    · have order := precise.order
      rw [waiting, idle] at order
      have others : rest.map (report (Function.update s.heap a (some (object.setEventHandling true)))) =
          rest.map (report s.heap) := by
        refine List.map_congr_left fun b member => ?_
        have other : b ≠ a := fun same => fresh (same ▸ member)
        simp [report, Function.update_of_ne other]
      simp only [setObject_heap, setObject_reported, setObject_handled, setObject_waiting]
      rw [others]
      simpa [report, found, Dispatch.report] using order
    · intro idle
      cases idle
    · intro left testing
      obtain rfl : Callback.all = left := Option.some.inj testing
      exact ⟨_, rfl, rfl, ⟨_, Function.update_self .., rfl, rfl⟩, [], rfl, rfl⟩

theorem leave (precise : Exact s) (sound : Sound s) {object : ChannelObject} (handles : s.Handles a)
    (finished : s.tests = some []) : Yields Exact (s.leave a object) := by
  obtain ⟨d, running, _, _, made, all, called⟩ := precise.partway [] finished
  have absent : a ∉ s.waiting := sound.passed a handles.2
  -- no channel that waits is the one that was handled
  have left (value : Option ChannelObject) :
      s.waiting.map (report (Function.update s.heap a value)) = s.waiting.map (report s.heap) := by
    refine List.map_congr_left fun b member => ?_
    have other : b ≠ a := fun same => absent (same ▸ member)
    simp [report, Function.update_of_ne other]
  have whole : d.called = d.expected := by
    rw [Dispatch.expected, called, all, List.append_nil]
  have exact' (value : Option ChannelObject) : Exact { s with
      heap := Function.update s.heap a value, point := .between, guard := false,
      handled := s.handled ++ s.running.toList, running := none } := {
    order := by
      simp only [left, running, List.map_append, Option.toList_none, List.map_nil, List.append_nil]
      have order := precise.order
      rw [running] at order
      exact order
    complete := fun e member => by
      rw [running] at member
      rcases List.mem_append.mp member with before | last
      · exact precise.complete e before
      · obtain rfl : e = d := by simpa using last
        exact whole
    idle := fun _ => rfl
    partway := fun _ testing => by cases testing }
  simp only [Reactor.leave]
  split
  next =>
    simp only [Reactor.destroy, yields_bind, yields_ensure, yields_pure]
    intro _ _ _
    simp only [setObject_heap, Function.update_idem]
    exact exact' none
  next => exact (yields_pure ..).mpr (exact' (some (object.setEventHandling false)))

theorem proceed (precise : Exact s) (sound : Sound s) (current : s.currentActiveChannel = some a)
    {tests : List Callback} (testing : s.tests = some tests) : Yields Exact (s.proceed a tests) := by
  simp only [Reactor.proceed, yields_bind, yields_demand]
  intro object found
  cases tests with
  | nil => exact precise.leave sound ⟨inHandler_of_tests testing, current⟩ testing
  | cons callback rest =>
    obtain ⟨d, running, same, ⟨o, there, revents, callbacks⟩, made, all, called⟩ :=
      precise.partway (callback :: rest) testing
    obtain rfl : a = d.addr := Option.some.inj (current.symm.trans same)
    obtain rfl : object = o := Option.some.inj (found.symm.trans there)
    have all' : Callback.all = (made ++ [callback]) ++ rest := by rw [all, List.append_assoc]; rfl
    rw [revents, callbacks]
    dsimp only
    split
    next due =>
      have order := precise.order
      rw [running] at order
      rw [yields_pure, running]
      refine { order := order, complete := precise.complete, idle := ?_, partway := ?_ }
      · intro idle
        cases idle
      · intro left testing
        obtain rfl : rest = left := Option.some.inj testing
        refine ⟨_, rfl, current, ⟨object, found, revents, callbacks⟩, made ++ [callback], all', ?_⟩
        simp [Callback.asked, called, due]
    next undue =>
      rw [yields_pure]
      refine { precise with idle := ?_, partway := ?_ }
      · intro idle
        cases idle
      · intro left testing
        obtain rfl : rest = left := Option.some.inj testing
        refine ⟨d, running, current, ⟨object, found, revents, callbacks⟩, made ++ [callback], all', ?_⟩
        have off : (callback.due d.revents && decide (callback ∈ d.callbacks)) = false := by
          simpa using undue
        simp [Callback.asked, called, off]

theorem resume (precise : Exact s) (sound : Sound s) : Yields Exact s.resume := by
  simp only [Reactor.resume, yields_bind]
  intro a current
  rw [given_eq_ok] at current
  split
  next tests point => exact precise.proceed sound current (by simp [Reactor.tests, point])
  next tests point => exact precise.proceed sound current (by simp [Reactor.tests, point])
  next => exact yields_error Exact .disabled

theorem endHandling (precise : Exact s) : Yields Exact s.endHandling := by
  simp only [Reactor.endHandling, yields_bind, yields_require, yields_pure]
  rintro ⟨point, _⟩
  exact { precise with
    idle := fun _ => precise.idle (by simp [tests, point])
    partway := fun _ testing => by cases testing }

/-! ### User code -/

theorem operate (precise : Exact s) (sound : Sound s) (o : ChannelOperation) : Yields Exact (s.operate a o) := by
  simp only [Reactor.operate, yields_bind, yields_require, yields_lift]
  intro _ object found r returned
  rw [given_eq_ok] at found
  have operated := (sound.toEnrolled.operation_blames found o).result returned
  exact (yields_pure ..).mpr (precise.change sound r.1 (untouched_update found operated.revents rfl))

theorem create (precise : Exact s) (sound : Sound s) (fd : Fd) (callbacks : List Callback) :
    Yields Exact (s.create a fd callbacks) := by
  simp only [Reactor.create, yields_bind, yields_require, yields_pure]
  rintro ⟨_, free⟩
  refine precise.change sound s.epoll fun b o there _ => ?_
  have other : b ≠ a := by
    rintro rfl
    cases free.symm.trans there
  exact ⟨o, (Function.update_of_ne other ..).trans there, rfl, rfl⟩

theorem tie (precise : Exact s) (sound : Sound s) : Yields Exact (s.tie a) := by
  simp only [Reactor.tie, yields_bind, yields_require, yields_pure]
  intro _ object found
  rw [given_eq_ok] at found
  exact precise.change sound s.epoll (untouched_update found rfl rfl)

theorem drop (precise : Exact s) (sound : Sound s) : Yields Exact (s.drop a) := by
  simp only [Reactor.drop, yields_bind, yields_require]
  intro _ object found _
  rw [given_eq_ok] at found
  split
  · exact (yields_pure ..).mpr (precise.change sound s.epoll (untouched_update found rfl rfl))
  · intro t returned
    obtain ⟨_, absent, unhandled, rfl⟩ := (sound.toPlaced.destroy found).result returned
    exact precise.change sound s.epoll (untouched_elsewhere absent unhandled)

theorem step (precise : Exact s) (sound : Sound s) (act : Action) : Yields Exact (s.step act) := by
  cases act with
  | enter => exact precise.move rfl rfl
  | poll ready => exact precise.poll sound ready
  | dispatch => exact precise.dispatch sound
  | resume => exact precise.resume sound
  | endHandling => exact precise.endHandling
  | iterate => exact precise.move rfl rfl
  | exit => exact precise.move rfl rfl
  | operate a o => exact precise.operate sound o
  | create a fd callbacks => exact precise.create sound fd callbacks
  | tie a => exact precise.tie sound
  | drop a => exact precise.drop sound

end Exact

/-! ### Runs -/

/-- Both invariants. -/
structure Kept (s : Reactor) : Prop where
  sound : Sound s
  precise : Exact s

theorem Kept.step (kept : Kept s) (act : Action) {t : Reactor} (taken : s.step act = .ok t) : Kept t :=
  ⟨(kept.sound.step act).result taken, kept.precise.step kept.sound act t taken⟩

theorem start_kept : Kept start := ⟨start_sound, start_exact⟩

theorem exec_kept {acts : List Action} (reached : Run.exec step start acts = .ok s) : Kept s :=
  Run.exec_keeps_all (fun _ act _ kept taken => kept.step act taken) start s acts start_kept reached

/-- In every run, with any user code in the callbacks and the functors: the calls of `HandleEvent`
are for the events the polls reported, in that order and each once; what is missing at the end is
the call that is running and the channels that wait. Every call that has returned has made
exactly the callbacks its events ask for, in the order close, error, read, write; the call that
is running has made the first of them. Between two rounds nothing is missing. -/
theorem dispatched_in_order (acts : List Action) (s : Reactor) (reached : Run.exec step start acts = .ok s) :
    s.reported = s.handled.map Dispatch.report ++ s.running.toList.map Dispatch.report ++
      s.waiting.map (report s.heap) ∧
    (∀ d ∈ s.handled, d.called = d.expected) ∧
    (∀ d ∈ s.running, d.called <+: d.expected) ∧
    (s.dispatching = false → s.reported = s.handled.map Dispatch.report) := by
  obtain ⟨sound, precise⟩ := exec_kept reached
  refine ⟨precise.order, precise.complete, fun d running => ?_, fun out => ?_⟩
  · cases testing : s.tests with
    | none =>
      rw [precise.idle testing] at running
      cases running
    | some left =>
      obtain ⟨e, same, _, _, made, all, called⟩ := precise.partway left testing
      obtain rfl : e = d := Option.some.inj (same.symm.trans running)
      refine ⟨Callback.asked e.revents e.callbacks left, ?_⟩
      rw [called, Dispatch.expected, Callback.asked, Callback.asked, ← List.filter_append, ← all]
      rfl
  · have idle : s.running = none := by
      refine precise.idle ?_
      cases point : s.point <;> simp_all [tests, dispatching]
    have order := precise.order
    rw [(sound.quiet out).1, idle] at order
    simpa using order

/-- Two channels report. The handler of the first removes and destroys its own channel, which is
tied, and creates another one for the descriptor; the second is handled after that. -/
def replacedInHandler : List Action :=
  [.create 100 5 [.read, .close], .create 200 6 [.read, .write], .tie 100, .operate 100 .enableReading,
    .operate 200 .enableWriting, .enter, .poll [(5, epollIn), (6, epollOut ||| epollErr)],
    .dispatch, .resume, .resume, .resume, .operate 100 .disableAll, .operate 100 .remove, .drop 100,
    .create 300 5 [.write], .operate 300 .enableWriting, .resume, .resume,
    .dispatch, .resume, .resume, .resume, .resume, .resume, .endHandling]

theorem dispatched_in_order_replaced :
    ∃ s, Run.exec step start replacedInHandler = .ok s ∧
      s.handled.map (fun d => (d.addr, d.called)) = [(100, [.read]), (200, [.write])] ∧
      s.reported = s.handled.map Dispatch.report := by
  have last : (Run.exec step start replacedInHandler).toOption.map (fun s =>
      (s.handled.map (fun d => (d.addr, d.called)), s.dispatching)) =
      some ([(100, [.read]), (200, [.write])], false) := by
    decide +kernel
  obtain ⟨s, reached, ended⟩ := returned_of_map last
  simp only [Prod.mk.injEq] at ended
  exact ⟨s, reached, ended.1, (dispatched_in_order replacedInHandler s reached).2.2.2 ended.2⟩

/-! ### Removed channels -/

/-- The channel is not in the poller, and its `HandleEvent` is not on the stack. -/
structure Silent (a : ChannelId) (s : Reactor) : Prop where
  removed : ∀ o, s.heap a = some o → o.channel.index = .kNew
  unhandled : ¬ s.Handles a

/-- The calls of `HandleEvent` for the channel that have returned. -/
def callsOf (a : ChannelId) (s : Reactor) : List Dispatch := s.handled.filter fun d => d.addr == a

/-- The channel is silent still, and was not called. -/
def StaysSilent (a : ChannelId) (s t : Reactor) : Prop := Silent a t ∧ callsOf a t = callsOf a s

/-- The action does not operate on the channel. -/
def Action.Spares (a : ChannelId) : Action → Prop
  | .operate b _ => b ≠ a
  | _ => True

instance (a : ChannelId) : ∀ act : Action, Decidable (act.Spares a)
  | .operate b _ => inferInstanceAs (Decidable (b ≠ a))
  | .enter | .poll _ | .dispatch | .resume | .endHandling | .iterate | .exit | .create .. | .tie _ | .drop _ =>
    inferInstanceAs (Decidable True)

namespace Silent

variable {b : ChannelId}

theorem not_waiting (silent : Silent a s) (sound : Sound s) : a ∉ s.waiting := by
  intro member
  obtain ⟨o, found, known⟩ := sound.live a member
  exact known (silent.removed o found)

/-- What happens to the heap is all that matters where the loop does not move. -/
theorem update (silent : Silent a s) {value : Option ChannelObject}
    (index : b = a → ∀ o, value = some o → o.channel.index = .kNew) :
    ∀ o, Function.update s.heap b value a = some o → o.channel.index = .kNew := by
  intro o found
  by_cases same : a = b
  · subst same
    rw [Function.update_self] at found
    exact index rfl o found
  · rw [Function.update_of_ne same] at found
    exact silent.removed o found

theorem poll (silent : Silent a s) (sound : Sound s) (ready : List (Fd × Events)) :
    Yields (StaysSilent a s) (s.poll ready) := by
  simp only [Reactor.poll, yields_bind, yields_require, yields_ensure]
  intro _ events reported _
  rw [given_eq_ok] at reported
  obtain ⟨_, once, owned⟩ := sound.toEnrolled.wait_owned reported
  have filled := sound.toEnrolled.fillActiveChannels_returns events once fun r member => by
    obtain ⟨o, found, _, listed⟩ := owned r member
    exact ⟨o, found, listed⟩
  refine filled.safe.yields.mono fun heap facts => ?_
  obtain ⟨_, _, others⟩ := facts
  -- the kernel does not have the channel
  have absent : a ∉ events.map Prod.fst := by
    intro member
    obtain ⟨r, reportedHere, rfl⟩ := List.mem_map.mp member
    obtain ⟨o, found, known, _⟩ := owned r reportedHere
    exact known (silent.removed o found)
  rw [yields_pure]
  exact ⟨⟨fun o found => silent.removed o ((others a absent).symm.trans found), not_handles_outside rfl⟩, rfl⟩

theorem dispatch (silent : Silent a s) (sound : Sound s) : Yields (StaysSilent a s) s.dispatch := by
  have absent := silent.not_waiting sound
  simp only [Reactor.dispatch, yields_bind, yields_require]
  intro point
  split
  next => exact yields_error _ .disabled
  next b rest waiting =>
    have other : b ≠ a := by
      rintro rfl
      rw [waiting] at absent
      exact absent List.mem_cons_self
    have out : s.inHandler = false := by simp [inHandler, point]
    simp only [yields_bind, yields_demand]
    intro object _
    split
    · exact (yields_pure ..).mpr ⟨⟨silent.removed, not_handles_outside out⟩, rfl⟩
    · rw [yields_pure]
      refine ⟨⟨silent.update fun same => absurd same other, ?_⟩, rfl⟩
      rintro ⟨_, current⟩
      exact other (Option.some.inj current)

theorem leave (silent : Silent a s) (precise : Exact s) {object : ChannelObject} (handles : s.Handles b)
    (finished : s.tests = some []) : Yields (StaysSilent a s) (s.leave b object) := by
  have other : b ≠ a := by
    rintro rfl
    exact silent.unhandled handles
  -- the call that has returned was for the channel on the stack
  obtain ⟨d, running, current, _⟩ := precise.partway [] finished
  have elsewhere : (d.addr == a) = false := by
    rw [← Option.some.inj (handles.2.symm.trans current)]
    simpa using other
  have calls : (s.handled ++ s.running.toList).filter (fun d => d.addr == a) = callsOf a s := by
    rw [running]
    simp [callsOf, elsewhere]
  simp only [Reactor.leave]
  split
  · simp only [Reactor.destroy, yields_bind, yields_ensure, yields_pure]
    intro _ _ _
    simp only [setObject_heap, Function.update_idem]
    exact ⟨⟨silent.update fun same => absurd same other, not_handles_outside rfl⟩, calls⟩
  · rw [yields_pure]
    exact ⟨⟨silent.update fun same => absurd same other, not_handles_outside rfl⟩, calls⟩

theorem resume (silent : Silent a s) (precise : Exact s) : Yields (StaysSilent a s) s.resume := by
  have proceed {b : ChannelId} {tests : List Callback} (current : s.currentActiveChannel = some b)
      (testing : s.tests = some tests) : Yields (StaysSilent a s) (s.proceed b tests) := by
    have handles : s.Handles b := ⟨inHandler_of_tests testing, current⟩
    have other : s.currentActiveChannel ≠ some a := fun same => silent.unhandled ⟨handles.1, same⟩
    simp only [Reactor.proceed, yields_bind, yields_demand]
    intro object _
    cases tests with
    | nil => exact silent.leave precise handles testing
    | cons callback rest =>
      dsimp only
      split
      · exact (yields_pure ..).mpr ⟨⟨silent.removed, fun both => other both.2⟩, rfl⟩
      · exact (yields_pure ..).mpr ⟨⟨silent.removed, fun both => other both.2⟩, rfl⟩
  simp only [Reactor.resume, yields_bind]
  intro b current
  rw [given_eq_ok] at current
  split
  next tests point => exact proceed current (by simp [Reactor.tests, point])
  next tests point => exact proceed current (by simp [Reactor.tests, point])
  next => exact yields_error _ .disabled

theorem move (silent : Silent a s) {here there : ReactorPoint}
    (away : ({ s with point := there } : Reactor).inHandler = false) :
    Yields (StaysSilent a s) (s.move here there) := by
  simp only [Reactor.move, yields_bind, yields_require, yields_pure]
  rintro rfl
  exact ⟨⟨silent.removed, not_handles_outside away⟩, rfl⟩

theorem endHandling (silent : Silent a s) : Yields (StaysSilent a s) s.endHandling := by
  simp only [Reactor.endHandling, yields_bind, yields_require, yields_pure]
  intro _
  exact ⟨⟨silent.removed, not_handles_outside rfl⟩, rfl⟩

theorem drop (silent : Silent a s) : Yields (StaysSilent a s) (s.drop b) := by
  simp only [Reactor.drop, yields_bind, yields_require]
  intro _ object found _
  rw [given_eq_ok] at found
  split
  · rw [yields_pure]
    refine ⟨⟨silent.update fun same o dropped => ?_, silent.unhandled⟩, rfl⟩
    rw [← Option.some.inj dropped]
    exact silent.removed object (same ▸ found)
  · simp only [Reactor.destroy, yields_bind, yields_ensure, yields_pure]
    intro _ _ _
    exact ⟨⟨silent.update fun _ _ gone => absurd gone (by simp), silent.unhandled⟩, rfl⟩

theorem step (silent : Silent a s) (kept : Kept s) {act : Action} (spares : act.Spares a) :
    Yields (StaysSilent a s) (s.step act) := by
  cases act with
  | enter => exact silent.move rfl
  | poll ready => exact silent.poll kept.sound ready
  | dispatch => exact silent.dispatch kept.sound
  | resume => exact silent.resume kept.precise
  | endHandling => exact silent.endHandling
  | iterate => exact silent.move rfl
  | exit => exact silent.move rfl
  | operate b o =>
    simp only [Reactor.step, Reactor.operate, yields_bind, yields_require, yields_lift]
    intro _ object _ r _
    exact (yields_pure ..).mpr ⟨⟨silent.update fun same => absurd same spares, silent.unhandled⟩, rfl⟩
  | create b fd callbacks =>
    simp only [Reactor.step, Reactor.create, yields_bind, yields_require, yields_pure]
    intro _
    refine ⟨⟨silent.update fun _ o created => ?_, silent.unhandled⟩, rfl⟩
    rw [← Option.some.inj created]
    rfl
  | tie b =>
    simp only [Reactor.step, Reactor.tie, yields_bind, yields_require, yields_pure]
    intro _ object found
    rw [given_eq_ok] at found
    refine ⟨⟨silent.update fun same o tied => ?_, silent.unhandled⟩, rfl⟩
    rw [← Option.some.inj tied]
    exact silent.removed object (same ▸ found)
  | drop b => exact silent.drop

end Silent

/-- Once a channel is out of the poller and not being handled, its callbacks are not called, in
whatever run follows, as long as nobody operates on it: not if it still stood in `activeChannels_`,
and not if its descriptor has been given to another channel. -/
theorem removed_silent (before after : List Action) (a : ChannelId) (s t : Reactor)
    (reached : Run.exec step start before = .ok s)
    (removed : ∀ o, s.heap a = some o → o.channel.index = .kNew) (unhandled : ¬ s.Handles a)
    (spares : ∀ act ∈ after, act.Spares a) (went : Run.exec step s after = .ok t) :
    callsOf a t = callsOf a s ∧ ¬ t.Handles a := by
  have kept : Kept s := exec_kept reached
  have preserved (u : Reactor) (act : Action) (v : Reactor) (inv : Kept u ∧ StaysSilent a s u)
      (allowed : act.Spares a) (taken : u.step act = .ok v) : Kept v ∧ StaysSilent a s v := by
    obtain ⟨kept, silent, calls⟩ := inv
    obtain ⟨silent', calls'⟩ := silent.step kept allowed v taken
    exact ⟨kept.step act taken, silent', calls'.trans calls⟩
  have invariant : Kept t ∧ StaysSilent a s t :=
    Run.exec_keeps preserved s t after ⟨kept, ⟨removed, unhandled⟩, rfl⟩
      (Run.meets_of_forall s after fun _ => spares) went
  exact ⟨invariant.2.2, invariant.2.1.unhandled⟩

/-- The channel whose handler removed and replaced it is not called in the next round, though the
kernel reports its descriptor. -/
def nextRound : List Action :=
  [.iterate, .poll [(5, epollOut)], .dispatch, .resume, .resume, .resume, .resume, .resume]

theorem removed_silent_replaced :
    ∃ s t, Run.exec step start replacedInHandler = .ok s ∧ Run.exec step s nextRound = .ok t ∧
      callsOf 100 t = callsOf 100 s ∧ (callsOf 300 t).length = 1 := by
  have last : (Run.exec step start replacedInHandler).toOption.map (fun s =>
      ((s.heap 100).isSome, s.inHandler, (Run.exec step s nextRound).toOption.map fun t => (callsOf 300 t).length)) =
      some (false, false, some 1) := by
    decide +kernel
  obtain ⟨s, reached, ended⟩ := returned_of_map last
  simp only [Prod.mk.injEq] at ended
  obtain ⟨gone, out, went⟩ := ended
  obtain ⟨t, went, calls⟩ := returned_of_map went
  refine ⟨s, t, reached, went, ?_, calls⟩
  refine (removed_silent replacedInHandler nextRound 100 s t reached (fun o found => ?_) (not_handles_outside out)
    (by decide) went).1
  rw [found] at gone
  cases gone

/-! ### The size of the event list -/

/-- `events_` starts with sixteen entries and doubles when a poll fills it. -/
structure Grown (s : Reactor) : Prop where
  doubled : ∃ n, s.eventListSize = kInitEventListSize * 2 ^ n
  fits : s.largest ≤ s.eventListSize
  needed : s.eventListSize = kInitEventListSize ∨ s.eventListSize ≤ 2 * s.largest

theorem start_grown : Grown start := ⟨⟨0, rfl⟩, by decide, Or.inl rfl⟩

/-- Nothing but a poll touches the list. -/
def SameList (s t : Reactor) : Prop := t.eventListSize = s.eventListSize ∧ t.largest = s.largest

theorem destroy_sameList (object : ChannelObject) : Yields (SameList s) (s.destroy a object) := by
  simp only [Reactor.destroy, yields_bind, yields_ensure, yields_pure]
  exact fun _ _ _ => ⟨rfl, rfl⟩

theorem leave_sameList (object : ChannelObject) : Yields (SameList s) (s.leave a object) := by
  simp only [Reactor.leave]
  split
  · exact (destroy_sameList _).mono fun _ same => same
  · exact (yields_pure ..).mpr ⟨rfl, rfl⟩

theorem resume_sameList : Yields (SameList s) s.resume := by
  have proceed (b : ChannelId) (tests : List Callback) : Yields (SameList s) (s.proceed b tests) := by
    simp only [Reactor.proceed, yields_bind, yields_demand]
    intro object _
    cases tests with
    | nil => exact leave_sameList object
    | cons callback rest =>
      dsimp only
      split <;> exact (yields_pure ..).mpr ⟨rfl, rfl⟩
  simp only [Reactor.resume, yields_bind]
  intro b _
  split
  · exact proceed b _
  · exact proceed b _
  · exact yields_error _ .disabled

theorem step_sameList {act : Action} (other : ∀ ready, act ≠ .poll ready) : Yields (SameList s) (s.step act) := by
  cases act with
  | poll ready => exact absurd rfl (other ready)
  | enter | iterate | exit | endHandling =>
    simp only [Reactor.step, Reactor.move, Reactor.endHandling, yields_bind, yields_require, yields_pure]
    exact fun _ => ⟨rfl, rfl⟩
  | dispatch =>
    simp only [Reactor.step, Reactor.dispatch, yields_bind, yields_require]
    intro _
    split
    · exact yields_error _ .disabled
    · simp only [yields_bind, yields_demand]
      intro object _
      split <;> exact (yields_pure ..).mpr ⟨rfl, rfl⟩
  | resume => exact resume_sameList
  | operate a o =>
    simp only [Reactor.step, Reactor.operate, yields_bind, yields_require, yields_lift, yields_pure]
    exact fun _ _ _ _ _ => ⟨rfl, rfl⟩
  | create a fd callbacks =>
    simp only [Reactor.step, Reactor.create, yields_bind, yields_require, yields_pure]
    exact fun _ => ⟨rfl, rfl⟩
  | tie a =>
    simp only [Reactor.step, Reactor.tie, yields_bind, yields_require, yields_pure]
    exact fun _ _ _ => ⟨rfl, rfl⟩
  | drop a =>
    simp only [Reactor.step, Reactor.drop, yields_bind, yields_require]
    intro _ object _ _
    split
    · exact (yields_pure ..).mpr ⟨rfl, rfl⟩
    · exact destroy_sameList object

theorem Grown.poll (grown : Grown s) (ready : List (Fd × Events)) : Yields Grown (s.poll ready) := by
  simp only [Reactor.poll, yields_bind, yields_require, yields_ensure, yields_pure]
  intro _ events reported fits heap _
  obtain ⟨⟨n, doubled⟩, room, needed⟩ := grown
  split
  next full =>
    refine ⟨⟨n + 1, ?_⟩, ?_, Or.inr ?_⟩
    · rw [doubled, Nat.pow_succ, Nat.mul_assoc]
    · simp only
      omega
    · simp only
      omega
  next =>
    refine ⟨⟨n, doubled⟩, ?_, needed.imp_right fun bound => ?_⟩
    · simp only
      omega
    · simp only
      omega

theorem Grown.step (grown : Grown s) (act : Action) : Yields Grown (s.step act) := by
  by_cases polls : ∃ ready, act = .poll ready
  · obtain ⟨ready, rfl⟩ := polls
    exact grown.poll ready
  · refine (step_sameList fun ready same => polls ⟨ready, same⟩).mono fun t same => ?_
    obtain ⟨doubled, fits, needed⟩ := grown
    rw [← same.1] at doubled
    rw [← same.1, ← same.2] at fits needed
    exact ⟨doubled, fits, needed⟩

/-- In every run: the event list has sixteen entries times a power of two, has had room for every
poll, and is never longer than twice the busiest poll asked for. -/
theorem event_list_bounded (acts : List Action) (s : Reactor) (reached : Run.exec step start acts = .ok s) :
    (∃ n, s.eventListSize = kInitEventListSize * 2 ^ n) ∧ s.largest ≤ s.eventListSize ∧
    s.eventListSize ≤ max kInitEventListSize (2 * s.largest) := by
  obtain ⟨doubled, fits, needed⟩ := Run.exec_keeps_all (fun _ act _ grown taken => Grown.step grown act _ taken)
    start s acts start_grown reached
  refine ⟨doubled, fits, ?_⟩
  rcases needed with first | bound
  · exact first.le.trans (le_max_left ..)
  · exact bound.trans (le_max_right ..)

/-- Sixteen channels are registered, and all are ready at once. -/
def sixteenReady : List Action :=
  (List.range 16).flatMap (fun i => [.create (100 + i) i [.read], .operate (100 + i) .enableReading]) ++
    [.enter, .poll ((List.range 16).map fun i => (i, epollIn))]

theorem event_list_bounded_sixteen :
    ∃ s, Run.exec step start sixteenReady = .ok s ∧ s.eventListSize = 32 ∧
      s.eventListSize ≤ max kInitEventListSize (2 * s.largest) := by
  have last : (Run.exec step start sixteenReady).toOption.map (fun s => s.eventListSize) = some 32 := by
    decide +kernel
  obtain ⟨s, reached, ended⟩ := returned_of_map last
  exact ⟨s, reached, ended, (event_list_bounded sixteenReady s reached).2.2⟩

end Reactor

end Rnet.Network
