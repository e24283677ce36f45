import Rnet.Network.Reactor

/-!
# The reactor uses no dangling pointer

`Sound` is what holds between the heap, the poller and the loop over `activeChannels_` in every
state. Its heart is `live`: a channel that waits to be handled exists and is registered. A handler
can take it from the poller only through `Remove()`, whose assert in `RemoveChannel` looks for it
in `activeChannels_`, and destroy it only after that, because of the asserts of `~Channel`. The
channel that is being handled is protected by `eventHandling_`, or by the guard if it is tied.

## Main result

`no_dead_channel`: whatever user code does, the loop never follows a pointer to a channel that is
gone, and the only asserts that can fail are those that tell user code of its mistake.
-/
namespace Rnet.Network

open Check

namespace Reactor

variable {s : Reactor} {a : ChannelId}

/-- `HandleEvent` is on the stack. -/
def inHandler (s : Reactor) : Bool :=
  match s.point with
  | .testing _ | .calling _ => true
  | .outside | .polling | .between | .functors => false

/-- The loop is in its loop over `activeChannels_`. -/
def dispatching (s : Reactor) : Bool :=
  match s.point with
  | .between | .testing _ | .calling _ => true
  | .outside | .polling | .functors => false

/-- `HandleEvent` of the channel is on the stack. -/
def Handles (s : Reactor) (a : ChannelId) : Prop := s.inHandler = true ∧ s.currentActiveChannel = some a

theorem not_handles_outside (out : s.inHandler = false) : ¬ s.Handles a := by
  rintro ⟨inside, _⟩
  exact absurd (out.symm.trans inside) Bool.false_ne_true

/-- Where the channels are, and what waits for the loop. -/
structure Placed (s : Reactor) : Prop extends Enrolled s.epoll s.heap where
  flag : s.eventHandling = s.dispatching
  quiet : s.dispatching = false → s.waiting = [] ∧ s.currentActiveChannel = none
  active : ∀ a ∈ s.waiting, a ∈ s.activeChannels
  once : s.waiting.Nodup
  passed : ∀ a, s.currentActiveChannel = some a → a ∉ s.waiting
  live : ∀ a ∈ s.waiting, ∃ o, s.heap a = some o ∧ o.channel.index ≠ .kNew
  current : s.inHandler = true → ∃ a o, s.currentActiveChannel = some a ∧ s.heap a = some o
  marked : ∀ a o, s.heap a = some o → (o.channel.eventHandling = true ↔ s.Handles a)
  guarded : s.guard = true → s.inHandler = true

/-- A channel exists as long as somebody refers to its owner; that may be `HandleEvent`. -/
structure Sound (s : Reactor) : Prop extends Placed s where
  held : ∀ a o, s.heap a = some o → o.held = true ∨ s.guard = true ∧ s.Handles a

theorem start_sound : Sound start where
  toEnrolled := Enrolled.start
  flag := rfl
  quiet _ := ⟨rfl, rfl⟩
  active _ member := absurd member List.not_mem_nil
  once := List.nodup_nil
  passed _ same := by cases same
  live _ member := absurd member List.not_mem_nil
  current inside := by cases inside
  marked _ _ found := by cases found
  held _ _ found := by cases found
  guarded guard := by cases guard

/-- Only checks that blame user code fail, and the result is sound. -/
abbrev Keeps (x : Comp ReactorFault Reactor) : Prop := Blames (fun f => f.misuse = true) Sound x

/-! ### `~Channel` -/

/-- It gets through only where nothing refers to the channel any more. -/
theorem Placed.destroy (placed : Placed s) {object : ChannelObject} (found : s.heap a = some object) :
    Blames (fun f => f.misuse = true)
      (fun t => Placed t ∧ a ∉ s.waiting ∧ ¬ s.Handles a ∧ t = { s with heap := Function.update s.heap a none })
      (s.destroy a object) := by
  simp only [Reactor.destroy, blames_bind, blames_ensure, blames_pure]
  refine ⟨fun idle => ⟨fun removed => ?_, fun _ => rfl⟩, fun _ => rfl⟩
  have new : object.channel.index = .kNew := by
    by_contra known
    rw [(placed.added a object found).mpr known] at removed
    cases removed
  have unhandled : ¬ s.Handles a := by
    rw [← placed.marked a object found, idle]
    exact Bool.false_ne_true
  have absent : a ∉ s.waiting := by
    intro member
    obtain ⟨o, there, known⟩ := placed.live a member
    exact known (Option.some.inj (found.symm.trans there) ▸ new)
  refine ⟨fun _ => ⟨?_, absent, unhandled, trivial⟩, fun listed => ?_⟩
  · refine { placed with
      toEnrolled := placed.toEnrolled.erase found new, live := ?_, current := ?_, marked := ?_ }
    · intro b member
      obtain ⟨o, there, known⟩ := placed.live b member
      have other : b ≠ a := fun same => absent (same ▸ member)
      exact ⟨o, (Function.update_of_ne other ..).trans there, known⟩
    · intro inside
      obtain ⟨b, o, same, there⟩ := placed.current inside
      have other : b ≠ a := by
        rintro rfl
        exact unhandled ⟨inside, same⟩
      exact ⟨b, o, same, (Function.update_of_ne other ..).trans there⟩
    · exact ChannelHeap.forall_erase fun b o _ => placed.marked b o
  · -- the map has no channel whose index is `kNew`
    refine absurd (Bool.eq_false_iff.mpr fun entry => ?_) listed
    obtain ⟨o, there, _, known⟩ := placed.owned _ _ (by simpa [Epoll.hasChannel] using entry)
    rw [placed.addr a object found, found] at there
    exact known (Option.some.inj there ▸ new)

namespace Sound

theorem not_handles (sound : Sound s) (unhandled : ¬ s.Handles a) {o : ChannelObject} (found : s.heap a = some o) :
    o.channel.eventHandling = false ∧ o.held = true := by
  constructor
  · rw [← Bool.not_eq_true, sound.marked a o found]
    exact unhandled
  · exact (sound.held a o found).resolve_right fun both => unhandled both.2

theorem idle (sound : Sound s) (outside : s.inHandler = false) {o : ChannelObject} (found : s.heap a = some o) :
    o.channel.eventHandling = false ∧ o.held = true :=
  sound.not_handles (not_handles_outside outside) found

theorem guard_false (sound : Sound s) (outside : s.inHandler = false) : s.guard = false := by
  rw [← Bool.not_eq_true]
  intro guard
  rw [sound.guarded guard] at outside
  cases outside

/-! ### The loop -/

/-- The points between which `move` goes all lie outside the loop over `activeChannels_`. -/
theorem move (sound : Sound s) {here there : ReactorPoint}
    (away : ({ s with point := here } : Reactor).dispatching = false)
    (away' : ({ s with point := there } : Reactor).dispatching = false) : Keeps (s.move here there) := by
  simp only [Keeps, Reactor.move, blames_bind, blames_require, blames_pure]
  rintro rfl
  have out : s.inHandler = false := by
    cases point : s.point <;> simp_all [inHandler, dispatching]
  have out' : ({ s with point := there } : Reactor).inHandler = false := by
    cases there <;> simp_all [inHandler, dispatching]
  refine { sound with
    flag := (sound.flag.trans away).trans away'.symm
    quiet := fun _ => sound.quiet away
    current := fun inside => absurd (out'.symm.trans inside) Bool.false_ne_true
    marked := fun a o found => ?_
    held := fun a o found => Or.inl (sound.idle out found).2
    guarded := fun guard => absurd ((sound.guard_false out).symm.trans guard) Bool.false_ne_true }
  rw [(sound.idle out found).1]
  simp [Handles, out']

theorem poll (sound : Sound s) (ready : List (Fd × Events)) : Keeps (s.poll ready) := by
  simp only [Keeps, Reactor.poll, blames_bind, blames_require, blames_given, blames_ensure]
  intro point events reported
  have out : s.inHandler = false := by simp [inHandler, point]
  have idle := sound.quiet (by simp [dispatching, point])
  obtain ⟨fits, once, owned⟩ := sound.toEnrolled.wait_owned reported
  refine ⟨fun _ => ?_, fun full => absurd fits full⟩
  have filled := sound.toEnrolled.fillActiveChannels_returns events once fun r member => by
    obtain ⟨o, found, _, listed⟩ := owned r member
    exact ⟨o, found, listed⟩
  refine filled.safe.blames.mono fun heap facts => ?_
  obtain ⟨registered, set, others⟩ := facts
  -- every object is the one that was there, but for its `revents_`
  have before (a : ChannelId) (o : ChannelObject) (found : heap a = some o) :
      o.channel.eventHandling = false ∧ o.held = true := by
    by_cases member : a ∈ events.map Prod.fst
    · obtain ⟨r, reportedHere, rfl⟩ := List.mem_map.mp member
      obtain ⟨old, there, result⟩ := set r reportedHere
      have kept := sound.idle out there
      rw [← Option.some.inj (result.symm.trans found)]
      exact kept
    · exact sound.idle out ((others a member).symm.trans found)
  rw [blames_pure]
  exact {
    toEnrolled := registered
    flag := rfl
    quiet := fun out => by cases out
    active := fun _ member => member
    once := once
    passed := fun a same => by cases idle.2.symm.trans same
    live := fun a member => by
      obtain ⟨r, reportedHere, rfl⟩ := List.mem_map.mp member
      obtain ⟨old, there, result⟩ := set r reportedHere
      obtain ⟨o, found, known, _⟩ := owned r reportedHere
      rw [Option.some.inj (found.symm.trans there)] at known
      exact ⟨_, result, known⟩
    current := fun inside => by cases inside
    marked := fun a o found => by
      rw [(before a o found).1]
      simp [Handles, inHandler]
    held := fun a o found => Or.inl (before a o found).2
    guarded := fun guard => absurd ((sound.guard_false out).symm.trans guard) Bool.false_ne_true }

theorem dispatch (sound : Sound s) : Keeps s.dispatch := by
  simp only [Keeps, Reactor.dispatch, blames_bind, blames_require]
  intro point
  have out : s.inHandler = false := by simp [inHandler, point]
  split
  next => trivial
  next a rest waiting =>
    obtain ⟨object, found, known⟩ := sound.live a (by rw [waiting]; exact List.mem_cons_self)
    have once := sound.once
    rw [waiting] at once
    obtain ⟨fresh, later⟩ := List.nodup_cons.mp once
    have held : object.held = true := (sound.idle out found).2
    simp only [found, demand, blames_bind, blames_ok, held]
    rw [if_neg (by simp), blames_pure]
    have still {b : ChannelId} (member : b ∈ rest) : b ∈ s.waiting := by
      rw [waiting]
      exact List.mem_cons_of_mem a member
    exact {
      toEnrolled := sound.toEnrolled.unregarded found ⟨_, _, true, rfl⟩
      flag := sound.flag.trans (by simp [dispatching, point])
      quiet := fun out => by cases out
      active := fun b member => sound.active b (still member)
      once := later
      passed := fun b same => Option.some.inj same ▸ fresh
      live := fun b member => by
        -- the channels that wait behind it are other ones
        have other : b ≠ a := fun same => fresh (same ▸ member)
        obtain ⟨o, there, index⟩ := sound.live b (still member)
        exact ⟨o, (Function.update_of_ne other ..).trans there, index⟩
      current := fun _ => ⟨a, _, rfl, Function.update_self ..⟩
      marked := ChannelHeap.forall_update (by simp [ChannelObject.setEventHandling, Handles, inHandler])
        fun b o other there => by
          rw [(sound.idle out there).1]
          simp [Handles, Ne.symm other]
      held := ChannelHeap.forall_update (Or.inl held) fun b o _ there => Or.inl (sound.idle out there).2
      guarded := fun _ => rfl }

theorem leave (sound : Sound s) {object : ChannelObject} (handles : s.Handles a) (found : s.heap a = some object) :
    Keeps (s.leave a object) := by
  have busy : s.dispatching = true := by
    have inside := handles.1
    cases point : s.point <;> simp_all [inHandler, dispatching]
  have elsewhere {b : ChannelId} {o : ChannelObject} (other : b ≠ a) (there : s.heap b = some o) :
      o.channel.eventHandling = false ∧ o.held = true :=
    sound.not_handles (fun same => other (Option.some.inj (same.2.symm.trans handles.2))) there
  -- what `HandleEventWithGuard` leaves; the owner may have lost its last user on the way
  have placed : Placed { s.setObject a (object.setEventHandling false) with
      point := .between, guard := false, handled := s.handled ++ s.running.toList, running := none } := {
    toEnrolled := sound.toEnrolled.unregarded found ⟨_, _, false, rfl⟩
    flag := sound.flag.trans busy
    quiet := fun out => by cases out
    active := sound.active
    once := sound.once
    passed := sound.passed
    live := fun b member => by
      have other : b ≠ a := fun same => sound.passed a handles.2 (same ▸ member)
      obtain ⟨o, there, known⟩ := sound.live b member
      exact ⟨o, (Function.update_of_ne other ..).trans there, known⟩
    current := fun inside => by cases inside
    marked := ChannelHeap.forall_update (by simp [ChannelObject.setEventHandling, Handles, inHandler])
      fun b o other there => by
        rw [(elsewhere other there).1]
        simp [Handles, inHandler]
    guarded := fun guard => by cases guard }
  simp only [Keeps, Reactor.leave]
  split
  next =>
    refine (placed.destroy (Function.update_self ..)).mono fun t destroyed => ?_
    obtain ⟨placed', _, _, rfl⟩ := destroyed
    refine { placed' with held := ?_ }
    simp only [setObject_heap, Function.update_idem]
    exact ChannelHeap.forall_erase fun b o other there => Or.inl (elsewhere other there).2
  next kept =>
    have held : object.held = true := by
      by_contra lost
      exact (sound.held a object found).elim lost fun both => kept ⟨both.1, by simpa using lost⟩
    rw [blames_pure]
    exact { placed with
      held := ChannelHeap.forall_update (Or.inl held) fun b o other there => Or.inl (elsewhere other there).2 }

/-- Within `HandleEvent` the loop goes from one test to the next. -/
theorem advance (sound : Sound s) (inside : s.inHandler = true) {there : ReactorPoint}
    (inside' : ({ s with point := there } : Reactor).inHandler = true) (running : Option Dispatch) :
    Sound { s with point := there, running := running } := by
  have busy : s.dispatching = true := by
    cases point : s.point <;> simp_all [inHandler, dispatching]
  have busy' : ({ s with point := there } : Reactor).dispatching = true := by
    cases there <;> simp_all [inHandler, dispatching]
  have same (a : ChannelId) : ({ s with point := there, running := running } : Reactor).Handles a ↔ s.Handles a := by
    constructor
    · exact fun handles => ⟨inside, handles.2⟩
    · exact fun handles => ⟨inside', handles.2⟩
  exact { sound with
    flag := (sound.flag.trans busy).trans busy'.symm
    quiet := fun out => absurd (out.symm.trans busy') Bool.false_ne_true
    current := fun _ => sound.current inside
    marked := fun a o found => (sound.marked a o found).trans (same a).symm
    held := fun a o found => (sound.held a o found).imp_right fun both => ⟨both.1, (same a).mpr both.2⟩
    guarded := fun _ => inside' }

theorem proceed (sound : Sound s) (handles : s.Handles a) (tests : List Callback) : Keeps (s.proceed a tests) := by
  obtain ⟨b, object, same, found⟩ := sound.current handles.1
  obtain rfl := Option.some.inj (handles.2.symm.trans same)
  simp only [Keeps, Reactor.proceed, found, demand, blames_bind, blames_ok]
  cases tests with
  | nil => exact sound.leave handles found
  | cons callback rest =>
    dsimp only
    split
    · exact sound.advance handles.1 rfl _
    · exact sound.advance handles.1 rfl s.running

theorem resume (sound : Sound s) : Keeps s.resume := by
  simp only [Keeps, Reactor.resume, blames_bind, blames_given]
  intro a current
  split
  next tests point => exact sound.proceed ⟨by simp [inHandler, point], current⟩ tests
  next tests point => exact sound.proceed ⟨by simp [inHandler, point], current⟩ tests
  next => trivial

theorem endHandling (sound : Sound s) : Keeps s.endHandling := by
  simp only [Keeps, Reactor.endHandling, blames_bind, blames_require, blames_pure]
  rintro ⟨point, finished⟩
  have out : s.inHandler = false := by simp [inHandler, point]
  exact { sound with
    flag := rfl
    quiet := fun _ => ⟨finished, rfl⟩
    passed := fun _ same => by cases same
    current := fun inside => by cases inside
    marked := fun a o found => by
      rw [(sound.idle out found).1]
      simp [Handles]
    held := fun a o found => Or.inl (sound.idle out found).2
    guarded := fun guard => absurd ((sound.guard_false out).symm.trans guard) Bool.false_ne_true }

/-! ### User code -/

/-- A channel is changed. If it waits it has to stay registered. -/
theorem change (sound : Sound s) {epoll : Epoll} {object changed : ChannelObject} (found : s.heap a = some object)
    (registered : Enrolled epoll (Function.update s.heap a (some changed)))
    (known : a ∈ s.waiting → changed.channel.index ≠ .kNew)
    (handling : changed.channel.eventHandling = object.channel.eventHandling)
    (held : changed.held = true ∨ s.guard = true ∧ s.Handles a) :
    Sound { s.setObject a changed with epoll := epoll } where
  toEnrolled := registered
  flag := sound.flag
  quiet := sound.quiet
  active := sound.active
  once := sound.once
  passed := sound.passed
  live b member := by
    obtain ⟨o, there, index⟩ := sound.live b member
    by_cases same : b = a
    · subst same
      exact ⟨changed, Function.update_self .., known member⟩
    · exact ⟨o, (Function.update_of_ne same ..).trans there, index⟩
  current inside := by
    obtain ⟨b, o, current, there⟩ := sound.current inside
    by_cases same : b = a
    · subst same
      exact ⟨b, changed, current, Function.update_self ..⟩
    · exact ⟨b, o, current, (Function.update_of_ne same ..).trans there⟩
  marked := ChannelHeap.forall_update (by rw [handling]; exact sound.marked a object found)
    fun b o _ => sound.marked b o
  held := ChannelHeap.forall_update held fun b o _ => sound.held b o
  guarded := sound.guarded

/-- The assert of `RemoveChannel` protects the channels that wait. -/
theorem removable (sound : Sound s) (removable : s.removable a = true) : a ∉ s.waiting := by
  intro member
  have busy : s.eventHandling = true := by
    rw [sound.flag, ← Bool.not_eq_false]
    intro out
    rw [(sound.quiet out).1] at member
    cases member
  have other : s.currentActiveChannel ≠ some a := fun same => sound.passed a same member
  simp [Reactor.removable, busy, other, sound.active a member] at removable

theorem operate (sound : Sound s) (o : ChannelOperation) : Keeps (s.operate a o) := by
  simp only [Keeps, Reactor.operate, blames_bind, blames_require, blames_given, blames_lift]
  intro _ object found
  refine (sound.toEnrolled.operation_blames found o).mono fun r operated => ?_
  rw [blames_pure]
  have registered : Enrolled r.1 (Function.update s.heap a (some { object with channel := r.2 })) :=
    sound.toEnrolled.operate found operated.mirrors operated.changes operated.added
  refine sound.change found registered ?_ operated.eventHandling (sound.held a object found)
  exact fun member new => sound.removable (operated.removed new).2 member

theorem create (sound : Sound s) (fd : Fd) (callbacks : List Callback) : Keeps (s.create a fd callbacks) := by
  simp only [Keeps, Reactor.create, blames_bind, blames_require, blames_pure]
  rintro ⟨_, free⟩
  -- nothing that exists is at a free address
  have other {b : ChannelId} {o : ChannelObject} (there : s.heap b = some o) : b ≠ a := by
    rintro rfl
    cases free.symm.trans there
  have unhandled : ¬ s.Handles a := by
    rintro ⟨inside, current⟩
    obtain ⟨b, o, same, there⟩ := sound.current inside
    exact other there (Option.some.inj (same.symm.trans current))
  exact { sound with
    toEnrolled := sound.toEnrolled.create free fd callbacks true
    live := fun b member => by
      obtain ⟨o, there, index⟩ := sound.live b member
      exact ⟨o, (Function.update_of_ne (other there) ..).trans there, index⟩
    current := fun inside => by
      obtain ⟨b, o, current, there⟩ := sound.current inside
      exact ⟨b, o, current, (Function.update_of_ne (other there) ..).trans there⟩
    marked := ChannelHeap.forall_update
      ⟨fun handling => absurd handling Bool.false_ne_true, fun handles => absurd handles unhandled⟩
      fun b o _ => sound.marked b o
    held := ChannelHeap.forall_update (Or.inl rfl) fun b o _ => sound.held b o }

theorem tie (sound : Sound s) : Keeps (s.tie a) := by
  simp only [Keeps, Reactor.tie, blames_bind, blames_require, blames_given, blames_pure]
  intro _ object found
  refine sound.change found (sound.toEnrolled.unregarded found ⟨_, true, _, rfl⟩) (fun member => ?_) rfl
    (sound.held a object found)
  obtain ⟨o, there, known⟩ := sound.live a member
  exact Option.some.inj (there.symm.trans found) ▸ known

theorem drop (sound : Sound s) : Keeps (s.drop a) := by
  simp only [Keeps, Reactor.drop, blames_bind, blames_require, blames_given]
  intro _ object found _
  split
  next guarded =>
    rw [blames_pure]
    refine sound.change found (sound.toEnrolled.unregarded found ⟨_, _, _, rfl⟩) (fun member => ?_) rfl
      (Or.inr ⟨guarded.1, sound.guarded guarded.1, guarded.2⟩)
    exact absurd member (sound.passed a guarded.2)
  next =>
    refine (sound.toPlaced.destroy found).mono fun t destroyed => ?_
    obtain ⟨placed, _, _, rfl⟩ := destroyed
    exact { placed with held := ChannelHeap.forall_erase fun b o _ => sound.held b o }

/-! ### Runs -/

theorem step (sound : Sound s) (act : Action) : Keeps (s.step act) := by
  cases act with
  | enter => exact sound.move rfl rfl
  | poll ready => exact sound.poll ready
  | dispatch => exact sound.dispatch
  | resume => exact sound.resume
  | endHandling => exact sound.endHandling
  | iterate => exact sound.move rfl rfl
  | exit => exact sound.move rfl rfl
  | operate a o => exact sound.operate o
  | create a fd callbacks => exact sound.create fd callbacks
  | tie a => exact sound.tie
  | drop a => exact sound.drop

end Sound

theorem exec_sound (acts : List Action) : Keeps (Run.exec step start acts) :=
  Run.exec_blames (fun _ act sound => sound.step act) start acts start_sound

/-- Two channels, both ready. The first has a callback. -/
def twoReady : List Action :=
  [.create 100 5 [.read], .create 200 6 [.read], .tie 100, .operate 100 .enableReading, .operate 200 .enableReading,
    .enter, .poll [(5, epollIn), (6, epollIn)], .dispatch, .resume, .resume, .resume]

/-- A handler that takes away a channel that waits behind it is stopped. -/
example : halt? (Run.exec step start (twoReady ++ [.operate 200 .disableAll, .operate 200 .remove])) =
    some (.fault (.poller .eventLoopRemoveChannel)) := by decide +kernel

/-- The assert compares addresses. A handler that creates a channel where one was handled before in
the same round, and removes it again, is stopped too, though it did nothing wrong. -/
example : halt? (Run.exec step start (twoReady ++ [.operate 100 .disableAll, .operate 100 .remove, .drop 100,
      .resume, .resume, .dispatch, .resume, .resume, .resume, .create 100 7 [.read], .operate 100 .enableReading,
      .operate 100 .disableAll, .operate 100 .remove])) =
    some (.fault (.poller .eventLoopRemoveChannel)) := by decide +kernel

end Reactor

end Rnet.Network
