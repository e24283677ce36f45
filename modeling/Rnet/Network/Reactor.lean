import Rnet.Lib.Blame
import Rnet.Network.PollerMirror

/-!
# The reactor

`EventLoop::Loop` over `Epoll::Poll` and `Channel::HandleEvent`: the loop polls, copies the
channels the kernel reports into `activeChannels_` and goes through them; each channel tests its
`revents_` and calls back into user code. That code may do what it likes with any channel, the
one that is being handled and those that wait behind it included: change what they watch, remove
them, destroy them, create others where they were.

All of this hangs on raw pointers: the kernel hands back the pointer it was given with the
descriptor, and `activeChannels_` keeps pointers to channels that are handled later. What stands
between a handler and a dangling pointer are the asserts of `RemoveChannel` and `~Channel`, and
for the channels of connections the guard of `HandleEvent`. `Sound` is what they protect.
-/
namespace Rnet.Network

open Check

/-- The callbacks of a channel. -/
inductive Callback where
  | close
  | error
  | read
  | write
  deriving DecidableEq, Repr

namespace Callback

/-- In the order of `HandleEventWithGuard`. -/
def all : List Callback := [.close, .error, .read, .write]

/-- The test of `HandleEventWithGuard` in front of a callback. -/
def due (revents : Events) : Callback → Bool
  | .close => Flags.has revents epollHup && !Flags.has revents epollIn
  | .error => Flags.has revents epollErr
  | .read => Flags.has revents (epollIn ||| epollPri ||| epollRdHup)
  | .write => Flags.has revents epollOut

end Callback

/-- A channel on the heap. -/
structure ChannelObject where
  channel : Channel
  /-- The callbacks that are set. -/
  callbacks : List Callback
  /-- Somebody besides `HandleEvent` refers to the owner of the channel. -/
  held : Bool
  deriving DecidableEq, Repr

def ChannelObject.setEventHandling (o : ChannelObject) (b : Bool) : ChannelObject :=
  { o with channel := { o.channel with eventHandling := b } }

abbrev ChannelHeap := ChannelId → Option ChannelObject

/-- A call of `HandleEvent`, with the callbacks it made. -/
structure Dispatch where
  addr : ChannelId
  revents : Events
  callbacks : List Callback
  called : List Callback
  deriving DecidableEq, Repr

/-- Where the loop thread is. -/
inductive ReactorPoint where
  /-- `Loop()` is not running. -/
  | outside
  | polling
  /-- In the loop over `activeChannels_`, between two channels. -/
  | between
  /-- In `HandleEventWithGuard`, in front of the tests that are left. -/
  | testing (tests : List Callback)
  /-- In a callback, with the tests that come after it. -/
  | calling (tests : List Callback)
  /-- In `DoPendingFunctors`. -/
  | functors
  deriving DecidableEq, Repr

inductive ReactorFault where
  | poller (f : PollerFault)
  /-- The first assert of `FillActiveChannels`. -/
  | fillActiveChannelsSize
  -- the asserts of `~Channel`
  | channelEventHandling
  | channelAddedToLoop
  | channelHasChannel
  /-- A pointer to a channel that is no more is used. -/
  | deadChannel
  deriving DecidableEq, Repr

/-- `kInitEventListSize` -/
def kInitEventListSize : Nat := 16

structure Reactor where
  point : ReactorPoint
  epoll : Epoll
  /-- The size of `events_`. -/
  eventListSize : Nat
  heap : ChannelHeap
  activeChannels : List ChannelId
  /-- The part of `activeChannels` the loop has not come to. -/
  waiting : List ChannelId
  currentActiveChannel : Option ChannelId
  eventHandling : Bool
  /-- `HandleEvent` holds the owner of the channel it is called for. -/
  guard : Bool
  -- The rest is history: no function reads it.
  /-- What the polls reported, in order. -/
  reported : List (ChannelId × Events)
  /-- The calls of `HandleEvent` that have returned. -/
  handled : List Dispatch
  /-- The call that is running. -/
  running : Option Dispatch
  /-- The largest number of events a poll returned. -/
  largest : Nat

/-- `HasChannel` -/
def Epoll.hasChannel (e : Epoll) (c : Channel) : Bool := e.channels c.fd == some c.addr

/-- The entry `epoll_wait` makes for a descriptor: the pointer it was registered with, and bits it
was asked to watch or always watches. -/
def Epoll.event (e : Epoll) (ready : Fd × Events) : Option (ChannelId × Events) :=
  match e.kernel ready.1 with
  | some (mask, ptr) =>
    if ready.2 ≠ 0#32 ∧ ready.2 &&& ~~~(mask ||| epollErr ||| epollHup) = 0#32 then some (ptr, ready.2) else none
  | none => none

/-- `epoll_wait(2)`: each descriptor is reported once, and not more of them than there is room for. -/
def Epoll.wait (e : Epoll) (maxEvents : Nat) (ready : List (Fd × Events)) : Option (List (ChannelId × Events)) :=
  if (ready.map Prod.fst).Nodup ∧ ready.length ≤ maxEvents then ready.mapM e.event else none

namespace ChannelHeap

/-- The loop of `FillActiveChannels`. -/
def fillActiveChannels (e : Epoll) : ChannelHeap → List (ChannelId × Events) → Comp ReactorFault ChannelHeap
  | heap, [] => return heap
  | heap, (ptr, revents) :: rest => do
    let object ← demand .deadChannel (heap ptr)
    let channel ← lift .poller (e.fillActiveChannel object.channel revents)
    fillActiveChannels e (Function.update heap ptr (some { object with channel := channel })) rest

end ChannelHeap

namespace Reactor

def start : Reactor where
  point := .outside
  epoll := Epoll.new
  eventListSize := kInitEventListSize
  heap _ := none
  activeChannels := []
  waiting := []
  currentActiveChannel := none
  eventHandling := false
  guard := false
  reported := []
  handled := []
  running := none
  largest := 0

def setObject (s : Reactor) (a : ChannelId) (object : ChannelObject) : Reactor :=
  { s with heap := Function.update s.heap a (some object) }

section

variable (s : Reactor) (a : ChannelId) (object : ChannelObject)

@[simp] theorem setObject_heap : (s.setObject a object).heap = Function.update s.heap a (some object) := rfl
@[simp] theorem setObject_waiting : (s.setObject a object).waiting = s.waiting := rfl
@[simp] theorem setObject_reported : (s.setObject a object).reported = s.reported := rfl
@[simp] theorem setObject_handled : (s.setObject a object).handled = s.handled := rfl
@[simp] theorem setObject_current : (s.setObject a object).currentActiveChannel = s.currentActiveChannel := rfl

end

/-! ### The loop -/

/-- `Poll`, from `activeChannels_.clear()` to `eventHandling_ = true`. -/
def poll (s : Reactor) (ready : List (Fd × Events)) : Comp ReactorFault Reactor := do
  require (s.point = .polling)
  let events ← given (s.epoll.wait s.eventListSize ready)
  ensure .fillActiveChannelsSize (events.length ≤ s.eventListSize)
  let heap ← s.heap.fillActiveChannels s.epoll events
  return { s with
    point := .between
    heap := heap
    activeChannels := events.map Prod.fst
    waiting := events.map Prod.fst
    -- an empty result leaves the list as it is: its size is never zero
    eventListSize := if events.length = s.eventListSize then s.eventListSize * 2 else s.eventListSize
    eventHandling := true
    reported := s.reported ++ events
    largest := max s.largest events.length }

/-- The entry of `HandleEvent` for the next channel. -/
def dispatch (s : Reactor) : Comp ReactorFault Reactor := do
  require (s.point = .between)
  match s.waiting with
  | [] => .error .disabled
  | a :: rest =>
    let object ← demand .deadChannel (s.heap a)
    let s := { s with waiting := rest, currentActiveChannel := some a }
    -- `tie_.lock()`: without an owner nothing is called
    if object.channel.tied = true ∧ object.held = false then return s
    return { s.setObject a (object.setEventHandling true) with
      point := .testing Callback.all
      guard := object.channel.tied
      running := some ⟨a, object.channel.revents, object.callbacks, []⟩ }

/-- `~Channel` -/
def destroy (s : Reactor) (a : ChannelId) (object : ChannelObject) : Comp ReactorFault Reactor := do
  ensure .channelEventHandling (object.channel.eventHandling = false)
  ensure .channelAddedToLoop (object.channel.addedToLoop = false)
  ensure .channelHasChannel (s.epoll.hasChannel object.channel = false)
  return { s with heap := Function.update s.heap a none }

/-- The end of `HandleEventWithGuard` and of `HandleEvent`, which gives its guard back. -/
def leave (s : Reactor) (a : ChannelId) (object : ChannelObject) : Comp ReactorFault Reactor := do
  let left := { s.setObject a (object.setEventHandling false) with
    point := .between
    guard := false
    handled := s.handled ++ s.running.toList
    running := none }
  -- the guard may have been the last reference to the owner
  if s.guard = true ∧ object.held = false then left.destroy a (object.setEventHandling false)
  else return left

/-- The next test of `HandleEventWithGuard`, or its end. -/
def proceed (s : Reactor) (a : ChannelId) (tests : List Callback) : Comp ReactorFault Reactor := do
  let object ← demand .deadChannel (s.heap a)
  match tests with
  | [] => s.leave a object
  | callback :: rest =>
    if callback.due object.channel.revents = true ∧ callback ∈ object.callbacks then
      return { s with
        point := .calling rest
        running := s.running.map fun d => { d with called := d.called ++ [callback] } }
    else return { s with point := .testing rest }

/-- The callback before has returned, or there was none. -/
def resume (s : Reactor) : Comp ReactorFault Reactor := do
  let a ← given s.currentActiveChannel
  match s.point with
  | .testing tests | .calling tests => s.proceed a tests
  | _ => .error .disabled

def endHandling (s : Reactor) : Comp ReactorFault Reactor := do
  require (s.point = .between ∧ s.waiting = [])
  return { s with point := .functors, currentActiveChannel := none, eventHandling := false }

/-! ### User code -/

/-- User code runs outside `Loop()`, in a callback or in a functor. -/
def userCode (s : Reactor) : Bool :=
  match s.point with
  | .outside | .calling _ | .functors => true
  | .polling | .between | .testing _ => false

/-- The assert of `EventLoop::RemoveChannel`. -/
def removable (s : Reactor) (a : ChannelId) : Bool :=
  !s.eventHandling || s.currentActiveChannel == some a || !s.activeChannels.contains a

def operation (s : Reactor) (a : ChannelId) (o : ChannelOperation) (c : Channel) :
    Comp PollerFault (Epoll × Channel) :=
  match o with
  | .remove => c.remove (s.removable a) s.epoll
  | o => o.apply c s.epoll

def operate (s : Reactor) (a : ChannelId) (o : ChannelOperation) : Comp ReactorFault Reactor := do
  require (s.userCode = true)
  let object ← given (s.heap a)
  let (epoll, channel) ← lift .poller (s.operation a o object.channel)
  return { s.setObject a { object with channel := channel } with epoll := epoll }

/-- A channel is allocated. Its address may be one that was used before. -/
def create (s : Reactor) (a : ChannelId) (fd : Fd) (callbacks : List Callback) : Comp ReactorFault Reactor := do
  require (s.userCode = true ∧ s.heap a = none)
  return s.setObject a ⟨Channel.new a fd, callbacks, true⟩

def tie (s : Reactor) (a : ChannelId) : Comp ReactorFault Reactor := do
  require (s.userCode = true)
  let object ← given (s.heap a)
  return s.setObject a { object with channel := { object.channel with tied := true } }

/-- The last reference to the owner of a channel, or to the channel itself, is given up. -/
def drop (s : Reactor) (a : ChannelId) : Comp ReactorFault Reactor := do
  require (s.userCode = true)
  let object ← given (s.heap a)
  require (object.held = true)
  if s.guard = true ∧ s.currentActiveChannel = some a then return s.setObject a { object with held := false }
  else s.destroy a object

inductive Action where
  -- the loop
  | enter
  | poll (ready : List (Fd × Events))
  | dispatch
  | resume
  | endHandling
  | iterate
  | exit
  -- user code
  | operate (a : ChannelId) (o : ChannelOperation)
  | create (a : ChannelId) (fd : Fd) (callbacks : List Callback)
  | tie (a : ChannelId)
  | drop (a : ChannelId)
  deriving DecidableEq, Repr

/-- The loop goes from one of its points to another. -/
def move (s : Reactor) (here there : ReactorPoint) : Comp ReactorFault Reactor := do
  require (s.point = here)
  return { s with point := there }

def step (s : Reactor) : Action → Comp ReactorFault Reactor
  | .enter => s.move .outside .polling
  | .poll ready => s.poll ready
  | .dispatch => s.dispatch
  | .resume => s.resume
  | .endHandling => s.endHandling
  | .iterate => s.move .functors .polling
  | .exit => s.move .functors .outside
  | .operate a o => s.operate a o
  | .create a fd callbacks => s.create a fd callbacks
  | .tie a => s.tie a
  | .drop a => s.drop a

end Reactor

/-! ### The heap and the poller -/

namespace ChannelHeap

variable {heap : ChannelHeap} {a : ChannelId} {object : ChannelObject}

theorem forall_update {P : ChannelId → ChannelObject → Prop} (here : P a object)
    (elsewhere : ∀ b o, b ≠ a → heap b = some o → P b o) :
    ∀ b o, Function.update heap a (some object) b = some o → P b o := by
  intro b o found
  by_cases same : b = a
  · subst same
    rw [Function.update_self] at found
    exact Option.some.inj found ▸ here
  · rw [Function.update_of_ne same] at found
    exact elsewhere b o same found

theorem forall_erase {P : ChannelId → ChannelObject → Prop} (elsewhere : ∀ b o, b ≠ a → heap b = some o → P b o) :
    ∀ b o, Function.update heap a none b = some o → P b o := by
  intro b o found
  by_cases same : b = a
  · rw [same, Function.update_self] at found
    cases found
  · rw [Function.update_of_ne same] at found
    exact elsewhere b o same found

end ChannelHeap

/-- The poller and the kernel list live channels only, as their indices say. A channel that is not
registered may share its descriptor with one that is. -/
structure Enrolled (e : Epoll) (heap : ChannelHeap) : Prop where
  addr : ∀ a o, heap a = some o → o.channel.addr = a
  added : ∀ a o, heap a = some o → (o.channel.addedToLoop = true ↔ o.channel.index ≠ .kNew)
  mirrors : ∀ a o, heap a = some o → o.channel.index ≠ .kNew → e.Mirrors o.channel
  owned : ∀ d a, e.channels d = some a → ∃ o, heap a = some o ∧ o.channel.fd = d ∧ o.channel.index ≠ .kNew
  unlisted : ∀ d, e.channels d = none → e.kernel d = none

namespace Enrolled

variable {e after : Epoll} {heap : ChannelHeap} {a : ChannelId} {object changed : ChannelObject}

theorem start : Enrolled Epoll.new (fun _ => none) where
  addr _ _ found := by cases found
  added _ _ found := by cases found
  mirrors _ _ found := by cases found
  owned _ _ found := by cases found
  unlisted _ _ := rfl

/-- The pointer the kernel keeps is the one of the channel registered for the descriptor. -/
theorem kernel_owned (registered : Enrolled e heap) {d : Fd} {mask : Events}
    (watched : e.kernel d = some (mask, a)) :
    ∃ o, heap a = some o ∧ o.channel.fd = d ∧ o.channel.index ≠ .kNew ∧ e.channels d = some a := by
  cases listed : e.channels d with
  | none => rw [registered.unlisted d listed] at watched; cases watched
  | some b =>
    obtain ⟨o, found, fd, index⟩ := registered.owned d b listed
    have kernel := (registered.mirrors b o found index).kernel
    rw [fd, watched] at kernel
    split at kernel
    · have same : a = b := by
        rw [← registered.addr b o found]
        exact (Prod.mk.inj (Option.some.inj kernel)).2
      subst same
      exact ⟨o, found, fd, index, rfl⟩
    · cases kernel

/-- The channel's own flags are nothing to the poller. -/
theorem unregarded (registered : Enrolled e heap) (found : heap a = some object)
    (same : ∃ revents tied handling, changed.channel =
      { object.channel with revents := revents, tied := tied, eventHandling := handling }) :
    Enrolled e (Function.update heap a (some changed)) := by
  obtain ⟨revents, tied, handling, channel⟩ := same
  constructor
  · refine ChannelHeap.forall_update ?_ fun b o _ => registered.addr b o
    rw [channel]
    exact registered.addr a object found
  · refine ChannelHeap.forall_update ?_ fun b o _ => registered.added b o
    rw [channel]
    exact registered.added a object found
  · refine ChannelHeap.forall_update ?_ fun b o _ => registered.mirrors b o
    rw [channel]
    intro index
    have mirrors := registered.mirrors a object found index
    exact ⟨mirrors.listed, mirrors.kernel⟩
  · intro d b listed
    obtain ⟨o, there, fd, index⟩ := registered.owned d b listed
    by_cases same : b = a
    · subst same
      obtain rfl : object = o := Option.some.inj (found.symm.trans there)
      refine ⟨changed, Function.update_self .., ?_, ?_⟩
      · rw [channel]; exact fd
      · rw [channel]; exact index
    · exact ⟨o, by rw [Function.update_of_ne same]; exact there, fd, index⟩
  · exact registered.unlisted

theorem create (registered : Enrolled e heap) (free : heap a = none) (fd : Fd) (callbacks : List Callback)
    (held : Bool) : Enrolled e (Function.update heap a (some ⟨Channel.new a fd, callbacks, held⟩)) := by
  constructor
  · exact ChannelHeap.forall_update rfl fun b o _ => registered.addr b o
  · exact ChannelHeap.forall_update (by simp [Channel.new]) fun b o _ => registered.added b o
  · exact ChannelHeap.forall_update (fun index => absurd rfl index) fun b o _ => registered.mirrors b o
  · intro d b listed
    obtain ⟨o, there, facts⟩ := registered.owned d b listed
    have other : b ≠ a := by
      rintro rfl
      rw [free] at there
      cases there
    exact ⟨o, by rw [Function.update_of_ne other]; exact there, facts⟩
  · exact registered.unlisted

/-- `~Channel` of a channel that is not registered. -/
theorem erase (registered : Enrolled e heap) (found : heap a = some object) (index : object.channel.index = .kNew) :
    Enrolled e (Function.update heap a none) := by
  constructor
  · exact ChannelHeap.forall_erase fun b o _ => registered.addr b o
  · exact ChannelHeap.forall_erase fun b o _ => registered.added b o
  · exact ChannelHeap.forall_erase fun b o _ => registered.mirrors b o
  · intro d b listed
    obtain ⟨o, there, fd, known⟩ := registered.owned d b listed
    have other : b ≠ a := by
      rintro rfl
      obtain rfl : object = o := Option.some.inj (found.symm.trans there)
      exact known index
    exact ⟨o, by rw [Function.update_of_ne other]; exact there, fd, known⟩
  · exact registered.unlisted

/-- An operation on a channel that had its descriptor to itself. -/
theorem operate (registered : Enrolled e heap) (found : heap a = some object) (mirrors : e.Mirrors object.channel)
    (changes : e.Changes object.channel after changed.channel)
    (added : changed.channel.addedToLoop = true ↔ changed.channel.index ≠ .kNew) :
    Enrolled after (Function.update heap a (some changed)) := by
  have addr := registered.addr a object found
  have listed := changes.mirrors.listed
  rw [changes.fd, changes.addr, addr] at listed
  constructor
  · refine ChannelHeap.forall_update ?_ fun b o _ => registered.addr b o
    rw [changes.addr, addr]
  · exact ChannelHeap.forall_update added fun b o _ => registered.added b o
  · refine ChannelHeap.forall_update (fun _ => changes.mirrors) fun b o other there index => ?_
    have before := registered.mirrors b o there index
    refine Poller.mirrors_elsewhere changes (fun shared => ?_) before
    -- two registered channels on one descriptor would both be the one `channels_` has
    have first := mirrors.listed
    have second := before.listed
    rw [if_neg index, registered.addr b o there, shared] at second
    rw [second, addr] at first
    split at first
    · cases first
    · exact other (Option.some.inj first)
  · intro d b entry
    by_cases own : d = object.channel.fd
    · subst own
      rw [listed] at entry
      split at entry
      next => cases entry
      next index =>
        obtain rfl : a = b := Option.some.inj entry
        exact ⟨changed, Function.update_self .., changes.fd, index⟩
    · rw [(changes.elsewhere d own).1] at entry
      obtain ⟨o, there, fd, index⟩ := registered.owned d b entry
      have other : b ≠ a := by
        rintro rfl
        obtain rfl : object = o := Option.some.inj (found.symm.trans there)
        exact own fd.symm
      exact ⟨o, by rw [Function.update_of_ne other]; exact there, fd, index⟩
  · intro d entry
    by_cases own : d = object.channel.fd
    · subst own
      rw [listed] at entry
      split at entry
      next new =>
        rw [← changes.fd, changes.mirrors.kernel, new]
        simp
      next => cases entry
    · rw [(changes.elsewhere d own).1] at entry
      rw [(changes.elsewhere d own).2]
      exact registered.unlisted d entry

end Enrolled

/-! ### A poll -/

namespace Enrolled

variable {e : Epoll} {heap : ChannelHeap}

theorem event_owned (registered : Enrolled e heap) {ready : Fd × Events} {event : ChannelId × Events}
    (reported : e.event ready = some event) :
    ∃ o, heap event.1 = some o ∧ o.channel.fd = ready.1 ∧ o.channel.index ≠ .kNew ∧
      e.channels ready.1 = some event.1 := by
  unfold Epoll.event at reported
  split at reported
  next mask ptr watched =>
    split at reported
    · obtain rfl := Option.some.inj reported
      exact registered.kernel_owned watched
    · cases reported
  next => cases reported

/-- Each pointer of the result is the one of a registered channel with the descriptor reported. -/
theorem events_owned (registered : Enrolled e heap) {ready : List (Fd × Events)}
    {events : List (ChannelId × Events)} (reported : ready.mapM e.event = some events) :
    events.map (fun r => (heap r.1).map (·.channel.fd)) = ready.map (some ∘ Prod.fst) ∧
    ∀ r ∈ events, ∃ o, heap r.1 = some o ∧ o.channel.index ≠ .kNew ∧ e.channels o.channel.fd = some r.1 := by
  induction ready generalizing events with
  | nil =>
    obtain rfl : [] = events := by simpa using reported
    simp
  | cons first rest ih =>
    simp only [List.mapM_cons, Option.pure_def, Option.bind_eq_bind, Option.bind_eq_some_iff,
      Option.some.injEq] at reported
    obtain ⟨event, head, tail, others, rfl⟩ := reported
    obtain ⟨fds, owned⟩ := ih others
    obtain ⟨o, found, fd, known, listed⟩ := registered.event_owned head
    constructor
    · simp [found, fd, fds]
    · intro r member
      rcases List.mem_cons.mp member with rfl | later
      · exact ⟨o, found, known, by rw [fd]; exact listed⟩
      · exact owned r later

theorem wait_owned (registered : Enrolled e heap) {ready : List (Fd × Events)} {size : Nat}
    {events : List (ChannelId × Events)} (reported : e.wait size ready = some events) :
    events.length ≤ size ∧ (events.map Prod.fst).Nodup ∧
    ∀ r ∈ events, ∃ o, heap r.1 = some o ∧ o.channel.index ≠ .kNew ∧ e.channels o.channel.fd = some r.1 := by
  unfold Epoll.wait at reported
  split at reported
  next allowed =>
    obtain ⟨fds, owned⟩ := registered.events_owned reported
    refine ⟨?_, ?_, owned⟩
    · have lengths := congrArg List.length fds
      simp only [List.length_map] at lengths
      omega
    · -- the descriptors differ, so the channels do
      refine List.Nodup.of_map (fun ptr => (heap ptr).map (·.channel.fd)) ?_
      rw [List.map_map]
      refine Eq.mpr (congrArg List.Nodup fds) ?_
      rw [← List.map_map]
      exact allowed.1.map (Option.some_injective _)
  next => cases reported

/-- `FillActiveChannels` sets `revents_` of each channel reported, and nothing else. -/
theorem fillActiveChannels_returns (registered : Enrolled e heap) (events : List (ChannelId × Events))
    (once : (events.map Prod.fst).Nodup)
    (ready : ∀ r ∈ events, ∃ o, heap r.1 = some o ∧ e.channels o.channel.fd = some r.1) :
    Returns (fun filled => Enrolled e filled ∧
      (∀ r ∈ events, ∃ o, heap r.1 = some o ∧
        filled r.1 = some { o with channel := { o.channel with revents := r.2 } }) ∧
      ∀ a ∉ events.map Prod.fst, filled a = heap a) (heap.fillActiveChannels e events) := by
  induction events generalizing heap with
  | nil => exact ⟨registered, by simp, fun _ _ => rfl⟩
  | cons event rest ih =>
    obtain ⟨ptr, revents⟩ := event
    obtain ⟨object, found, listed⟩ := ready (ptr, revents) List.mem_cons_self
    have addr := registered.addr ptr object found
    obtain ⟨fresh, later⟩ := List.nodup_cons.mp once
    -- the channels that come later are not the one at hand
    have apart {a : ChannelId} (member : a ∈ rest.map Prod.fst) : a ≠ ptr := fun same => fresh (same ▸ member)
    have set : Enrolled e (Function.update heap ptr
        (some { object with channel := { object.channel with revents := revents } })) :=
      registered.unregarded found ⟨revents, _, _, rfl⟩
    have filled := ih set later (fun r member => by
      obtain ⟨o, there, entry⟩ := ready r (List.mem_cons_of_mem _ member)
      exact ⟨o, by rw [Function.update_of_ne (apart (List.mem_map_of_mem member))]; exact there, entry⟩)
    simp only [ChannelHeap.fillActiveChannels, found, demand, Epoll.fillActiveChannel, returns_bind, returns_lift,
      returns_ensure, returns_pure, returns_ok]
    refine ⟨by simp [listed], by rw [listed, addr], filled.mono fun after facts => ?_⟩
    obtain ⟨registered', rest', others⟩ := facts
    refine ⟨registered', fun r member => ?_, fun a absent => ?_⟩
    · rcases List.mem_cons.mp member with rfl | later
      · exact ⟨object, found, by rw [others ptr fresh, Function.update_self]⟩
      · obtain ⟨o, there, result⟩ := rest' r later
        rw [Function.update_of_ne (apart (List.mem_map_of_mem later))] at there
        exact ⟨o, there, result⟩
    · simp only [List.map_cons, List.mem_cons, not_or] at absent
      rw [others a absent.2, Function.update_of_ne absent.1]

end Enrolled

/-! ### Operations of user code -/

/-- The asserts that guard the loop against user code. It removed a channel that watches something,
is not registered or waits to be handled; it registered two channels for one descriptor; it
destroyed a channel that is registered or being handled. -/
def ReactorFault.misuse : ReactorFault → Bool
  | .poller .channelRemoveNoneEvent | .poller .eventLoopRemoveChannel | .poller .updateChannelNewAbsent
  | .poller .removeChannelFound | .poller .removeChannelSame
  | .channelEventHandling | .channelAddedToLoop => true
  | _ => false

/-- What an operation that got through has done to its channel. -/
structure Reactor.Operated (s : Reactor) (a : ChannelId) (o : ChannelOperation) (c : Channel)
    (after : Epoll) (changed : Channel) : Prop where
  mirrors : s.epoll.Mirrors c
  changes : s.epoll.Changes c after changed
  added : changed.addedToLoop = true ↔ changed.index ≠ .kNew
  revents : changed.revents = c.revents
  eventHandling : changed.eventHandling = c.eventHandling
  removed : changed.index = .kNew → o = .remove ∧ s.removable a = true

namespace Enrolled

variable {s : Reactor} {a : ChannelId} {object : ChannelObject}

/-- A channel that is not registered has its descriptor to itself unless another one has it. -/
theorem mirrors_new (registered : Enrolled s.epoll s.heap) (new : object.channel.index = .kNew)
    (free : s.epoll.channels object.channel.fd = none) : s.epoll.Mirrors object.channel := by
  constructor
  · rw [new, free, if_pos rfl]
  · rw [new, registered.unlisted _ free, if_neg (by decide)]

theorem update_blames (registered : Enrolled s.epoll s.heap) (found : s.heap a = some object)
    {o : ChannelOperation} (update : o ≠ .remove) :
    Blames (fun f => (ReactorFault.poller f).misuse = true)
      (fun r => s.Operated a o object.channel r.1 r.2) (o.apply object.channel s.epoll) := by
  rw [ChannelOperation.apply_update update]
  by_cases taken : object.channel.index = .kNew ∧ s.epoll.channels object.channel.fd ≠ none
  · obtain ⟨new, listed⟩ := taken
    simp only [Channel.update, Epoll.updateChannel, new, blames_bind, blames_ensure]
    exact ⟨fun free => absurd free listed, fun _ => rfl⟩
  · have mirrors : s.epoll.Mirrors object.channel := by
      by_cases new : object.channel.index = .kNew
      · exact registered.mirrors_new new (by simpa [new] using taken)
      · exact registered.mirrors a object found new
    rw [(mirrors.tracks (o.mask object.channel)).update_eq, blames_ok]
    refine ⟨mirrors, ⟨rfl, rfl, s.epoll.afterUpdate_mirrors _, fun d other => ?_⟩, ?_, rfl, rfl, ?_⟩
    · simp [Epoll.afterUpdate, Function.update_of_ne other]
    · simp only [Channel.afterUpdate, true_iff]
      split <;> decide
    · simp only [Channel.afterUpdate]
      intro new
      split at new <;> cases new

theorem remove_blames (registered : Enrolled s.epoll s.heap) (found : s.heap a = some object) :
    Blames (fun f => (ReactorFault.poller f).misuse = true)
      (fun r => s.Operated a .remove object.channel r.1 r.2)
      (object.channel.remove (s.removable a) s.epoll) := by
  have addr := registered.addr a object found
  by_cases proper : object.channel.index ≠ .kNew ∧ object.channel.events = kNoneEvent ∧ s.removable a = true
  · obtain ⟨known, quiet, removable⟩ := proper
    have mirrors := registered.mirrors a object found known
    rw [removable, mirrors.remove_eq known quiet, blames_ok]
    refine ⟨mirrors, ⟨rfl, rfl, s.epoll.afterRemove_mirrors _, fun d other => ?_⟩, ?_, rfl, rfl, ?_⟩
    · simp [Epoll.afterRemove, Function.update_of_ne other]
    · simp [Channel.afterRemove]
    · exact fun _ => ⟨rfl, removable⟩
  · -- one of the asserts in front of the removal fails
    simp only [Channel.remove, Epoll.removeChannel, blames_bind, blames_ensure]
    refine ⟨fun quiet => ⟨fun removable => ⟨fun listed => ⟨fun same => ?_, fun _ => rfl⟩, fun _ => rfl⟩,
      fun _ => rfl⟩, fun _ => rfl⟩
    refine absurd ⟨?_, by simpa [Channel.isNoneEvent] using quiet, removable⟩ proper
    obtain ⟨o, there, _, known⟩ := registered.owned _ _ same
    rw [addr, found] at there
    exact Option.some.inj there ▸ known

theorem operation_blames (registered : Enrolled s.epoll s.heap) (found : s.heap a = some object)
    (o : ChannelOperation) :
    Blames (fun f => (ReactorFault.poller f).misuse = true)
      (fun r => s.Operated a o object.channel r.1 r.2) (s.operation a o object.channel) := by
  by_cases remove : o = .remove
  · subst remove
    exact registered.remove_blames found
  · have update : s.operation a o object.channel = o.apply object.channel s.epoll := by
      cases o <;> first | rfl | contradiction
    rw [update]
    exact registered.update_blames found remove

end Enrolled

end Rnet.Network
