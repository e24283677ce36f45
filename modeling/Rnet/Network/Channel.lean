import Rnet.Lib.Check
import Rnet.Lib.Flags

/-!
# Channels and the poller

`rnet::network::Channel` and `rnet::network::Epoll`. What epoll is asked to watch is recorded
three times: in the map `channels_`, in the index of each channel and in the kernel. `Mirrors`
says that the three agree about one channel, and the two operations of the poller keep it.
-/
namespace Rnet.Network

open Check

abbrev Fd := Nat

/-- A `Channel*`. -/
abbrev ChannelId := Nat

/-- The words `events_` and `revents_`. -/
abbrev Events := BitVec 32

def epollIn : Events := 0x001#32
def epollPri : Events := 0x002#32
def epollOut : Events := 0x004#32
def epollErr : Events := 0x008#32
def epollHup : Events := 0x010#32
def epollRdHup : Events := 0x2000#32

def kNoneEvent : Events := 0#32
def kReadEvent : Events := epollIn ||| epollPri
def kWriteEvent : Events := epollOut

/-- The index the poller keeps in a channel. -/
inductive ChannelIndex where
  | kNew
  | kAdded
  | kDeleted
  deriving DecidableEq, Repr

structure Channel where
  addr : ChannelId
  fd : Fd
  events : Events
  revents : Events
  index : ChannelIndex
  tied : Bool
  eventHandling : Bool
  addedToLoop : Bool
  deriving DecidableEq, Repr

inductive EpollOperation where
  | add
  | mod
  | del
  deriving DecidableEq, Repr

/-- The asserts on the way to the kernel, each named after the function it stands in, and the
`LOG_SYSFATAL` of `Epoll::Update`. -/
inductive PollerFault where
  | channelRemoveNoneEvent
  | eventLoopRemoveChannel
  | updateChannelNewAbsent
  | updateChannelDeletedFound
  | updateChannelDeletedSame
  | updateChannelAddedFound
  | updateChannelAddedSame
  | updateChannelAddedIndex
  | removeChannelFound
  | removeChannelSame
  | removeChannelNoneEvent
  | removeChannelIndex
  | removeChannelErased
  | fillActiveChannelsFound
  | fillActiveChannelsSame
  | epollCtl (operation : EpollOperation)
  deriving DecidableEq, Repr

/-- The poller, and the set the kernel keeps for its `epollfd_`. -/
structure Epoll where
  channels : Fd → Option ChannelId
  kernel : Fd → Option (Events × ChannelId)

namespace Channel

def new (addr : ChannelId) (fd : Fd) : Channel :=
  ⟨addr, fd, kNoneEvent, kNoneEvent, .kNew, false, false, false⟩

def isNoneEvent (c : Channel) : Bool := c.events == kNoneEvent
def isWriting (c : Channel) : Bool := Flags.has c.events kWriteEvent
def isReading (c : Channel) : Bool := Flags.has c.events kReadEvent

/-- `EPOLLHUP` without `EPOLLIN`, which `HandleEventWithGuard` takes for a close. -/
def hungUp (c : Channel) : Bool := Flags.has c.revents epollHup && !Flags.has c.revents epollIn

/-- The events for which `HandleEventWithGuard` calls the read callback. -/
def readable (c : Channel) : Bool := Flags.has c.revents (epollIn ||| epollPri ||| epollRdHup)

end Channel

namespace Epoll

def new : Epoll := ⟨fun _ => none, fun _ => none⟩

/-- `epoll_ctl(2)`: adding a descriptor that is there and changing or deleting one that is not
are errors. -/
def ctl (e : Epoll) (operation : EpollOperation) (c : Channel) : Option Epoll :=
  match operation, e.kernel c.fd with
  | .add, none | .mod, some _ =>
    some { e with kernel := Function.update e.kernel c.fd (some (c.events, c.addr)) }
  | .del, some _ => some { e with kernel := Function.update e.kernel c.fd none }
  | .add, some _ | .mod, none | .del, none => none

/-- A failed deletion is only logged. -/
def update (e : Epoll) (operation : EpollOperation) (c : Channel) : Comp PollerFault Epoll :=
  match e.ctl operation c with
  | some after => return after
  | none => if operation = .del then return e else .error (.fault (.epollCtl operation))

def updateChannel (e : Epoll) (c : Channel) : Comp PollerFault (Epoll × Channel) :=
  match c.index with
  | .kNew => do
    ensure .updateChannelNewAbsent (e.channels c.fd = none)
    let listed := { e with channels := Function.update e.channels c.fd (some c.addr) }
    let added := { c with index := .kAdded }
    return (← listed.update .add added, added)
  | .kDeleted => do
    ensure .updateChannelDeletedFound (e.channels c.fd ≠ none)
    ensure .updateChannelDeletedSame (e.channels c.fd = some c.addr)
    let added := { c with index := .kAdded }
    return (← e.update .add added, added)
  | .kAdded => do
    ensure .updateChannelAddedFound (e.channels c.fd ≠ none)
    ensure .updateChannelAddedSame (e.channels c.fd = some c.addr)
    ensure .updateChannelAddedIndex (c.index = .kAdded)
    if c.isNoneEvent then
      return (← e.update .del c, { c with index := .kDeleted })
    else
      return (← e.update .mod c, c)

def removeChannel (e : Epoll) (c : Channel) : Comp PollerFault (Epoll × Channel) := do
  ensure .removeChannelFound (e.channels c.fd ≠ none)
  ensure .removeChannelSame (e.channels c.fd = some c.addr)
  ensure .removeChannelNoneEvent (c.isNoneEvent = true)
  ensure .removeChannelIndex (c.index = .kAdded ∨ c.index = .kDeleted)
  ensure .removeChannelErased (e.channels c.fd ≠ none)
  let erased := { e with channels := Function.update e.channels c.fd none }
  let after ← if c.index = .kAdded then erased.update .del c else pure erased
  return (after, { c with index := .kNew })

/-- What `epoll_wait` may report of the channel: bits it was asked to watch, and the two it
always watches. -/
def Reports (e : Epoll) (c : Channel) (revents : Events) : Prop :=
  ∃ mask, e.kernel c.fd = some (mask, c.addr) ∧ revents ≠ 0#32 ∧
    revents &&& ~~~(mask ||| epollErr ||| epollHup) = 0#32

instance (e : Epoll) (c : Channel) (revents : Events) : Decidable (e.Reports c revents) :=
  decidable_of_iff
    ((e.kernel c.fd).any fun entry => entry.2 == c.addr && revents != 0#32 &&
      revents &&& ~~~(entry.1 ||| epollErr ||| epollHup) == 0#32) (by
    unfold Reports
    rcases e.kernel c.fd with _ | ⟨mask, addr⟩
    · simp
    · simp only [Option.any_some, Bool.and_eq_true, beq_iff_eq, bne_iff_ne, Option.some.injEq,
        Prod.mk.injEq]
      exact ⟨fun ⟨⟨same, event⟩, within⟩ => ⟨mask, ⟨rfl, same⟩, event, within⟩,
        fun ⟨_, ⟨rfl, same⟩, event, within⟩ => ⟨⟨same, event⟩, within⟩⟩)

/-- The part of `FillActiveChannels` for one entry of the result. -/
def fillActiveChannel (e : Epoll) (c : Channel) (revents : Events) : Comp PollerFault Channel := do
  ensure .fillActiveChannelsFound (e.channels c.fd ≠ none)
  ensure .fillActiveChannelsSame (e.channels c.fd = some c.addr)
  return { c with revents := revents }

end Epoll

namespace Channel

/-- `Update()`, through `EventLoop::UpdateChannel`. -/
def update (c : Channel) (e : Epoll) : Comp PollerFault (Epoll × Channel) :=
  e.updateChannel { c with addedToLoop := true }

def enableReading (c : Channel) : Epoll → Comp PollerFault (Epoll × Channel) :=
  update { c with events := c.events ||| kReadEvent }

def disableReading (c : Channel) : Epoll → Comp PollerFault (Epoll × Channel) :=
  update { c with events := c.events &&& ~~~kReadEvent }

def enableWriting (c : Channel) : Epoll → Comp PollerFault (Epoll × Channel) :=
  update { c with events := c.events ||| kWriteEvent }

def disableWriting (c : Channel) : Epoll → Comp PollerFault (Epoll × Channel) :=
  update { c with events := c.events &&& ~~~kWriteEvent }

def disableAll (c : Channel) : Epoll → Comp PollerFault (Epoll × Channel) :=
  update { c with events := kNoneEvent }

/-- `Remove()`, through `EventLoop::RemoveChannel`. `removable` is the assert of the latter. -/
def remove (c : Channel) (removable : Bool) (e : Epoll) : Comp PollerFault (Epoll × Channel) := do
  ensure .channelRemoveNoneEvent (c.isNoneEvent = true)
  let c := { c with addedToLoop := false }
  ensure .eventLoopRemoveChannel (removable = true)
  e.removeChannel c

end Channel

/-! ### The three records agree -/

/-- The poller and the kernel record `c` as its index says, the kernel with the mask `mask`. -/
structure Epoll.Tracks (e : Epoll) (c : Channel) (mask : Events) : Prop where
  listed : e.channels c.fd = if c.index = .kNew then none else some c.addr
  kernel : e.kernel c.fd = if c.index = .kAdded then some (mask, c.addr) else none

/-- The kernel has the mask the channel asks for. -/
def Epoll.Mirrors (e : Epoll) (c : Channel) : Prop := e.Tracks c c.events

namespace Channel

/-- The channel after `Update()`. An empty mask takes a channel out of the kernel only where it
was in it: one that was taken out already is added again. -/
def afterUpdate (c : Channel) : Channel :=
  { c with
    addedToLoop := true
    index := if c.index = .kAdded ∧ c.events = kNoneEvent then .kDeleted else .kAdded }

def afterRemove (c : Channel) : Channel := { c with addedToLoop := false, index := .kNew }

end Channel

namespace Epoll

def afterUpdate (e : Epoll) (c : Channel) : Epoll :=
  { channels := Function.update e.channels c.fd (some c.addr)
    kernel := Function.update e.kernel c.fd
      (if c.afterUpdate.index = .kAdded then some (c.events, c.addr) else none) }

def afterRemove (e : Epoll) (c : Channel) : Epoll :=
  { channels := Function.update e.channels c.fd none, kernel := Function.update e.kernel c.fd none }

theorem afterUpdate_mirrors (e : Epoll) (c : Channel) : (e.afterUpdate c).Mirrors c.afterUpdate := by
  constructor
  · simp only [afterUpdate, Channel.afterUpdate, Function.update_self]
    split <;> simp
  · simp only [afterUpdate, Channel.afterUpdate, Function.update_self]

theorem afterRemove_mirrors (e : Epoll) (c : Channel) : (e.afterRemove c).Mirrors c.afterRemove := by
  constructor
  · simp [afterRemove, Channel.afterRemove]
  · simp [afterRemove, Channel.afterRemove]

variable {e : Epoll} {c : Channel} {mask : Events}

theorem update_of_ctl {operation : EpollOperation} {after : Epoll} (done : e.ctl operation c = some after) :
    e.update operation c = .ok after := by
  rw [update, done]
  rfl

/-- No assert of `UpdateChannel` fails on a tracked channel, and every `epoll_ctl` succeeds. -/
theorem Tracks.update_eq (tracks : e.Tracks c mask) :
    c.update e = .ok (e.afterUpdate c, c.afterUpdate) := by
  obtain ⟨listed, kernel⟩ := tracks
  -- off the path that lists the channel the map is left as it is
  have same (present : e.channels c.fd = some c.addr) :
      Function.update e.channels c.fd (some c.addr) = e.channels := by
    rw [← present, Function.update_eq_self]
  apply Returns.eq_ok
  simp only [Channel.update, updateChannel]
  cases index : c.index with
  | kNew =>
    rw [index, if_pos rfl] at listed
    rw [index, if_neg (by simp)] at kernel
    have added : ctl ⟨Function.update e.channels c.fd (some c.addr), e.kernel⟩ .add
        { c with addedToLoop := true, index := .kAdded } = some (e.afterUpdate c) := by
      simp [ctl, kernel, afterUpdate, Channel.afterUpdate, index]
    simp only [returns_bind, returns_ensure, returns_pure, returns_ok, update_of_ctl added]
    simp [listed, Channel.afterUpdate, index]
  | kDeleted =>
    rw [index, if_neg (by simp)] at listed kernel
    have added : e.ctl .add { c with addedToLoop := true, index := .kAdded } = some (e.afterUpdate c) := by
      simp [ctl, kernel, afterUpdate, Channel.afterUpdate, index, same listed]
    simp only [returns_bind, returns_ensure, returns_pure, returns_ok, update_of_ctl added]
    simp [listed, Channel.afterUpdate, index]
  | kAdded =>
    rw [index, if_neg (by simp)] at listed
    rw [index, if_pos rfl] at kernel
    simp only [returns_bind, returns_ensure]
    refine ⟨by simp [listed], listed, trivial, ?_⟩
    split
    next silent =>
      have silent : c.events = kNoneEvent := by simpa [Channel.isNoneEvent] using silent
      have deleted : e.ctl .del { c with addedToLoop := true, index := .kAdded } = some (e.afterUpdate c) := by
        simp [ctl, kernel, afterUpdate, Channel.afterUpdate, index, silent, same listed]
      simp only [returns_bind, returns_pure, returns_ok, update_of_ctl deleted]
      simp [Channel.afterUpdate, index, silent]
    next asks =>
      have asks : c.events ≠ kNoneEvent := by simpa [Channel.isNoneEvent] using asks
      have changed : e.ctl .mod { c with addedToLoop := true, index := .kAdded } =
          some (e.afterUpdate c) := by
        simp [ctl, kernel, afterUpdate, Channel.afterUpdate, asks, same listed]
      simp only [returns_bind, returns_pure, returns_ok, update_of_ctl changed]
      simp [Channel.afterUpdate, asks]

/-- `Remove()` of a registered channel without events. -/
theorem Mirrors.remove_eq (mirrors : e.Mirrors c) (registered : c.index ≠ .kNew)
    (noneEvent : c.events = kNoneEvent) : c.remove true e = .ok (e.afterRemove c, c.afterRemove) := by
  obtain ⟨listed, kernel⟩ := mirrors
  rw [if_neg registered] at listed
  apply Returns.eq_ok
  simp only [Channel.remove, removeChannel, returns_bind, returns_ensure]
  refine ⟨by simp [Channel.isNoneEvent, noneEvent], trivial, by simp [listed], listed,
    by simp [Channel.isNoneEvent, noneEvent], ?_, by simp [listed], ?_⟩
  · cases index : c.index <;> simp_all
  split
  next added =>
    rw [if_pos added] at kernel
    have deleted : ctl ⟨Function.update e.channels c.fd none, e.kernel⟩ .del
        { c with addedToLoop := false } = some (e.afterRemove c) := by
      simp [ctl, kernel, afterRemove]
    simp only [returns_bind, returns_pure, returns_ok, update_of_ctl deleted]
    rfl
  next out =>
    rw [if_neg out] at kernel
    -- the kernel does not have it any more
    have same : Function.update e.kernel c.fd none = e.kernel := by
      rw [← kernel, Function.update_eq_self]
    simp only [returns_bind, returns_pure, afterRemove, same]
    rfl

/-- Changing the mask of a channel leaves the poller with the old one until `Update()`. -/
theorem Mirrors.tracks (mirrors : e.Mirrors c) (events : Events) :
    e.Tracks { c with events := events } c.events := ⟨mirrors.listed, mirrors.kernel⟩

end Epoll

end Rnet.Network
