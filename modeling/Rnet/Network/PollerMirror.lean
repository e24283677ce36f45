import Rnet.Lib.Run
import Rnet.Network.Channel

/-!
# A poller with many channels

Any number of channels on one poller, each with a descriptor of its own, and any order of the
operations that change what is watched. In every state the map `channels_`, the indices and the
kernel say the same, and no `epoll_ctl` was refused.

A refused deletion is only logged by `Epoll::Update`, so that the result alone does not show it.
The operations that are passed to the kernel are therefore recorded with what it answered.
-/
namespace Rnet.Network

open Check

/-! ### The `epoll_ctl` of an operation -/

/-- The operation `UpdateChannel` passes to `Update`. -/
def Channel.updateOperation (c : Channel) : EpollOperation :=
  match c.index with
  | .kNew | .kDeleted => .add
  | .kAdded => if c.isNoneEvent then .del else .mod

/-- The operation `RemoveChannel` passes to `Update`, if it calls it. -/
def Channel.removeOperation (c : Channel) : Option EpollOperation :=
  if c.index = .kAdded then some .del else none

namespace Epoll

variable {e : Epoll} {c : Channel} {mask : Events}

theorem updateChannel_issues (e : Epoll) (c : Channel) :
    Yields (fun r => ∃ listed : Epoll, listed.kernel = e.kernel ∧
      listed.update c.updateOperation { c with index := .kAdded } = .ok r.1) (e.updateChannel c) := by
  simp only [updateChannel, Channel.updateOperation]
  cases index : c.index with
  | kNew =>
    simp only [yields_bind, yields_ensure, yields_pure]
    intro _ after updated
    exact ⟨⟨Function.update e.channels c.fd (some c.addr), e.kernel⟩, rfl, updated⟩
  | kDeleted =>
    simp only [yields_bind, yields_ensure, yields_pure]
    exact fun _ _ after updated => ⟨e, rfl, updated⟩
  | kAdded =>
    have same : { c with index := .kAdded } = c := by rw [← index]
    simp only [yields_bind, yields_ensure, same]
    intro _ _ _
    split
    · simp only [yields_bind, yields_pure]
      exact fun after updated => ⟨e, rfl, updated⟩
    · simp only [yields_bind, yields_pure]
      exact fun after updated => ⟨e, rfl, updated⟩

theorem removeChannel_issues (e : Epoll) (c : Channel) :
    Yields (fun r => ∃ erased : Epoll, erased.kernel = e.kernel ∧
      match c.removeOperation with
      | some operation => erased.update operation c = .ok r.1
      | none => r.1 = erased) (e.removeChannel c) := by
  simp only [removeChannel, Channel.removeOperation, yields_bind, yields_ensure]
  intro _ _ _ _ _
  let erased : Epoll := ⟨Function.update e.channels c.fd none, e.kernel⟩
  by_cases added : c.index = .kAdded
  · simp only [if_pos added, yields_bind, yields_pure]
    exact fun after updated => ⟨erased, rfl, updated⟩
  · simp only [if_neg added, yields_bind, yields_pure]
    exact ⟨erased, rfl, rfl⟩

/-- The kernel accepts what `UpdateChannel` asks for. -/
theorem Tracks.update_accepted (tracks : e.Tracks c mask) : (e.ctl c.updateOperation c).isSome = true := by
  have kernel := tracks.kernel
  unfold Channel.updateOperation
  cases index : c.index with
  | kNew | kDeleted => simp [ctl, kernel, index]
  | kAdded =>
    simp only [index, if_true] at kernel
    dsimp only
    split <;> simp [ctl, kernel]

theorem Mirrors.remove_accepted (mirrors : e.Mirrors c) :
    ∀ operation ∈ c.removeOperation, (e.ctl operation c).isSome = true := by
  intro operation issued
  unfold Channel.removeOperation at issued
  split at issued
  next added =>
    obtain rfl : EpollOperation.del = operation := Option.some.inj issued
    have kernel := mirrors.kernel
    rw [if_pos added] at kernel
    simp [ctl, kernel]
  next => cases issued

end Epoll

/-! ### The operations of a channel -/

inductive ChannelOperation where
  | enableReading
  | disableReading
  | enableWriting
  | disableWriting
  | disableAll
  /-- `Remove()`, not called from the handler of another channel that is active. -/
  | remove
  deriving DecidableEq, Repr

namespace ChannelOperation

def apply : ChannelOperation → Channel → Epoll → Comp PollerFault (Epoll × Channel)
  | .enableReading, c => c.enableReading
  | .disableReading, c => c.disableReading
  | .enableWriting, c => c.enableWriting
  | .disableWriting, c => c.disableWriting
  | .disableAll, c => c.disableAll
  | .remove, c => c.remove true

/-- The mask an operation leaves in the channel. -/
def mask (o : ChannelOperation) (c : Channel) : Events :=
  match o with
  | .enableReading => c.events ||| kReadEvent
  | .disableReading => c.events &&& ~~~kReadEvent
  | .enableWriting => c.events ||| kWriteEvent
  | .disableWriting => c.events &&& ~~~kWriteEvent
  | .disableAll => kNoneEvent
  | .remove => c.events

/-- All operations but `Remove()` change the mask and call `Update()`. -/
theorem apply_update {o : ChannelOperation} (update : o ≠ .remove) (c : Channel) :
    o.apply c = Channel.update { c with events := o.mask c } := by
  cases o <;> first | rfl | contradiction

/-- The `epoll_ctl` of an operation. -/
def issued (o : ChannelOperation) (c : Channel) : Option EpollOperation :=
  if o = .remove then c.removeOperation
  else some (Channel.updateOperation { c with events := o.mask c })

end ChannelOperation

/-- What an operation on `c` does to the poller: its own entries agree with the channel again, and
the entries of other descriptors stay. -/
structure Epoll.Changes (e : Epoll) (c : Channel) (after : Epoll) (changed : Channel) : Prop where
  addr : changed.addr = c.addr
  fd : changed.fd = c.fd
  mirrors : after.Mirrors changed
  elsewhere : ∀ d, d ≠ c.fd → after.channels d = e.channels d ∧ after.kernel d = e.kernel d

namespace ChannelOperation

variable {e : Epoll} {c : Channel}

/-- `Remove()` is for registered channels without events. -/
def Permitted (o : ChannelOperation) (c : Channel) : Prop :=
  o = .remove → c.index ≠ .kNew ∧ c.events = kNoneEvent

instance (o : ChannelOperation) (c : Channel) : Decidable (o.Permitted c) :=
  inferInstanceAs (Decidable (_ → _))

theorem apply_returns (o : ChannelOperation) (mirrors : e.Mirrors c) (permitted : o.Permitted c) :
    Returns (fun r => e.Changes c r.1 r.2) (o.apply c e) := by
  by_cases remove : o = .remove
  · obtain ⟨registered, noneEvent⟩ := permitted remove
    subst remove
    simp only [apply, mirrors.remove_eq registered noneEvent, returns_ok]
    refine ⟨rfl, rfl, e.afterRemove_mirrors c, fun d other => ?_⟩
    simp [Epoll.afterRemove, Function.update_of_ne other]
  · rw [apply_update remove, (mirrors.tracks (o.mask c)).update_eq, returns_ok]
    refine ⟨rfl, rfl, e.afterUpdate_mirrors _, fun d other => ?_⟩
    simp [Epoll.afterUpdate, Function.update_of_ne other]

theorem issued_accepted (o : ChannelOperation) (mirrors : e.Mirrors c) :
    ∀ operation ∈ o.issued c, (e.ctl operation { c with events := o.mask c }).isSome = true := by
  intro operation issued
  unfold ChannelOperation.issued at issued
  split at issued
  next remove =>
    subst remove
    exact mirrors.remove_accepted operation issued
  next =>
    obtain rfl := Option.some.inj issued
    exact (mirrors.tracks (o.mask c)).update_accepted

end ChannelOperation

/-! ### Runs of a poller -/

/-- An `epoll_ctl`, and whether the kernel accepted it. -/
structure EpollCtl where
  operation : EpollOperation
  fd : Fd
  accepted : Bool
  deriving DecidableEq, Repr

/-- A poller with the channels `ι`. -/
structure Poller (ι : Type) where
  epoll : Epoll
  channels : ι → Channel
  /-- History: every `epoll_ctl` so far. -/
  ctls : List EpollCtl

namespace Poller

variable {ι : Type} {fd : ι → Fd} {addr : ι → ChannelId}

def start (fd : ι → Fd) (addr : ι → ChannelId) : Poller ι :=
  ⟨Epoll.new, fun i => Channel.new (addr i) (fd i), []⟩

/-- The `epoll_ctl` of an operation on channel `i`, with the answer of the kernel. -/
def ctl (s : Poller ι) (i : ι) (o : ChannelOperation) : List EpollCtl :=
  let c := s.channels i
  (o.issued c).toList.map fun operation =>
    ⟨operation, c.fd, (s.epoll.ctl operation { c with events := o.mask c }).isSome⟩

def step [DecidableEq ι] (s : Poller ι) (a : ι × ChannelOperation) : Comp PollerFault (Poller ι) := do
  require (a.2.Permitted (s.channels a.1))
  let (epoll, changed) ← a.2.apply (s.channels a.1) s.epoll
  return {
    epoll := epoll
    channels := Function.update s.channels a.1 changed
    ctls := s.ctls ++ s.ctl a.1 a.2 }

/-- The three records agree about every channel, and there is nothing else in them. -/
structure Mirrored (fd : ι → Fd) (addr : ι → ChannelId) (s : Poller ι) : Prop where
  fdOf : ∀ i, (s.channels i).fd = fd i
  addrOf : ∀ i, (s.channels i).addr = addr i
  mirrors : ∀ i, s.epoll.Mirrors (s.channels i)
  others : ∀ d, (∀ i, fd i ≠ d) → s.epoll.channels d = none ∧ s.epoll.kernel d = none
  legal : ∀ c ∈ s.ctls, c.accepted = true

theorem mirrored_start : Mirrored fd addr (start fd addr) where
  fdOf _ := rfl
  addrOf _ := rfl
  mirrors _ := ⟨rfl, rfl⟩
  others _ _ := ⟨rfl, rfl⟩
  legal := nofun

/-- A channel is not touched by what happens at another descriptor. -/
theorem mirrors_elsewhere {e after : Epoll} {c other : Channel} {changed : Channel}
    (changes : e.Changes c after changed) (apart : other.fd ≠ c.fd) (mirrors : e.Mirrors other) :
    after.Mirrors other := by
  obtain ⟨listed, kernel⟩ := changes.elsewhere other.fd apart
  exact ⟨listed.trans mirrors.listed, kernel.trans mirrors.kernel⟩

theorem ctl_accepted (s : Poller ι) (i : ι) (o : ChannelOperation) (mirrors : s.epoll.Mirrors (s.channels i)) :
    ∀ c ∈ s.ctl i o, c.accepted = true := by
  intro c member
  simp only [ctl, List.mem_map, Option.mem_toList] at member
  obtain ⟨operation, issued, rfl⟩ := member
  exact o.issued_accepted mirrors operation issued

theorem Mirrored.step [DecidableEq ι] {s : Poller ι} (distinct : Function.Injective fd) (kept : Mirrored fd addr s)
    (a : ι × ChannelOperation) : Safe (Mirrored fd addr) (s.step a) := by
  obtain ⟨i, o⟩ := a
  simp only [Poller.step, safe_bind, safe_require, safe_pure]
  intro permitted
  refine (o.apply_returns (kept.mirrors i) permitted).safe.mono fun r changes => ?_
  obtain ⟨after, changed⟩ := r
  -- the channel itself changes as `changes` says, every other one has another descriptor
  constructor
  · intro j
    by_cases same : j = i
    · subst same
      simpa using changes.fd.trans (kept.fdOf j)
    · simp [Function.update_of_ne same, kept.fdOf]
  · intro j
    by_cases same : j = i
    · subst same
      simpa using changes.addr.trans (kept.addrOf j)
    · simp [Function.update_of_ne same, kept.addrOf]
  · intro j
    by_cases same : j = i
    · subst same
      simpa using changes.mirrors
    · have apart : (s.channels j).fd ≠ (s.channels i).fd := by
        rw [kept.fdOf, kept.fdOf]
        exact fun equal => same (distinct equal)
      simpa [Function.update_of_ne same] using mirrors_elsewhere changes apart (kept.mirrors j)
  · intro d unused
    have apart : d ≠ (s.channels i).fd := by
      rw [kept.fdOf]
      exact (unused i).symm
    obtain ⟨listed, kernel⟩ := changes.elsewhere d apart
    rw [listed, kernel]
    exact kept.others d unused
  · intro c member
    rcases List.mem_append.mp member with before | last
    · exact kept.legal c before
    · exact s.ctl_accepted i o (kept.mirrors i) c last

/-- In every run of a poller whose channels have distinct descriptors: no assert fails and every
`epoll_ctl` is accepted. `channels_` has the channel exactly when its index is `kAdded` or
`kDeleted`; the kernel has its descriptor exactly when the index is `kAdded`, and then with the
mask of the channel. -/
theorem poller_mirrors [DecidableEq ι] (fd : ι → Fd) (addr : ι → ChannelId) (distinct : Function.Injective fd)
    (acts : List (ι × ChannelOperation)) :
    (∀ f, Run.exec step (start fd addr) acts ≠ .error (.fault f)) ∧
    ∀ s, Run.exec step (start fd addr) acts = .ok s →
      (∀ i, (s.epoll.channels (fd i) = some (addr i) ↔
          (s.channels i).index = .kAdded ∨ (s.channels i).index = .kDeleted) ∧
        ((s.epoll.kernel (fd i)).isSome = true ↔ (s.channels i).index = .kAdded) ∧
        ((s.channels i).index = .kAdded → s.epoll.kernel (fd i) = some ((s.channels i).events, addr i))) ∧
      (∀ d, (∀ i, fd i ≠ d) → s.epoll.channels d = none ∧ s.epoll.kernel d = none) ∧
      ∀ c ∈ s.ctls, c.accepted = true := by
  have safe : Safe (Mirrored fd addr) (Run.exec step (start fd addr) acts) :=
    Run.exec_safe_all (fun s a kept => kept.step distinct a) (start fd addr) acts mirrored_start
  refine ⟨safe.no_fault, fun s reached => ?_⟩
  have kept : Mirrored fd addr s := safe.result reached
  refine ⟨fun i => ?_, kept.others, kept.legal⟩
  obtain ⟨listed, kernel⟩ := kept.mirrors i
  rw [kept.fdOf, kept.addrOf] at listed kernel
  rw [listed, kernel]
  cases index : (s.channels i).index with
  | kNew | kDeleted | kAdded => simp

/-- Two channels. The first is disabled twice, removed and registered again. -/
def reregistered : List (Bool × ChannelOperation) :=
  [(true, .enableReading), (false, .enableWriting), (true, .disableAll), (true, .disableAll), (true, .remove),
    (false, .disableWriting), (true, .enableWriting), (false, .enableReading)]

def twoFds (b : Bool) : Fd := if b then 7 else 9

theorem twoFds_injective : Function.Injective twoFds := by
  intro a b
  revert a b
  decide

theorem poller_mirrors_reregistered :
    ∃ s, Run.exec step (start twoFds fun b => if b then 100 else 200) reregistered = .ok s ∧
      s.ctls.map (fun c => (c.operation, c.fd)) = [(.add, 7), (.add, 9), (.del, 7), (.add, 7), (.del, 7),
        (.del, 9), (.add, 7), (.add, 9)] ∧
      s.epoll.kernel 7 = some (kWriteEvent, 100) := by
  have last : (Run.exec step (start twoFds fun b => if b then 100 else 200) reregistered).toOption.map (fun s =>
      (s.ctls.map (fun c => (c.operation, c.fd)), (s.channels true).index, (s.channels true).events)) =
      some ([(.add, 7), (.add, 9), (.del, 7), (.add, 7), (.del, 7), (.del, 9), (.add, 7), (.add, 9)],
        .kAdded, kWriteEvent) := by
    decide +kernel
  obtain ⟨s, reached, ended⟩ := returned_of_map last
  simp only [Prod.mk.injEq] at ended
  obtain ⟨ctls, added, events⟩ := ended
  obtain ⟨_, facts⟩ := poller_mirrors twoFds (fun b => if b then 100 else 200) twoFds_injective reregistered
  obtain ⟨each, _, _⟩ := facts s reached
  refine ⟨s, reached, ctls, ?_⟩
  have entry := (each true).2.2 added
  rw [events] at entry
  exact entry

end Poller

end Rnet.Network
