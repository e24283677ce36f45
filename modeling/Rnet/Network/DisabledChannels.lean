import Rnet.Network.ConnectionLifecycle
import Rnet.Network.PollerMirror

/-!
# Channels without events

`UpdateChannel` looks at the mask only where the index is `kAdded`: there an empty mask takes the
descriptor out of the kernel. A channel with the index `kNew` or `kDeleted` is added whatever its
mask is. So a channel that has no events is out of the kernel as long as `Disable*` is called on
channels that have some; one more `Disable*` puts it back with an empty mask, and `epoll_wait`
reports hang-ups and errors for an empty mask too.
-/
namespace Rnet.Network

open Check

namespace ChannelOperation

/-- The operations that take events out of the mask. -/
def Disables (o : ChannelOperation) : Prop :=
  o = .disableReading ∨ o = .disableWriting ∨ o = .disableAll

instance (o : ChannelOperation) : Decidable o.Disables :=
  inferInstanceAs (Decidable (_ ∨ _))

/-- Nothing is left to take out of an empty mask. -/
theorem Disables.mask_none {o : ChannelOperation} (disables : o.Disables) {c : Channel}
    (noneEvent : c.events = kNoneEvent) : o.mask c = kNoneEvent := by
  rcases disables with rfl | rfl | rfl
  · simp [mask, noneEvent, kNoneEvent]
  · simp [mask, noneEvent, kNoneEvent]
  · rfl

/-- Of the operations that call `Update()` only these can leave an empty mask. -/
theorem disables_of_mask {o : ChannelOperation} {c : Channel} (update : o ≠ .remove)
    (empty : o.mask c = kNoneEvent) : o.Disables := by
  cases o with
  | disableReading => exact .inl rfl
  | disableWriting => exact .inr (.inl rfl)
  | disableAll => exact .inr (.inr rfl)
  | remove => exact absurd rfl update
  | enableReading =>
    simp [mask, kNoneEvent, kReadEvent, epollIn, epollPri, BitVec.or_eq_zero_iff] at empty
  | enableWriting =>
    simp [mask, kNoneEvent, kWriteEvent, epollOut, BitVec.or_eq_zero_iff] at empty

end ChannelOperation

namespace Channel

/-- The channel is in the kernel exactly when it has events. -/
def Matched (c : Channel) : Prop := c.index = .kAdded ↔ c.isNoneEvent = false

theorem matched_new (addr : ChannelId) (fd : Fd) : (Channel.new addr fd).Matched := by
  simp [Matched, Channel.new, isNoneEvent]

end Channel

/-- An operation keeps a channel matched, if what it takes out of the mask is not taken out of an
empty one. -/
theorem ChannelOperation.apply_matched (o : ChannelOperation) {e : Epoll} {c : Channel}
    (mirrors : e.Mirrors c) (permitted : o.Permitted c) (matched : c.Matched)
    (active : o.Disables → c.isNoneEvent = false) :
    Yields (fun r => r.2.Matched) (o.apply c e) := by
  by_cases remove : o = .remove
  · obtain ⟨registered, noneEvent⟩ := permitted remove
    subst remove
    simp [apply, mirrors.remove_eq registered noneEvent, Channel.Matched, Channel.afterRemove,
      Channel.isNoneEvent, noneEvent]
  · rw [apply_update remove, (mirrors.tracks (o.mask c)).update_eq, yields_ok]
    by_cases empty : o.mask c = kNoneEvent
    · -- it had events, so it was in the kernel and is deleted there
      have added : c.index = .kAdded := matched.mpr (active (disables_of_mask remove empty))
      simp [Channel.Matched, Channel.afterUpdate, Channel.isNoneEvent, empty, added]
    · simp [Channel.Matched, Channel.afterUpdate, Channel.isNoneEvent, empty]

namespace Poller

variable {ι : Type} [DecidableEq ι] {fd : ι → Fd} {addr : ι → ChannelId}

/-- Channel `i` has events whenever one of `Disable*` is called on it. -/
def DisablesActive (i : ι) (s : Poller ι) (a : ι × ChannelOperation) : Prop :=
  a.1 = i → a.2.Disables → (s.channels i).isNoneEvent = false

instance (i : ι) (s : Poller ι) (a : ι × ChannelOperation) : Decidable (DisablesActive i s a) :=
  inferInstanceAs (Decidable (_ → _ → _))

/-- The records agree, and channel `i` is in them exactly when it has events. -/
structure Quiet (fd : ι → Fd) (addr : ι → ChannelId) (i : ι) (s : Poller ι) : Prop extends
    Mirrored fd addr s where
  matched : (s.channels i).Matched

omit [DecidableEq ι] in
theorem quiet_start (i : ι) : Quiet fd addr i (start fd addr) :=
  ⟨mirrored_start, Channel.matched_new (addr i) (fd i)⟩

theorem step_matched {s : Poller ι} {i : ι} (quiet : Quiet fd addr i s) (a : ι × ChannelOperation)
    (active : DisablesActive i s a) : Yields (fun t : Poller ι => (t.channels i).Matched) (s.step a) := by
  obtain ⟨j, o⟩ := a
  simp only [Poller.step, yields_bind, yields_require, yields_pure]
  intro permitted r applied
  by_cases same : i = j
  · subst same
    simpa using o.apply_matched (quiet.mirrors i) permitted quiet.matched (active rfl) r applied
  · simpa [Function.update_of_ne same] using quiet.matched

theorem step_quiet (distinct : Function.Injective fd) {i : ι} (s : Poller ι) (a : ι × ChannelOperation)
    (t : Poller ι) (quiet : Quiet fd addr i s) (active : DisablesActive i s a) (taken : s.step a = .ok t) :
    Quiet fd addr i t :=
  ⟨(quiet.toMirrored.step distinct a).result taken, step_matched quiet a active t taken⟩

omit [DecidableEq ι] in
theorem Quiet.absent {i : ι} {s : Poller ι} (quiet : Quiet fd addr i s)
    (noneEvent : (s.channels i).isNoneEvent = true) : s.epoll.kernel (s.channels i).fd = none := by
  have out : (s.channels i).index ≠ .kAdded := by
    intro added
    rw [quiet.matched.mp added] at noneEvent
    cases noneEvent
  rw [(quiet.mirrors i).kernel, if_neg out]

/-- A channel that is never disabled while it has no events: whenever it has none, its descriptor
is not in the kernel and `epoll_wait` reports nothing of it, hang-ups and errors included. -/
theorem disabled_unregistered (fd : ι → Fd) (addr : ι → ChannelId) (distinct : Function.Injective fd)
    (acts : List (ι × ChannelOperation)) (i : ι)
    (active : Run.Meets step (DisablesActive i) (start fd addr) acts) (s : Poller ι)
    (reached : Run.exec step (start fd addr) acts = .ok s) (noneEvent : (s.channels i).isNoneEvent = true) :
    s.epoll.kernel (fd i) = none ∧ ∀ revents, ¬ s.epoll.Reports (s.channels i) revents := by
  have quiet : Quiet fd addr i s :=
    Run.exec_keeps (step_quiet distinct) (start fd addr) s acts (quiet_start i) active reached
  have absent := quiet.absent noneEvent
  refine ⟨quiet.fdOf i ▸ absent, ?_⟩
  rintro revents ⟨mask, present, _⟩
  rw [absent] at present
  cases present

/-- Two new channels. -/
def twoChannels : Poller Bool := start twoFds fun b => if b then 100 else 200

/-- One channel loses its events in two steps, is removed and comes back; the other one is
disabled before it was ever enabled. -/
def disabledOnce : List (Bool × ChannelOperation) :=
  [(true, .enableReading), (true, .enableWriting), (false, .disableAll), (true, .disableReading),
    (true, .disableWriting), (true, .remove), (true, .enableReading), (true, .disableAll)]

theorem disabled_unregistered_once :
    Run.Meets step (DisablesActive true) twoChannels disabledOnce ∧
    ∃ s, Run.exec step twoChannels disabledOnce = .ok s ∧
      s.epoll.kernel 7 = none ∧ ¬ s.epoll.Reports (s.channels true) epollHup := by
  have active : Run.Meets step (DisablesActive true) twoChannels disabledOnce := by decide +kernel
  have last : (Run.exec step twoChannels disabledOnce).toOption.map
      (fun s => (s.channels true).isNoneEvent) = some true := by decide +kernel
  obtain ⟨s, reached, noneEvent⟩ := returned_of_map last
  obtain ⟨absent, unreported⟩ := disabled_unregistered twoFds (fun b => if b then 100 else 200)
    twoFds_injective disabledOnce true active s reached noneEvent
  exact ⟨active, s, reached, absent, unreported epollHup⟩

/-! ### One more `Disable*` -/

/-- Whatever happened before: `Disable*` on a channel that has no events and is not in the kernel
puts it there. -/
theorem disable_registers (fd : ι → Fd) (addr : ι → ChannelId) (distinct : Function.Injective fd)
    (acts : List (ι × ChannelOperation)) (s : Poller ι)
    (reached : Run.exec step (start fd addr) acts = .ok s) (i : ι) (noneEvent : (s.channels i).events = kNoneEvent)
    (absent : s.epoll.kernel (fd i) = none) (o : ChannelOperation) (disables : o.Disables) :
    Returns (fun t => (t.channels i).isNoneEvent = true ∧ t.epoll.kernel (fd i) = some (kNoneEvent, addr i))
      (s.step (i, o)) := by
  have mirrored : Mirrored fd addr s :=
    (Run.exec_safe_all (fun u a kept => Mirrored.step distinct kept a) (start fd addr) acts
      mirrored_start).result reached
  have out : (s.channels i).index ≠ .kAdded := by
    intro added
    have present := (mirrored.mirrors i).kernel
    rw [mirrored.fdOf, absent, if_pos added] at present
    cases present
  have update : o ≠ .remove := by
    rintro rfl
    rcases disables with same | same | same <;> cases same
  have permitted : o.Permitted (s.channels i) := fun remove => absurd remove update
  simp only [Poller.step, returns_bind, returns_require, returns_pure]
  refine ⟨permitted, ?_⟩
  rw [ChannelOperation.apply_update update, ((mirrored.mirrors i).tracks (o.mask (s.channels i))).update_eq]
  -- the index is not `kAdded`, so the mask does not count
  simp [Channel.afterUpdate, Epoll.afterUpdate, Channel.isNoneEvent, disables.mask_none noneEvent, out,
    ← mirrored.fdOf i, ← mirrored.addrOf i]

end Poller

/-- Another thread has asked to stop reading; the peer closes before the loop comes to it. -/
def Connection.stopReadLate : List Connection.Action :=
  [.poll none, .swap, .next (.count 0), .resume (.delivered []) (.count 0), .finish, .call 5 .stopRead, .push 5,
    .poll (some epollIn), .dispatch, .resume (.delivered []) (.count 0), .resume (.delivered []) (.count 0),
    .resume (.delivered []) (.count 0), .resume (.delivered []) (.count 0), .swap, .next (.count 0), .finish]

namespace Poller

/-- What the channel, the kernel and `epoll_wait` say of the first channel. -/
def firstChannel (s : Poller Bool) : Bool × Option (Events × ChannelId) × Bool :=
  ((s.channels true).isNoneEvent, s.epoll.kernel 7, decide (s.epoll.Reports (s.channels true) epollHup))

/-- A channel that was never enabled and is disabled; one that is disabled twice; and a closed
connection whose `StopReadInLoop` comes late. Each has no events and is in the kernel, which may
report a hang-up; at the connection this calls `HandleClose` a second time. -/
theorem disabled_registered :
    (Run.exec step twoChannels [(true, .disableAll)]).toOption.map firstChannel =
      some (true, some (kNoneEvent, 100), true) ∧
    (Run.exec step twoChannels
        [(true, .enableReading), (true, .disableAll), (true, .disableAll)]).toOption.map firstChannel =
      some (true, some (kNoneEvent, 100), true) ∧
    (Run.exec (Connection.step true) (Connection.start Connection.ioLoop) Connection.stopReadLate).toOption.map
        (fun s => (s.state, s.channel.isNoneEvent, s.poller.kernel 7)) =
      some (.kDisconnected, true, some (kNoneEvent, 1)) ∧
    Run.exec (Connection.step true) (Connection.start Connection.ioLoop)
        (Connection.stopReadLate ++ [.poll (some epollHup), .dispatch]) =
      .error (.fault .handleClose) := by
  refine ⟨by decide +kernel, by decide +kernel, by decide +kernel, ?_⟩
  apply error_of_halt?
  decide +kernel

end Poller

end Rnet.Network
