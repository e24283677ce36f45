import Rnet.Network.TcpConnection

/-!
# What a step of a connection does

The functions of a connection are read once, here. Where the poller agrees with the channel no
`Update()` fails, so each of them has a result that can be written down: `opened`, `closed`,
`destroyed`, `unlisted`, and for those that depend on an answer of the kernel a small relation.
`Effect` puts them together into all that a step may do, and `step_effect` says that it is all.
The invariants of a connection are then a matter of going through the cases of `Effect`.
-/
namespace Rnet.Network

open Check File

/-- The errors of `write(2)` after which `DoSendInLoop` drops the message. -/
def WriteResult.Breaks : WriteResult → Prop
  | .count _ => False
  | .failed errno => errno = .epipe ∨ errno = .econnreset

instance (answer : WriteResult) : Decidable answer.Breaks := by
  cases answer <;> unfold WriteResult.Breaks <;> infer_instance

namespace Connection

variable {s t : Connection}

/-- Established and not closed. -/
def Up (s : Connection) : Prop := s.state = .kConnected ∨ s.state = .kDisconnecting

instance (s : Connection) : Decidable s.Up := inferInstanceAs (Decidable (_ ∨ _))

/-! ### The poller -/

/-- The poller and the kernel have the channel as it is. -/
def Mirrored (s : Connection) : Prop := s.poller.Mirrors s.channel

/-- The connection after `Update()` with the mask `events`. -/
def setMask (s : Connection) (events : Events) : Connection :=
  { s with
    poller := s.poller.afterUpdate { s.channel with events := events }
    channel := Channel.afterUpdate { s.channel with events := events } }

theorem update_eq (mirrored : s.Mirrored) (events : Events) :
    s.updateChannel (Channel.update { s.channel with events := events }) = .ok (s.setMask events) := by
  rw [updateChannel, (Epoll.Mirrors.tracks mirrored events).update_eq]
  rfl

theorem setMask_mirrored (s : Connection) (events : Events) : (s.setMask events).Mirrored :=
  Epoll.afterUpdate_mirrors _ _

/-- The connection after `channel_->Remove()`. -/
def unlisted (s : Connection) : Connection :=
  { s with poller := s.poller.afterRemove s.channel, channel := s.channel.afterRemove }

theorem unlisted_mirrored (s : Connection) : s.unlisted.Mirrored := Epoll.afterRemove_mirrors _ _

theorem removeChannel_eq (mirrored : s.Mirrored) (known : s.channel.index ≠ .kNew)
    (quiet : s.channel.events = kNoneEvent)
    (removable : (s.loop.phase ≠ .handling || s.current || !s.active) = true) :
    s.removeChannel = .ok s.unlisted := by
  rw [removeChannel, updateChannel, removable, Epoll.Mirrors.remove_eq mirrored known quiet]
  rfl

/-- A `Remove()` that returned found the channel registered and without events. -/
theorem remove_checked (c : Channel) (removable : Bool) (e : Epoll) :
    Yields (fun _ => removable = true ∧ c.index ≠ .kNew ∧ c.events = kNoneEvent) (c.remove removable e) := by
  simp only [Channel.remove, Epoll.removeChannel, yields_bind, yields_ensure]
  intro quiet allowed _ _ _ index _
  have known : c.index ≠ .kNew := by
    rcases index with added | deleted
    · simp_all
    · simp_all
  exact fun _ _ => ⟨allowed, known, by simpa [Channel.isNoneEvent] using quiet⟩

theorem removeChannel_yields (mirrored : s.Mirrored) : Yields (fun t => t = s.unlisted) s.removeChannel := by
  simp only [removeChannel, updateChannel, yields_bind, yields_lift, yields_pure]
  intro r removed
  obtain ⟨allowed, known, quiet⟩ := remove_checked s.channel _ s.poller r removed
  rw [allowed, Epoll.Mirrors.remove_eq mirrored known quiet] at removed
  obtain rfl := Except.ok.inj removed
  rfl

/-! ### Opening and closing -/

def opened (s : Connection) : Connection :=
  (setMask { s with state := .kConnected, channel := { s.channel with tied := true } }
    (s.channel.events ||| kReadEvent)).connectionCallback

theorem connectEstablished_eq (mirrored : s.Mirrored) (fresh : s.state = .kConnecting) :
    s.connectEstablished = .ok s.opened := by
  have updated := update_eq (s := { s with state := .kConnected, channel := { s.channel with tied := true } })
    ⟨mirrored.listed, mirrored.kernel⟩ (s.channel.events ||| kReadEvent)
  apply Returns.eq_ok
  simp only [connectEstablished, returns_bind, returns_ensure]
  refine ⟨fresh, ?_⟩
  rw [Channel.enableReading, updated]
  rfl

def closed (s : Connection) : Connection :=
  connectionCallback { setMask { s with state := .kDisconnected, closes := s.closes + 1 } kNoneEvent with
    todo := .closeCallback :: s.todo }

theorem handleClose_eq (mirrored : s.Mirrored) (up : s.Up) : s.handleClose = .ok s.closed := by
  have updated := update_eq (s := { s with state := .kDisconnected, closes := s.closes + 1 }) mirrored kNoneEvent
  apply Returns.eq_ok
  simp only [handleClose, returns_bind, returns_ensure]
  refine ⟨up, ?_⟩
  rw [Channel.disableAll, updated]
  rfl

/-- `ConnectDestroyed` of a connection that was up, as far as its callback. -/
def destroyed (s : Connection) : Connection :=
  connectionCallback { setMask { s with destroys := s.destroys + 1, state := .kDisconnected } kNoneEvent with
    todo := .remove :: s.todo }

theorem connectDestroyed_eq (mirrored : s.Mirrored) (connected : s.state = .kConnected) :
    s.connectDestroyed = .ok s.destroyed := by
  have updated := update_eq (s := { s with destroys := s.destroys + 1, state := .kDisconnected }) mirrored kNoneEvent
  apply Returns.eq_ok
  simp only [connectDestroyed]
  rw [if_pos connected, Channel.disableAll, updated]
  rfl

/-- `StartReadInLoop` or `StopReadInLoop` has run. -/
inductive SetsReading (s : Connection) : Connection → Prop where
  | same : SetsReading s s
  | start : SetsReading s { s.setMask (s.channel.events ||| kReadEvent) with reading := true }
  | stop : SetsReading s { s.setMask (s.channel.events &&& ~~~kReadEvent) with reading := false }

theorem startReadInLoop_returns (mirrored : s.Mirrored) : Returns s.SetsReading s.startReadInLoop := by
  unfold startReadInLoop
  split
  · rw [Channel.enableReading, update_eq mirrored]
    exact .start
  · exact .same

theorem stopReadInLoop_returns (mirrored : s.Mirrored) : Returns s.SetsReading s.stopReadInLoop := by
  unfold stopReadInLoop
  split
  · rw [Channel.disableReading, update_eq mirrored]
    exact .stop
  · exact .same

/-! ### Sending -/

/-- `DoSendInLoop` has taken the message. -/
def take (s : Connection) (message : Message) : Connection := { s with processed := s.processed ++ [message] }

/-- Nothing waits, so `DoSendInLoop` hands a message to `write(2)`. -/
def Idle (s : Connection) : Prop := (!s.channel.isWriting && s.outputBuffer.readableBytes == 0) = true

/-- Everything is written, which the user may want to know. -/
def completed (s : Connection) : Connection :=
  if s.writeCompleteCallback then s.queueInLoop .writeCompleteCallback else s

theorem completed_mirrored (mirrored : s.Mirrored) : s.completed.Mirrored := by
  unfold completed
  split <;> exact mirrored

/-- `rest` waits in the output buffer behind what was there, and the channel asks for write
events. -/
def buffered (s : Connection) (rest : List Byte) : Connection :=
  let s := s.crossHighWaterMark rest.length
  let s := { s with outputBuffer := s.outputBuffer.append rest }
  if s.channel.isWriting then s else s.setMask (s.channel.events ||| kWriteEvent)

/-- What was not written waits, if it is anything. -/
def keep (s : Connection) (rest : List Byte) : Connection := if rest = [] then s else s.buffered rest

@[simp] theorem keep_nil (s : Connection) : s.keep [] = s := if_pos rfl

theorem bufferRest_eq (mirrored : s.Mirrored) (rest : List Byte) : s.bufferRest rest = .ok (s.buffered rest) := by
  have crossed : (s.crossHighWaterMark rest.length).Mirrored := by
    unfold crossHighWaterMark
    dsimp only
    split <;> exact mirrored
  unfold bufferRest buffered
  generalize s.crossHighWaterMark rest.length = t at crossed
  dsimp only
  split
  · rfl
  · exact update_eq (s := { t with outputBuffer := t.outputBuffer.append rest }) crossed _

/-- The end of `DoSendInLoop`, which has written `n` bytes. -/
theorem rest_eq (mirrored : s.Mirrored) (data : List Byte) (n : Nat) :
    (if !false && decide (0 < data.length - n) then s.bufferRest (data.drop n) else pure s) =
      .ok (s.keep (data.drop n)) := by
  by_cases done : data.drop n = []
  · have short : data.length - n = 0 := by rw [← List.length_drop, done, List.length_nil]
    rw [short, keep, if_pos done]
    rfl
  · have more : 0 < data.length - n := by
      rw [← List.length_drop]
      exact List.length_pos_iff.mpr done
    rw [keep, if_neg done, ← bufferRest_eq mirrored]
    simp [more]

/-- What `DoSendInLoop` does with a message, by the answer of `write(2)`. -/
inductive Sends (s : Connection) (m : Message) : WriteResult → Connection → Prop where
  -- the warning "disconnected, give up writing"
  | givenUp (answer : WriteResult) : s.state = .kDisconnected → Sends s m answer s
  -- something waits already, so `write(2)` is not called
  | buffered (answer : WriteResult) : s.state ≠ .kDisconnected → ¬ s.Idle →
    Sends s m answer ((s.take m).keep m.data)
  -- an error that is no `faultError`: the whole message waits
  | refused (errno : Errno) : s.state ≠ .kDisconnected → s.Idle → ¬ (WriteResult.failed errno).Breaks →
    Sends s m (.failed errno) (((s.take m).write []).keep m.data)
  -- `faultError`: the message is neither written nor kept
  | lost (errno : Errno) : s.state ≠ .kDisconnected → s.Idle → (WriteResult.failed errno).Breaks →
    Sends s m (.failed errno) ((s.take m).write [])
  | part (n : Nat) : s.state ≠ .kDisconnected → s.Idle → n < m.data.length →
    Sends s m (.count n) (((s.take m).write (m.data.take n)).keep (m.data.drop n))
  | whole : s.state ≠ .kDisconnected → s.Idle →
    Sends s m (.count m.data.length) ((s.take m).write m.data).completed

theorem writeDirectly_waiting (waits : ¬ s.Idle) (data : List Byte) (answer : WriteResult) :
    s.writeDirectly data answer = .ok (s, 0, false) :=
  if_neg waits

theorem writeDirectly_failed (idle : s.Idle) (data : List Byte) (errno : Errno) :
    s.writeDirectly data (.failed errno) = .ok (s.write [], 0, errno = .epipe || errno = .econnreset) :=
  if_pos idle

theorem writeDirectly_part (idle : s.Idle) {data : List Byte} {n : Nat} (less : n < data.length) :
    s.writeDirectly data (.count n) = .ok (s.write (data.take n), n, false) := by
  refine (if_pos idle).trans (Returns.eq_ok ?_)
  simp only [returns_bind, returns_require]
  refine ⟨less.le, ?_⟩
  rw [if_neg fun done => absurd done.1 (by omega), returns_pure]

theorem writeDirectly_whole (idle : s.Idle) (data : List Byte) :
    s.writeDirectly data (.count data.length) = .ok ((s.write data).completed, data.length, false) := by
  refine (if_pos idle).trans (Returns.eq_ok ?_)
  simp only [returns_bind, returns_require, List.take_length, Nat.sub_self, true_and, completed]
  refine ⟨Nat.le_refl _, ?_⟩
  split <;> rfl

/-- The kernel takes no more than it is offered. -/
theorem writeDirectly_beyond (idle : s.Idle) {data : List Byte} {n : Nat} (more : ¬ n ≤ data.length) :
    s.writeDirectly data (.count n) = .error .disabled := by
  refine (if_pos idle).trans ?_
  simp only [require, if_neg more]
  rfl

/-- `DoSendInLoop` behind its `write(2)`. -/
theorem doSendInLoop_written (up : s.state ≠ .kDisconnected) {m : Message} {answer : WriteResult} {n : Nat}
    {u : Connection} (direct : (s.take m).writeDirectly m.data answer = .ok (u, n, false))
    (mirrored : u.Mirrored) :
    s.doSendInLoop m answer = .ok (u.keep (m.data.drop n)) := by
  unfold take at direct
  apply Returns.eq_ok
  rw [doSendInLoop, if_neg up]
  simp only [returns_bind, direct, returns_ok, returns_ensure, rest_eq mirrored]
  exact ⟨Nat.sub_le _ _, trivial⟩

theorem doSendInLoop_returns (mirrored : s.Mirrored) (m : Message) {answer : WriteResult}
    (possible : s.Idle → ∀ n, answer = .count n → n ≤ m.data.length) :
    Returns (s.Sends m answer) (s.doSendInLoop m answer) := by
  by_cases down : s.state = .kDisconnected
  · rw [doSendInLoop, if_pos down]
    exact .givenUp answer down
  by_cases idle : s.Idle
  · have direct : (s.take m).Idle := idle
    cases answer with
    | failed errno =>
      by_cases breaks : (WriteResult.failed errno).Breaks
      · have broken : (errno = .epipe || errno = .econnreset) = true := by simpa [WriteResult.Breaks] using breaks
        have lost := writeDirectly_failed direct m.data errno
        rw [broken] at lost
        unfold take at lost
        rw [doSendInLoop, if_neg down]
        simp only [returns_bind, lost, returns_ok, returns_ensure]
        exact ⟨Nat.sub_le _ _, .lost errno down idle breaks⟩
      · have works : (errno = .epipe || errno = .econnreset) = false := by simpa [WriteResult.Breaks] using breaks
        have failed := writeDirectly_failed direct m.data errno
        rw [works] at failed
        rw [doSendInLoop_written down failed mirrored]
        exact .refused errno down idle breaks
    | count n =>
      rcases (possible idle n rfl).eq_or_lt with rfl | less
      · rw [doSendInLoop_written down (writeDirectly_whole direct m.data) (completed_mirrored mirrored),
          List.drop_length, keep_nil]
        exact .whole down idle
      · rw [doSendInLoop_written down (writeDirectly_part direct less) mirrored]
        exact .part n down idle less
  · rw [doSendInLoop_written down (writeDirectly_waiting (s := s.take m) idle m.data answer) mirrored]
    exact .buffered answer down idle

theorem doSendInLoop_sends (mirrored : s.Mirrored) (m : Message) (answer : WriteResult) :
    Safe (s.Sends m answer) (s.doSendInLoop m answer) := by
  -- a count above the length is no answer of the kernel
  by_cases possible : s.Idle → ∀ n, answer = .count n → n ≤ m.data.length
  · exact (doSendInLoop_returns mirrored m possible).safe
  · push Not at possible
    obtain ⟨idle, n, rfl, beyond⟩ := possible
    have refused := writeDirectly_beyond (s := s.take m) idle beyond.not_ge
    unfold take at refused
    rw [doSendInLoop]
    split
    next down => exact .givenUp _ down
    next => simp only [safe_bind, refused, safe_disabled]

/-! ### Writing the backlog -/

/-- The kernel took the first `n` bytes of the backlog, and `Retrieve` left `out`. -/
def retrieved (s : Connection) (n : Nat) (out : OwnedBuffer) : Connection :=
  { s.write (s.outputBuffer.content.take n) with outputBuffer := out }

/-- The backlog is gone. A shutdown that `ShutdownInLoop` passed over is made good. -/
def drained (s : Connection) : Connection :=
  let s := (s.setMask (s.channel.events &&& ~~~kWriteEvent)).completed
  if s.state = .kDisconnecting then s.shutdownWrite else s

/-- What `HandleWrite` does, by the answer of `write(2)`. -/
inductive Writes (s : Connection) : WriteResult → Connection → Prop where
  -- the trace "is down, no more writing"
  | unasked (answer : WriteResult) : s.channel.isWriting = false → Writes s answer s
  -- an error, and a `write(2)` that took nothing, are only logged
  | nothing (answer : WriteResult) : s.channel.isWriting = true → (∀ n, answer = .count n → n = 0) →
    Writes s answer (s.write [])
  | part (n : Nat) (out : OwnedBuffer) : s.channel.isWriting = true → 0 < n →
    n < s.outputBuffer.readableBytes → out.content = s.outputBuffer.content.drop n →
    Writes s (.count n) (s.retrieved n out)
  | last (n : Nat) (out : OwnedBuffer) : s.channel.isWriting = true → 0 < n →
    n = s.outputBuffer.readableBytes → out.content = [] → Writes s (.count n) (s.retrieved n out).drained

theorem completed_isWriting (s : Connection) : s.completed.channel.isWriting = s.channel.isWriting := by
  unfold completed
  split <;> rfl

theorem drained_eq (mirrored : s.Mirrored) :
    (do
      let s ← s.updateChannel s.channel.disableWriting
      let s := if s.writeCompleteCallback then s.queueInLoop .writeCompleteCallback else s
      return if s.state = .kDisconnecting then s.shutdownInLoop else s : Comp ConnFault Connection) =
      .ok s.drained := by
  apply Returns.eq_ok
  rw [Channel.disableWriting, update_eq mirrored]
  have idle : (s.setMask (s.channel.events &&& ~~~kWriteEvent)).completed.channel.isWriting = false := by
    rw [completed_isWriting]
    exact Flags.has_clear_self _ _
  unfold drained
  generalize updated : s.setMask (s.channel.events &&& ~~~kWriteEvent) = u at idle
  change (if u.completed.state = .kDisconnecting then u.completed.shutdownInLoop else u.completed) = _
  rw [shutdownInLoop, idle]
  rfl

theorem handleWrite_returns (mirrored : s.Mirrored) {answer : WriteResult}
    (possible : s.channel.isWriting = true → ∀ n, answer = .count n → n ≤ s.outputBuffer.readableBytes) :
    Returns (s.Writes answer) (s.handleWrite answer) := by
  unfold handleWrite
  split
  next writing =>
    cases answer with
    | failed errno => exact .nothing _ writing (by simp)
    | count n =>
      have within := possible writing n rfl
      simp only [returns_bind, returns_require]
      refine ⟨within, ?_⟩
      split
      next positive =>
        simp only [returns_bind, returns_lift]
        refine (s.outputBuffer.retrieve_returns n within).mono fun out left => ?_
        have size := congrArg List.length left
        rw [OwnedBuffer.content_length, List.length_drop, OwnedBuffer.content_length] at size
        split
        next empty =>
          have ended := drained_eq (s := s.retrieved n out) mirrored
          have nothing : out.content = [] := List.eq_nil_of_length_eq_zero (out.content_length.trans empty)
          exact (congrArg (Returns (s.Writes (.count n))) ended).mpr
            (.last n out writing positive (by omega) nothing)
        next more => exact .part n out writing positive (by omega) left
      next zero =>
        obtain rfl : n = 0 := by omega
        exact .nothing _ writing (by simp)
  next quiet => exact .unasked answer (by simpa using quiet)

theorem handleWrite_writes (mirrored : s.Mirrored) (answer : WriteResult) :
    Safe (s.Writes answer) (s.handleWrite answer) := by
  by_cases possible : s.channel.isWriting = true → ∀ n, answer = .count n → n ≤ s.outputBuffer.readableBytes
  · exact (handleWrite_returns mirrored possible).safe
  · -- the kernel takes no more than it is offered
    push Not at possible
    obtain ⟨writing, n, rfl, beyond⟩ := possible
    rw [handleWrite, if_pos writing]
    simp only [safe_bind, safe_require]
    exact fun within => absurd within (by omega)

/-! ### What sending, writing and reading leave alone -/

/-- The functors that call the user and nothing else. -/
def Notice (f : ConnFunctor) : Prop := f = .writeCompleteCallback ∨ ∃ size, f = .highWaterMarkCallback size

/-- The mask of the channel may have changed, notices for the user may have been queued, and the
bytes on their way out have moved; everything else is as it was. -/
structure Touches (s t : Connection) : Prop where
  frame : t = { s with
    poller := t.poller, channel := t.channel, loop := t.loop, reading := t.reading
    outputBuffer := t.outputBuffer, wire := t.wire, processed := t.processed
    shutdowns := t.shutdowns, lateWrites := t.lateWrites }
  mask : (t.poller = s.poller ∧ t.channel = s.channel) ∨
    ∃ events, t.poller = (s.setMask events).poller ∧ t.channel = (s.setMask events).channel
  loop : ∃ notices, t.loop = { s.loop with pendingFunctors := s.loop.pendingFunctors ++ notices } ∧
    ∀ f ∈ notices, Notice f

/-- Nothing is queued. -/
theorem queues_nothing (l : EventLoop ConnFunctor) :
    ∃ notices, l = { l with pendingFunctors := l.pendingFunctors ++ notices } ∧ ∀ f ∈ notices, Notice f :=
  ⟨[], by simp, by simp⟩

theorem queues_notice (l : EventLoop ConnFunctor) {f : ConnFunctor} (notice : Notice f) :
    ∃ notices, l.queueInLoop f = { l with pendingFunctors := l.pendingFunctors ++ notices } ∧
      ∀ f ∈ notices, Notice f :=
  ⟨[f], rfl, by simpa using notice⟩

theorem Touches.refl (s : Connection) : Touches s s := ⟨rfl, Or.inl ⟨rfl, rfl⟩, queues_nothing s.loop⟩

theorem completed_touches (s : Connection) : Touches s s.completed := by
  unfold completed
  split
  · exact ⟨rfl, Or.inl ⟨rfl, rfl⟩, queues_notice s.loop (Or.inl rfl)⟩
  · exact .refl s

theorem buffered_touches (s : Connection) (rest : List Byte) : Touches s (s.buffered rest) := by
  unfold buffered crossHighWaterMark
  dsimp only
  split
  · have queued (size : Nat) := queues_notice s.loop (f := .highWaterMarkCallback size) (Or.inr ⟨size, rfl⟩)
    split
    · exact ⟨rfl, Or.inl ⟨rfl, rfl⟩, queued _⟩
    · exact ⟨rfl, Or.inr ⟨_, rfl, rfl⟩, queued _⟩
  · split
    · exact ⟨rfl, Or.inl ⟨rfl, rfl⟩, queues_nothing s.loop⟩
    · exact ⟨rfl, Or.inr ⟨_, rfl, rfl⟩, queues_nothing s.loop⟩

theorem keep_touches (s : Connection) (rest : List Byte) : Touches s (s.keep rest) := by
  unfold keep
  split
  · exact .refl s
  · exact s.buffered_touches rest

theorem drained_touches (s : Connection) : Touches s s.drained := by
  unfold drained completed
  dsimp only
  split
  · have queued := queues_notice s.loop (f := .writeCompleteCallback) (Or.inl rfl)
    split <;> exact ⟨rfl, Or.inr ⟨_, rfl, rfl⟩, queued⟩
  · split <;> exact ⟨rfl, Or.inr ⟨_, rfl, rfl⟩, queues_nothing s.loop⟩

theorem shutdownInLoop_touches (s : Connection) : Touches s s.shutdownInLoop := by
  unfold shutdownInLoop
  split
  · exact ⟨rfl, Or.inl ⟨rfl, rfl⟩, queues_nothing s.loop⟩
  · exact .refl s

theorem Sends.touches {m : Message} {answer : WriteResult} (sends : s.Sends m answer t) : Touches s t := by
  cases sends with
  | givenUp => exact .refl s
  | buffered =>
    have kept := keep_touches (s.take m) m.data
    exact ⟨kept.frame, kept.mask, kept.loop⟩
  | refused =>
    have kept := keep_touches ((s.take m).write []) m.data
    exact ⟨kept.frame, kept.mask, kept.loop⟩
  | lost => exact ⟨rfl, Or.inl ⟨rfl, rfl⟩, queues_nothing s.loop⟩
  | part n =>
    have kept := keep_touches ((s.take m).write (m.data.take n)) (m.data.drop n)
    exact ⟨kept.frame, kept.mask, kept.loop⟩
  | whole =>
    have noticed := completed_touches ((s.take m).write m.data)
    exact ⟨noticed.frame, noticed.mask, noticed.loop⟩

theorem Writes.touches {answer : WriteResult} (writes : s.Writes answer t) : Touches s t := by
  cases writes with
  | unasked => exact .refl s
  | nothing | part => exact ⟨rfl, Or.inl ⟨rfl, rfl⟩, queues_nothing s.loop⟩
  | last n out =>
    have drained := drained_touches (s.retrieved n out)
    exact ⟨drained.frame, drained.mask, drained.loop⟩

theorem SetsReading.touches (sets : s.SetsReading t) : Touches s t := by
  cases sets with
  | same => exact .refl s
  | start | stop => exact ⟨rfl, Or.inr ⟨_, rfl, rfl⟩, queues_nothing s.loop⟩

theorem Touches.mirrored (touches : Touches s t) (mirrored : s.Mirrored) : t.Mirrored := by
  rcases touches.mask with ⟨poller, channel⟩ | ⟨events, poller, channel⟩
  · rw [Mirrored, poller, channel]
    exact mirrored
  · rw [Mirrored, poller, channel]
    exact s.setMask_mirrored events

theorem Touches.inputBuffer (touches : Touches s t) : t.inputBuffer = s.inputBuffer :=
  congrArg (·.inputBuffer) touches.frame

/-! ### Steps -/

/-- What a request to send passes. -/
def Request.message : Request → Option (List Byte)
  | .send message => some message
  | .sendBuffer buf => some buf.content
  | _ => none

/-- Thread `t` is about to push `f`. -/
def entered (s : Connection) (t : Tid) (f : ConnFunctor) : Connection :=
  { s with loop := { s.loop with inFlight := Function.update s.loop.inFlight t (some f) } }

/-- `DoPendingFunctors` has taken the first functor, and `rest` is left. -/
def popped (s : Connection) (rest : List ConnFunctor) : Connection :=
  { s with loop := { s.loop with functors := rest } }

/-- `DoPendingFunctors` may call `f` next. -/
structure Next (s : Connection) (f : ConnFunctor) (rest : List ConnFunctor) : Prop where
  todo : s.todo = []
  running : s.loop.phase = .running
  functors : s.loop.functors = f :: rest

/-- `Loop()` has come to the channel. -/
def dispatching (s : Connection) : Connection :=
  { s with
    waiting := false
    current := true
    channel := { s.channel with eventHandling := true }
    todo := .handleRead :: .handleWrite :: s.todo }

/-- The end of `HandleEvent`. -/
def dispatched (s : Connection) : Connection :=
  { s with channel := { s.channel with eventHandling := false }, current := false }

/-- The server erases the connection, and queues its `ConnectDestroyed`. -/
def released (s : Connection) : Connection := { s with inMap := false }.queueInLoop .connectDestroyed

/-- What a step may do. -/
inductive Effect (s : Connection) : Action → Connection → Prop where
  -- requests on the loop thread
  | ignore (request : Request) (answer : WriteResult) : Effect s (.callInLoop request answer) s
  | sendNow (request : Request) (data : List Byte) (answer : WriteResult) (after : Connection) :
    request.message = some data → s.state = .kConnected →
    (s.accept ⟨none, data⟩).Sends ⟨none, data⟩ answer after → Effect s (.callInLoop request answer) after
  | shutdownNow (answer : WriteResult) : s.state = .kConnected →
    Effect s (.callInLoop .shutdown answer) { s with state := .kDisconnecting }.shutdownInLoop
  | forceCloseNow (answer : WriteResult) : s.Up →
    Effect s (.callInLoop .forceClose answer) ({ s with state := .kDisconnecting }.queueInLoop .forceCloseInLoop)
  | readNow (request : Request) (answer : WriteResult) (after : Connection) : s.SetsReading after →
    Effect s (.callInLoop request answer) after
  -- requests on other threads
  | ignoreCall (t : Tid) (request : Request) : Effect s (.call t request) s
  | sendLater (t : Tid) (request : Request) (data : List Byte) : request.message = some data →
    s.state = .kConnected → s.loop.inFlight t = none →
    Effect s (.call t request) ((s.accept ⟨some t, data⟩).entered t (.sendInLoop ⟨some t, data⟩))
  | shutdownLater (t : Tid) : s.state = .kConnected → s.loop.inFlight t = none →
    Effect s (.call t .shutdown) (entered { s with state := .kDisconnecting } t .shutdownInLoop)
  | forceCloseLater (t : Tid) : s.Up → s.loop.inFlight t = none →
    Effect s (.call t .forceClose) (entered { s with state := .kDisconnecting } t .forceCloseInLoop)
  | readLater (t : Tid) (request : Request) (f : ConnFunctor) : f = .startReadInLoop ∨ f = .stopReadInLoop →
    s.loop.inFlight t = none → Effect s (.call t request) (s.entered t f)
  | push (t : Tid) (f : ConnFunctor) : s.loop.inFlight t = some f →
    Effect s (.push t) { s with loop := { s.loop with
      pendingFunctors := s.loop.pendingFunctors ++ [f], inFlight := Function.update s.loop.inFlight t none } }
  -- the loop
  | poll : s.todo = [] → s.loop.phase = .polling → Effect s (.poll none)
      { s with loop := { s.loop with phase := .handling }, active := false, waiting := false }
  | report (revents : Events) : s.todo = [] → s.loop.phase = .polling → s.poller.Reports s.channel revents →
    Effect s (.poll (some revents)) { s with
      loop := { s.loop with phase := .handling }, channel := { s.channel with revents := revents }
      active := true, waiting := true }
  | dispatch : s.todo = [] → s.waiting = true → s.channel.hungUp = false → Effect s .dispatch s.dispatching
  | hangUp : s.todo = [] → s.waiting = true → s.channel.hungUp = true → s.Up →
    Effect s .dispatch s.dispatching.closed
  | swap : s.todo = [] → s.loop.phase = .handling → s.loop.functors = [] → Effect s .swap
      { s with loop := { s.loop with
          phase := .running, functors := s.loop.pendingFunctors, pendingFunctors := [] } }
  | finish : s.todo = [] → s.loop.phase = .running → s.loop.functors = [] →
    Effect s .finish { s with loop := { s.loop with phase := .polling } }
  -- the tasks of the loop thread
  | leave (read : ReadResult) (answer : WriteResult) (rest : List ConnTask) : s.todo = .user :: rest →
    Effect s (.resume read answer) { s with todo := rest }
  | establish (read : ReadResult) (answer : WriteResult) (rest : List ConnTask) :
    s.todo = .connectEstablished :: rest → s.state = .kConnecting →
    Effect s (.resume read answer) { s with todo := rest }.opened
  | reportClose (read : ReadResult) (answer : WriteResult) (rest : List ConnTask) :
    s.todo = .closeCallback :: rest → s.onBase = false → Effect s (.resume read answer)
      { s with todo := rest, closeCallbacks := s.closeCallbacks + 1, removals := s.removals + 1 }
  | releaseHere (read : ReadResult) (answer : WriteResult) (rest : List ConnTask) :
    s.todo = .closeCallback :: rest → s.onBase = true → s.inMap = true → Effect s (.resume read answer)
      (released { s with todo := rest, closeCallbacks := s.closeCallbacks + 1 })
  | remove (read : ReadResult) (answer : WriteResult) (rest : List ConnTask) : s.todo = .remove :: rest →
    Effect s (.resume read answer) (unlisted { s with todo := rest })
  | passRead (read : ReadResult) (answer : WriteResult) (rest : List ConnTask) : s.todo = .handleRead :: rest →
    s.channel.readable = false ∨ (∃ errno, read = .failed errno) →
    Effect s (.resume read answer) { s with todo := rest }
  | read (data : List Byte) (answer : WriteResult) (rest : List ConnTask) : s.todo = .handleRead :: rest →
    s.channel.readable = true → data ≠ [] → Effect s (.resume (.delivered data) answer)
      (invoke { s with todo := rest, inputBuffer := s.inputBuffer.readFd data })
  | readEnd (answer : WriteResult) (rest : List ConnTask) : s.todo = .handleRead :: rest →
    s.channel.readable = true → s.Up → Effect s (.resume (.delivered []) answer)
      (closed { s with todo := rest, inputBuffer := s.inputBuffer.readFd [] })
  | passWrite (read : ReadResult) (answer : WriteResult) (rest : List ConnTask) : s.todo = .handleWrite :: rest →
    Flags.has s.channel.revents epollOut = false →
    Effect s (.resume read answer) (dispatched { s with todo := rest })
  | write (read : ReadResult) (answer : WriteResult) (rest : List ConnTask) (after : Connection) :
    s.todo = .handleWrite :: rest → Flags.has s.channel.revents epollOut = true →
    Writes { s with todo := rest } answer after → Effect s (.resume read answer) after.dispatched
  -- the functors of the queue
  | runEstablished (answer : WriteResult) (rest : List ConnFunctor) : s.Next .connectEstablished rest →
    s.state = .kConnecting → Effect s (.next answer) (s.popped rest).opened
  | runDestroyed (answer : WriteResult) (rest : List ConnFunctor) : s.Next .connectDestroyed rest →
    s.state = .kConnected → Effect s (.next answer) (s.popped rest).destroyed
  | runRemoved (answer : WriteResult) (rest : List ConnFunctor) : s.Next .connectDestroyed rest →
    s.state ≠ .kConnected →
    Effect s (.next answer) (unlisted { s.popped rest with destroys := s.destroys + 1 })
  | runSend (m : Message) (answer : WriteResult) (rest : List ConnFunctor) (after : Connection) :
    s.Next (.sendInLoop m) rest → (s.popped rest).Sends m answer after → Effect s (.next answer) after
  | runShutdown (answer : WriteResult) (rest : List ConnFunctor) : s.Next .shutdownInLoop rest →
    Effect s (.next answer) (s.popped rest).shutdownInLoop
  | runForceClose (answer : WriteResult) (rest : List ConnFunctor) : s.Next .forceCloseInLoop rest → s.Up →
    Effect s (.next answer) (s.popped rest).closed
  | passForceClose (answer : WriteResult) (rest : List ConnFunctor) : s.Next .forceCloseInLoop rest → ¬ s.Up →
    Effect s (.next answer) (s.popped rest)
  | runRead (f : ConnFunctor) (answer : WriteResult) (rest : List ConnFunctor) (after : Connection) :
    s.Next f rest → f = .startReadInLoop ∨ f = .stopReadInLoop → (s.popped rest).SetsReading after →
    Effect s (.next answer) after
  | notify (f : ConnFunctor) (answer : WriteResult) (rest : List ConnFunctor) : s.Next f rest → Notice f →
    Effect s (.next answer) (s.popped rest).invoke
  -- the server, and user code at the input buffer
  | release : 0 < s.removals → s.inMap = true →
    Effect s .removeConnectionInLoop (released { s with removals := s.removals - 1 })
  | retrieve (len : Nat) (out : OwnedBuffer) : len ≤ s.inputBuffer.readableBytes →
    s.inputBuffer.retrieve len = .ok out → Effect s (.retrieveInput len) { s with inputBuffer := out }

/-! ### Nothing else happens -/

section Cases

variable (mirrored : s.Mirrored)
include mirrored

theorem handleClose_yields : Yields (fun t => s.Up ∧ t = s.closed) s.handleClose := by
  by_cases up : s.Up
  · rw [handleClose_eq mirrored up, yields_ok]
    exact ⟨up, rfl⟩
  · simp only [handleClose, yields_bind, yields_ensure]
    exact fun isUp => absurd isUp up

theorem connectEstablished_yields :
    Yields (fun t => s.state = .kConnecting ∧ t = s.opened) s.connectEstablished := by
  by_cases fresh : s.state = .kConnecting
  · rw [connectEstablished_eq mirrored fresh, yields_ok]
    exact ⟨fresh, rfl⟩
  · simp only [connectEstablished, yields_bind, yields_ensure]
    exact fun isFresh => absurd isFresh fresh

theorem callInLoop_effect (request : Request) (answer : WriteResult) :
    Yields (s.Effect (.callInLoop request answer)) (s.callInLoop answer request) := by
  have ignored : Yields (s.Effect (.callInLoop request answer)) (pure s : Comp ConnFault Connection) :=
    (yields_pure _ _).mpr (.ignore request answer)
  -- both forms of `Send` on the loop thread
  have sent (data : List Byte) (passes : request.message = some data) :
      Yields (s.Effect (.callInLoop request answer)) (if s.state = .kConnected then
        (s.accept ⟨none, data⟩).doSendInLoop ⟨none, data⟩ answer else return s) := by
    split
    next up =>
      refine (doSendInLoop_sends (s := s.accept ⟨none, data⟩) mirrored _ answer).yields.mono fun t sends => ?_
      exact .sendNow request data answer t passes up sends
    next => exact ignored
  cases request with
  | send data => exact sent data rfl
  | sendBuffer buf => exact sent buf.content rfl
  | shutdown =>
    simp only [callInLoop]
    split
    next up => exact (yields_pure _ _).mpr (.shutdownNow answer up)
    next => exact ignored
  | forceClose =>
    simp only [callInLoop]
    split
    next up => exact (yields_pure _ _).mpr (.forceCloseNow answer up)
    next => exact ignored
  | startRead => exact (startReadInLoop_returns mirrored).safe.yields.mono fun t => .readNow _ answer t
  | stopRead => exact (stopReadInLoop_returns mirrored).safe.yields.mono fun t => .readNow _ answer t

omit mirrored in
theorem call_effect (t : Tid) (request : Request) : Yields (s.Effect (.call t request)) (s.call t request) := by
  have ignored : Yields (s.Effect (.call t request)) (pure s : Comp ConnFault Connection) :=
    (yields_pure _ _).mpr (.ignoreCall t request)
  cases request with
  | send data =>
    simp only [call, enter, EventLoop.enter]
    split
    · simp only [yields_bind, yields_require, yields_pure]
      exact .sendLater t (.send data) data rfl ‹_›
    · exact ignored
  | sendBuffer buf =>
    simp only [call, enter, EventLoop.enter, OwnedBuffer.retrieveAllAsString_string]
    split
    · simp only [yields_bind, yields_require, yields_pure]
      exact .sendLater t (.sendBuffer buf) buf.content rfl ‹_›
    · exact ignored
  | shutdown =>
    simp only [call, enter, EventLoop.enter]
    split
    · simp only [yields_bind, yields_require, yields_pure]
      exact .shutdownLater t ‹_›
    · exact ignored
  | forceClose =>
    simp only [call, enter, EventLoop.enter]
    split
    · simp only [yields_bind, yields_require, yields_pure]
      exact .forceCloseLater t ‹_›
    · exact ignored
  | startRead =>
    simp only [call, enter, EventLoop.enter, yields_bind, yields_require, yields_pure]
    exact .readLater t _ _ (Or.inl rfl)
  | stopRead =>
    simp only [call, enter, EventLoop.enter, yields_bind, yields_require, yields_pure]
    exact .readLater t _ _ (Or.inr rfl)

theorem resume_effect (alive : Bool) (read : ReadResult) (answer : WriteResult) :
    Yields (s.Effect (.resume read answer)) (s.resume alive read answer) := by
  unfold resume
  -- by the task on top of the stack
  split
  · exact yields_error _ _
  next rest top => exact (yields_pure _ _).mpr (.leave read answer rest top)
  next rest top =>
    refine (connectEstablished_yields (s := { s with todo := rest }) mirrored).mono ?_
    rintro t ⟨fresh, rfl⟩
    exact .establish read answer rest top fresh
  next rest top =>
    simp only [removeConnection, yields_bind, yields_ensure]
    intro _
    -- on its own loop the server erases the connection at once
    split
    next onBase =>
      simp only [removeConnectionInLoop, yields_bind, yields_ensure, yields_pure]
      exact fun _ entry => .releaseHere read answer rest top onBase entry
    next away => exact (yields_pure _ _).mpr (.reportClose read answer rest top (by simpa using away))
  next rest top =>
    refine (removeChannel_yields (s := { s with todo := rest }) mirrored).mono ?_
    rintro t rfl
    exact .remove read answer rest top
  next rest top =>
    split
    next readable =>
      cases read with
      | failed errno => exact (yields_pure _ _).mpr (.passRead _ answer rest top (Or.inr ⟨errno, rfl⟩))
      | delivered data =>
        simp only [handleRead, yields_bind, yields_require]
        intro _
        -- `n > 0` calls the user, `n == 0` is the end of the file
        split
        next more =>
          exact (yields_pure _ _).mpr (.read data answer rest top readable (List.length_pos_iff.mp more))
        next ended =>
          obtain rfl : data = [] := by simpa using ended
          refine (handleClose_yields (s := { s with
            todo := rest, inputBuffer := s.inputBuffer.readFd [] }) mirrored).mono ?_
          rintro t ⟨up, rfl⟩
          exact .readEnd answer rest top readable up
    next unreadable =>
      exact (yields_pure _ _).mpr (.passRead read answer rest top (Or.inl (by simpa using unreadable)))
  next rest top =>
    dsimp only
    split
    next reported =>
      simp only [yields_bind, yields_pure]
      refine (handleWrite_writes (s := { s with todo := rest }) mirrored answer).yields.mono fun t writes => ?_
      exact .write read answer rest t top reported writes
    next unreported =>
      exact (yields_pure _ _).mpr (.passWrite read answer rest top (by simpa using unreported))

theorem next_effect (answer : WriteResult) : Yields (s.Effect (.next answer)) (s.next answer) := by
  simp only [next, EventLoop.next, yields_bind, yields_require]
  intro todo running
  split
  · exact yields_error _ _
  next f rest functors =>
    rw [yields_pure]
    have next : s.Next f rest := ⟨todo, running, functors⟩
    have same : (s.popped rest).Mirrored := mirrored
    change Yields _ ((s.popped rest).run f answer)
    cases f with
    | connectEstablished =>
      refine (connectEstablished_yields same).mono ?_
      rintro t ⟨fresh, rfl⟩
      exact .runEstablished answer rest next fresh
    | connectDestroyed =>
      -- a connection that is up is closed first; the channel of any other is removed at once
      by_cases connected : s.state = .kConnected
      · rw [run, connectDestroyed_eq same connected, yields_ok]
        exact .runDestroyed answer rest next connected
      · simp only [run, connectDestroyed]
        rw [if_neg (show (s.popped rest).state ≠ .kConnected from connected)]
        refine (removeChannel_yields (s := { s.popped rest with destroys := s.destroys + 1 }) mirrored).mono ?_
        rintro t rfl
        exact .runRemoved answer rest next connected
    | sendInLoop m =>
      exact (doSendInLoop_sends same m answer).yields.mono fun t => .runSend m answer rest t next
    | shutdownInLoop => exact (yields_pure _ _).mpr (.runShutdown answer rest next)
    | forceCloseInLoop =>
      simp only [run, forceCloseInLoop]
      split
      next up =>
        rw [handleClose_eq same up, yields_ok]
        exact .runForceClose answer rest next up
      next down => exact (yields_pure _ _).mpr (.passForceClose answer rest next down)
    | startReadInLoop =>
      refine (startReadInLoop_returns same).safe.yields.mono fun t => ?_
      exact .runRead _ answer rest t next (Or.inl rfl)
    | stopReadInLoop =>
      refine (stopReadInLoop_returns same).safe.yields.mono fun t => ?_
      exact .runRead _ answer rest t next (Or.inr rfl)
    | writeCompleteCallback => exact (yields_pure _ _).mpr (.notify _ answer rest next (Or.inl rfl))
    | highWaterMarkCallback size => exact (yields_pure _ _).mpr (.notify _ answer rest next (Or.inr ⟨size, rfl⟩))

/-- A step has one of the effects listed. -/
theorem step_effect (alive : Bool) (a : Action) : Yields (s.Effect a) (s.step alive a) := by
  cases a with
  | callInLoop request answer =>
    simp only [step, yields_bind, yields_require]
    exact fun _ => callInLoop_effect mirrored request answer
  | call t request =>
    simp only [step, yields_bind, yields_require]
    exact fun _ => call_effect t request
  | push t =>
    simp only [step, EventLoop.push, yields_bind]
    cases found : s.loop.inFlight t with
    | none => exact yields_error _ _
    | some f =>
      simp only [given, yields_ok, yields_pure]
      exact .push t f found
  | poll revents =>
    simp only [step, poll, EventLoop.poll, yields_bind, yields_require]
    intro todo polling
    cases revents with
    | none => exact (yields_pure _ _).mpr ((yields_pure _ _).mpr (.poll todo polling))
    | some revents =>
      simp only [yields_pure, yields_bind, yields_require, yields_lift, Epoll.fillActiveChannel, yields_ensure]
      exact fun reported _ _ => .report revents todo polling reported
  | dispatch =>
    simp only [step, dispatch, yields_bind, yields_require, handleEvent]
    rintro ⟨_, waits, todo⟩
    split
    next hungUp =>
      refine (handleClose_yields (s := s.dispatching) ⟨mirrored.listed, mirrored.kernel⟩).mono ?_
      rintro t ⟨up, rfl⟩
      exact .hangUp todo waits hungUp up
    next quiet => exact (yields_pure _ _).mpr (.dispatch todo waits (eq_false_of_ne_true quiet))
  | resume read answer => exact resume_effect mirrored alive read answer
  | swap =>
    simp only [step, EventLoop.swap, yields_bind, yields_require, yields_pure]
    exact fun ready swappable => .swap ready.1 swappable.1 swappable.2
  | next answer => exact next_effect mirrored answer
  | finish =>
    simp only [step, EventLoop.finish, yields_bind, yields_require, yields_pure]
    exact fun todo done => .finish todo done.1 done.2
  | removeConnectionInLoop =>
    simp only [step, removeConnectionInLoop, yields_bind, yields_require, yields_ensure, yields_pure]
    exact fun pending _ entry => .release pending entry
  | retrieveInput len =>
    simp only [step, yields_bind, yields_require, yields_lift, yields_pure]
    exact fun allowed out taken => .retrieve len out allowed.2 taken

end Cases

/-! ### What a step is about to do -/

/-- Whether an answer of `write(2)` in the action breaks the connection. -/
def Action.Breaks : Action → Prop
  | .callInLoop _ answer | .resume _ answer | .next answer => answer.Breaks
  | _ => False

instance (a : Action) : Decidable a.Breaks := by
  cases a <;> unfold Action.Breaks <;> infer_instance

/-- The functor a step runs on the loop thread, if it is one of those that may come too late. -/
def Action.runs (s : Connection) : Action → Option ConnFunctor
  | .callInLoop .startRead _ => some .startReadInLoop
  | .callInLoop .stopRead _ => some .stopReadInLoop
  | .next _ => s.loop.functors.head?
  | _ => none

/-- `HandleRead` is called and finds the end of the file. -/
def Action.readsEnd (s : Connection) : Action → Bool
  | .resume (.delivered []) _ => s.todo.head? = some .handleRead && s.channel.readable
  | _ => false

/-- The step calls `HandleClose`. -/
def Action.closes (s : Connection) (a : Action) : Bool :=
  a.readsEnd s || match a with
    | .dispatch => s.channel.hungUp
    | .next _ => s.loop.functors.head? = some .forceCloseInLoop &&
        (s.state = .kConnected || s.state = .kDisconnecting)
    | _ => false

/-- The step takes the connection down: it calls `HandleClose`, or the `ConnectDestroyed` of a
connection that is `kConnected`. -/
def Action.TakesDown (s : Connection) (a : Action) : Prop :=
  a.closes s = true ∨ (a.runs s = some .connectDestroyed ∧ s.state = .kConnected)

instance (s : Connection) (a : Action) : Decidable (a.TakesDown s) := inferInstanceAs (Decidable (_ ∨ _))

/-- The kernel takes all that waits. -/
def Drains (s : Connection) (answer : WriteResult) : Prop :=
  s.channel.isWriting = true ∧ 0 < s.outputBuffer.readableBytes ∧ answer = .count s.outputBuffer.readableBytes

/-- The step issues `shutdownWrite`: `Shutdown` on the loop thread and the functor
`ShutdownInLoop` where the channel does not ask for write events, and the `HandleWrite` that
empties the buffer of a connection that is leaving. -/
def Action.Shuts (s : Connection) : Action → Prop
  | .callInLoop .shutdown _ => s.state = .kConnected ∧ s.channel.isWriting = false
  | .next _ => s.loop.functors.head? = some .shutdownInLoop ∧ s.channel.isWriting = false
  | .resume _ answer => s.todo.head? = some .handleWrite ∧ Flags.has s.channel.revents epollOut = true ∧
    s.state = .kDisconnecting ∧ s.Drains answer
  | _ => False

instance (s : Connection) (answer : WriteResult) : Decidable (s.Drains answer) :=
  inferInstanceAs (Decidable (_ ∧ _))

instance (s : Connection) (a : Action) : Decidable (a.Shuts s) := by
  unfold Action.Shuts
  split <;> infer_instance

/-! ### The poller agrees with the channel in every run -/

theorem Effect.mirrored {a : Action} (effect : s.Effect a t) (mirrored : s.Mirrored) : t.Mirrored := by
  cases effect with
  | sendNow _ _ _ _ _ _ sends => exact sends.touches.mirrored mirrored
  | runSend _ _ _ _ _ sends => exact sends.touches.mirrored mirrored
  | shutdownNow => exact (shutdownInLoop_touches { s with state := .kDisconnecting }).mirrored mirrored
  | runShutdown _ rest => exact (s.popped rest).shutdownInLoop_touches.mirrored mirrored
  | readNow _ _ _ sets => exact sets.touches.mirrored mirrored
  | runRead _ _ _ _ _ _ sets => exact sets.touches.mirrored mirrored
  | write _ _ _ _ _ _ writes =>
    have kept := writes.touches.mirrored mirrored
    exact ⟨kept.listed, kept.kernel⟩
  | report | dispatch | passWrite => exact ⟨mirrored.listed, mirrored.kernel⟩
  | hangUp | readEnd | runForceClose | establish | runEstablished | runDestroyed => exact setMask_mirrored _ _
  | remove | runRemoved => exact unlisted_mirrored _
  | ignore | forceCloseNow | ignoreCall | sendLater | shutdownLater | forceCloseLater | readLater | push | poll
  | swap | finish | leave | reportClose | releaseHere | passRead | read | passForceClose | notify | release
  | retrieve => exact mirrored

theorem step_mirrored (mirrored : s.Mirrored) (alive : Bool) (a : Action) : Yields Mirrored (s.step alive a) :=
  (step_effect mirrored alive a).mono fun _ effect => effect.mirrored mirrored

theorem mirrored_start (cfg : ConnConfig) : (start cfg).Mirrored := ⟨rfl, rfl⟩

end Connection

end Rnet.Network
