import Rnet.Network.WriteInterest

/-!
# Flow control

A producer pauses on the high-water callback and resumes on the write-complete callback, so
neither may be missed or come twice. `DoSendInLoop` and `HandleWrite` are the two functions that
queue them. Both cut one stream, the backlog with the new message behind it, into what the kernel
accepts now and what waits; which callbacks a step queues is a matter of the backlog before and
after.
-/
namespace Rnet.Network

open Check File

/-- The functions that change the backlog, with the answer of the `write(2)` they may make. -/
inductive FlowAction where
  | doSendInLoop (message : Message) (answer : WriteResult)
  | handleWrite (answer : WriteResult)
  deriving DecidableEq, Repr

namespace FlowAction

def answer : FlowAction → WriteResult
  | .doSendInLoop _ answer | .handleWrite answer => answer

def messages : FlowAction → List Message
  | .doSendInLoop message _ => [message]
  | .handleWrite _ => []

/-- The bytes the step is handed. -/
def bytes (a : FlowAction) : List Byte := a.messages.flatMap Message.data

/-- The kernel accepted an empty message. -/
def WritesEmpty : FlowAction → Prop
  | .doSendInLoop message (.count _) => message.data = []
  | _ => False

instance (a : FlowAction) : Decidable a.WritesEmpty := by
  unfold WritesEmpty
  split <;> infer_instance

end FlowAction

namespace Connection

variable {mark : Nat} {s t : Connection} {a : FlowAction}

def flowStep (s : Connection) : FlowAction → Comp ConnFault Connection
  | .doSendInLoop message answer => s.doSendInLoop message answer
  | .handleWrite answer => s.handleWrite answer

def backlog (s : Connection) : Nat := s.outputBuffer.readableBytes

theorem backlog_eq (s : Connection) : s.backlog = s.outputBuffer.content.length :=
  s.outputBuffer.content_length.symm

/-- Where the step calls `write(2)`, the kernel accepts no more bytes than it is handed. -/
def Possible (s : Connection) : FlowAction → Prop
  | .doSendInLoop message (.count n) => s.backlog = 0 → n ≤ message.data.length
  | .handleWrite (.count n) => 0 < s.backlog → n ≤ s.backlog
  | _ => True

instance (s : Connection) (a : FlowAction) : Decidable (s.Possible a) := by
  unfold Possible
  split <;> infer_instance

/-- The answers of `write(2)` other than the errors that break a connection. -/
def Answered (s : Connection) (a : FlowAction) : Prop := ¬ a.answer.Breaks ∧ s.Possible a

instance (s : Connection) (a : FlowAction) : Decidable (s.Answered a) := inferInstanceAs (Decidable (_ ∧ _))

/-- The functors queued between two states. -/
def queuedSince (s t : Connection) : List ConnFunctor := t.loop.queued.drop s.loop.queued.length

/-- The step ends with an empty backlog because the kernel accepted the last outstanding byte, or
a message that was written directly and may have been empty. -/
def Completes (s : Connection) (a : FlowAction) (t : Connection) : Prop :=
  t.backlog = 0 ∧ (s.wire.length < t.wire.length ∨ a.WritesEmpty ∧ s.backlog = 0)

instance (s : Connection) (a : FlowAction) (t : Connection) : Decidable (Completes s a t) :=
  inferInstanceAs (Decidable (_ ∧ _))

/-- The step takes the backlog from below the mark to `size` or more. -/
def Crosses (mark : Nat) (s t : Connection) (size : Nat) : Prop :=
  s.backlog < mark ∧ mark ≤ size ∧ t.backlog = size

instance (mark : Nat) (s t : Connection) (size : Nat) : Decidable (Crosses mark s t size) :=
  inferInstanceAs (Decidable (_ ∧ _))

/-- The step queues the callbacks its effect on the backlog calls for, each once, and no other. -/
structure Exact (mark : Nat) (s : Connection) (a : FlowAction) (t : Connection) : Prop where
  appended : t.loop.queued = s.loop.queued ++ s.queuedSince t
  highWater : ∀ size, (s.queuedSince t).count (.highWaterMarkCallback size) =
    if Crosses mark s t size then 1 else 0
  writeComplete : (s.queuedSince t).count .writeCompleteCallback = if Completes s a t then 1 else 0
  /-- Where a write-complete callback is queued nothing waits, and the kernel has all that
  `DoSendInLoop` was handed. -/
  delivered : .writeCompleteCallback ∈ s.queuedSince t →
    t.backlog = 0 ∧ t.wire = t.processed.flatMap Message.data

/-- What the two functions preserve on a connection that is up and has both callbacks. -/
structure Flowing (mark : Nat) (s : Connection) : Prop where
  up : s.state = .kConnected ∨ s.state = .kDisconnecting
  mirrored : s.Mirrored
  tracks : s.channel.isWriting = true ↔ s.outputBuffer.content ≠ []
  bytes : s.wire ++ s.outputBuffer.content = s.processed.flatMap Message.data
  writeCompleteCallback : s.writeCompleteCallback = true
  highWaterMarkCallback : s.highWaterMarkCallback = true
  highWaterMark : s.highWaterMark = mark

/-! ### What a step does -/

/-- What neither function changes. -/
structure SameSettings (s t : Connection) : Prop where
  state : t.state = s.state
  writeCompleteCallback : t.writeCompleteCallback = s.writeCompleteCallback
  highWaterMarkCallback : t.highWaterMarkCallback = s.highWaterMarkCallback
  highWaterMark : t.highWaterMark = s.highWaterMark

/-- The functors a step queues, by its effect. -/
def notices (mark : Nat) (s : Connection) (a : FlowAction) (t : Connection) : List ConnFunctor :=
  (if Completes s a t then [.writeCompleteCallback] else []) ++
    if s.backlog < mark ∧ mark ≤ t.backlog then [.highWaterMarkCallback t.backlog] else []

/-- The kernel accepts the first `n` bytes of the backlog and what the step brings; the rest
waits. -/
structure Moves (mark : Nat) (s : Connection) (a : FlowAction) (n : Nat) (t : Connection) : Prop
    extends SameSettings s t where
  mirrored : t.Mirrored
  tracks : t.channel.isWriting = true ↔ t.outputBuffer.content ≠ []
  processed : t.processed = s.processed ++ a.messages
  wire : t.wire = s.wire ++ (s.outputBuffer.content ++ a.bytes).take n
  content : t.outputBuffer.content = (s.outputBuffer.content ++ a.bytes).drop n
  queued : t.loop.queued = s.loop.queued ++ notices mark s a t

theorem Moves.flowing {n : Nat} (moves : Moves mark s a n t) (flowing : Flowing mark s) : Flowing mark t where
  up := by rw [moves.state]; exact flowing.up
  mirrored := moves.mirrored
  tracks := moves.tracks
  bytes := by
    rw [moves.wire, moves.content, moves.processed, List.append_assoc, List.take_append_drop,
      ← List.append_assoc, flowing.bytes, List.flatMap_append]
    rfl
  writeCompleteCallback := moves.toSameSettings.writeCompleteCallback.trans flowing.writeCompleteCallback
  highWaterMarkCallback := moves.toSameSettings.highWaterMarkCallback.trans flowing.highWaterMarkCallback
  highWaterMark := moves.toSameSettings.highWaterMark.trans flowing.highWaterMark

theorem Moves.queuedSince_eq {n : Nat} (moves : Moves mark s a n t) : s.queuedSince t = notices mark s a t := by
  rw [queuedSince, moves.queued, List.drop_left]

/-- The backlog and the wire decide what a step queues. -/
theorem Moves.exact {n : Nat} (moves : Moves mark s a n t) (flowing : Flowing mark s) : Exact mark s a t where
  appended := by rw [moves.queuedSince_eq]; exact moves.queued
  highWater size := by
    rw [moves.queuedSince_eq]
    by_cases crossed : s.backlog < mark ∧ mark ≤ t.backlog
    · -- the callback is queued with the new backlog, and with no other size
      by_cases same : t.backlog = size
      · subst same
        simp [notices, Crosses, crossed, apply_ite (List.count _)]
      · simp [notices, Crosses, same, crossed, apply_ite (List.count _)]
    · have uncrossed : ¬ Crosses mark s t size := by
        rintro ⟨low, high, rfl⟩
        exact crossed ⟨low, high⟩
      simp [notices, uncrossed, crossed, apply_ite (List.count _)]
  writeComplete := by
    rw [moves.queuedSince_eq]
    simp [notices, apply_ite (List.count _)]
  delivered := by
    rw [moves.queuedSince_eq]
    intro queued
    have completes : Completes s a t := by
      by_contra absent
      simp [notices, absent] at queued
    have empty : t.outputBuffer.content = [] := List.eq_nil_of_length_eq_zero (t.backlog_eq ▸ completes.1)
    have bytes := (moves.flowing flowing).bytes
    rw [empty, List.append_nil] at bytes
    exact ⟨completes.1, bytes⟩

/-! ### What is queued -/

theorem completed_queued (set : s.writeCompleteCallback = true) :
    s.completed.loop.queued = s.loop.queued ++ [.writeCompleteCallback] := by
  rw [completed, if_pos set]
  exact EventLoop.queueInLoop_queued _ _

theorem crossHighWaterMark_queued (set : s.highWaterMarkCallback = true) (remaining : Nat) :
    (s.crossHighWaterMark remaining).loop.queued = s.loop.queued ++
      if s.backlog < s.highWaterMark ∧ s.highWaterMark ≤ s.backlog + remaining then
        [.highWaterMarkCallback (s.backlog + remaining)] else [] := by
  unfold crossHighWaterMark
  dsimp only
  by_cases crossed : s.backlog < s.highWaterMark ∧ s.highWaterMark ≤ s.backlog + remaining
  · rw [if_pos crossed, if_pos ⟨crossed.2, crossed.1, set⟩]
    exact EventLoop.queueInLoop_queued _ _
  · have stays : ¬ (s.highWaterMark ≤ s.outputBuffer.readableBytes + remaining ∧
        s.outputBuffer.readableBytes < s.highWaterMark ∧ s.highWaterMarkCallback = true) :=
      fun h => crossed ⟨h.2.1, h.1⟩
    rw [if_neg crossed, if_neg stays, List.append_nil]

/-- An empty rest is not kept, which is the same as keeping it. -/
theorem keep_queued (set : s.highWaterMarkCallback = true) (rest : List Byte) :
    (s.keep rest).loop.queued = s.loop.queued ++
      if s.backlog < s.highWaterMark ∧ s.highWaterMark ≤ s.backlog + rest.length then
        [.highWaterMarkCallback (s.backlog + rest.length)] else [] := by
  by_cases nothing : rest = []
  · subst nothing
    have stays : ¬ (s.backlog < s.highWaterMark ∧ s.highWaterMark ≤ s.backlog) := by omega
    rw [keep_nil, List.length_nil, Nat.add_zero, if_neg stays, List.append_nil]
  · rw [keep, if_neg nothing, ← crossHighWaterMark_queued set, buffered]
    dsimp only
    split <;> rfl

/-- The end of `HandleWrite` moves no bytes. -/
theorem drained_output (s : Connection) : s.drained.wire = s.wire ∧ s.drained.processed = s.processed ∧
    s.drained.outputBuffer = s.outputBuffer := by
  unfold drained completed
  dsimp only
  split <;> split <;> exact ⟨rfl, rfl, rfl⟩

theorem drained_queued (set : s.writeCompleteCallback = true) :
    s.drained.loop.queued = s.loop.queued ++ [.writeCompleteCallback] := by
  have queued := completed_queued (s := s.setMask (s.channel.events &&& ~~~kWriteEvent)) set
  unfold drained
  dsimp only
  split <;> exact queued

/-! ### Sending -/

theorem Touches.settings (touches : Touches s t) : SameSettings s t :=
  ⟨congrArg (·.state) touches.frame, congrArg (·.writeCompleteCallback) touches.frame,
    congrArg (·.highWaterMarkCallback) touches.frame, congrArg (·.highWaterMark) touches.frame⟩

theorem Flowing.notDown (flowing : Flowing mark s) : s.state ≠ .kDisconnected := by
  rcases flowing.up with h | h <;> simp [h]

theorem Sends.tracks {m : Message} {answer : WriteResult} (sends : s.Sends m answer t) (flowing : Flowing mark s) :
    t.channel.isWriting = true ↔ t.outputBuffer.content ≠ [] := by
  -- the message is as good as taken from the queue
  have origin : OutStream.Origin { s.view with queue := .message m :: s.view.queue } m s.view := .queued _ rfl
  have interested : t.view.Interested :=
    OutStream.Interested.move (sends.move (p := anything) origin fun _ => trivial) fun _ => flowing.tracks
  exact interested fun down => flowing.notDown (sends.touches.settings.state.symm.trans down)

theorem idle_iff_empty (flowing : Flowing mark s) : s.Idle ↔ s.outputBuffer.content = [] := by
  rw [idle_iff, OutStream.direct_iff]
  refine ⟨fun direct => direct.2, fun empty => ⟨?_, empty⟩⟩
  have quiet : s.channel.isWriting = false := by simpa [empty] using flowing.tracks
  exact quiet

/-- The rest of a message waits after its first `n` bytes were written; with something before it
`n` is zero. -/
theorem keep_moves (flowing : Flowing mark s) {m : Message} {answer : WriteResult} {n : Nat} {u : Connection}
    (sends : s.Sends m answer (u.keep (m.data.drop n))) (same : u.toTcpConnection = s.toTcpConnection)
    (loop : u.loop = s.loop) (processed : u.processed = s.processed ++ [m])
    (wire : u.wire = s.wire ++ m.data.take n) (direct : s.outputBuffer.content = [] ∨ n = 0)
    (incomplete : ¬ Completes s (.doSendInLoop m answer) (u.keep (m.data.drop n))) :
    Moves mark s (.doSendInLoop m answer) n (u.keep (m.data.drop n)) := by
  have bytes : (FlowAction.doSendInLoop m answer).bytes = m.data := by
    simp [FlowAction.bytes, FlowAction.messages]
  have set : u.highWaterMarkCallback = true := by rw [same]; exact flowing.highWaterMarkCallback
  have queued := keep_queued set (m.data.drop n)
  have seen := keep_view u (m.data.drop n)
  have settings := sends.touches.settings
  have mirrored := sends.touches.mirrored flowing.mirrored
  have tracks := sends.tracks flowing
  generalize u.keep (m.data.drop n) = t at *
  have content : t.outputBuffer.content = s.outputBuffer.content ++ m.data.drop n := by
    rw [← same]
    exact congrArg OutStream.backlog seen
  have size : t.backlog = s.backlog + (m.data.drop n).length := by
    rw [backlog_eq, content, List.length_append, backlog_eq]
  refine ⟨settings, mirrored, tracks, ?_, ?_, ?_, ?_⟩
  · exact (congrArg OutStream.processed seen).trans processed
  · refine ((congrArg OutStream.wire seen).trans wire).trans ?_
    rw [bytes]
    rcases direct with empty | rfl
    · rw [empty, List.nil_append]
    · rw [List.take_zero, List.take_zero]
  · rw [content, bytes]
    rcases direct with empty | rfl
    · rw [empty, List.nil_append, List.nil_append]
    · rw [List.drop_zero, List.drop_zero]
  · have marks : u.highWaterMark = mark := by rw [same]; exact flowing.highWaterMark
    have before : u.backlog = s.backlog := by rw [Connection.backlog, same, Connection.backlog]
    rw [queued, loop, marks, before, notices, if_neg incomplete, size, List.nil_append]

theorem Sends.moves {m : Message} {answer : WriteResult} (sends : s.Sends m answer t) (flowing : Flowing mark s)
    (works : ¬ answer.Breaks) : ∃ n, Moves mark s (.doSendInLoop m answer) n t := by
  have nothing (idle : s.Idle) : s.outputBuffer.content = [] := (idle_iff_empty flowing).mp idle
  have again := sends
  cases sends with
  | givenUp _ down => exact absurd down flowing.notDown
  | lost _ _ _ breaks => exact absurd breaks works
  | buffered _ _ waits =>
    refine ⟨0, keep_moves (u := s.take m) flowing again rfl rfl rfl (List.append_nil _).symm (Or.inr rfl) ?_⟩
    -- something waited before
    rintro ⟨empty, _⟩
    have content : ((s.take m).keep m.data).outputBuffer.content = s.outputBuffer.content ++ m.data :=
      congrArg OutStream.backlog (keep_view (s.take m) m.data)
    have left : s.outputBuffer.content = [] := by
      rw [List.drop_zero, backlog_eq, content, List.length_append, Nat.add_eq_zero_iff] at empty
      exact List.eq_nil_of_length_eq_zero empty.1
    exact waits ((idle_iff_empty flowing).mpr left)
  | refused errno _ idle =>
    refine ⟨0, keep_moves (u := (s.take m).write []) flowing again rfl rfl rfl rfl (Or.inr rfl) ?_⟩
    -- nothing was written
    rintro ⟨_, grown | ⟨accepted, _⟩⟩
    · have wire : (((s.take m).write []).keep m.data).wire = s.wire ++ [] :=
        congrArg OutStream.wire (keep_view ((s.take m).write []) m.data)
      rw [List.drop_zero, wire, List.append_nil] at grown
      exact Nat.lt_irrefl _ grown
    · exact accepted
  | part n _ idle less =>
    refine ⟨n, keep_moves (u := (s.take m).write (m.data.take n)) flowing again rfl rfl rfl rfl
      (Or.inl (nothing idle)) ?_⟩
    -- something is left
    rintro ⟨empty, _⟩
    have content : (((s.take m).write (m.data.take n)).keep (m.data.drop n)).outputBuffer.content =
        s.outputBuffer.content ++ m.data.drop n :=
      congrArg OutStream.backlog (keep_view ((s.take m).write (m.data.take n)) (m.data.drop n))
    rw [backlog_eq, content, List.length_append, List.length_drop] at empty
    omega
  | whole _ idle =>
    have empty := nothing idle
    have seen := completed_view ((s.take m).write m.data)
    have queued := completed_queued (s := (s.take m).write m.data) flowing.writeCompleteCallback
    have settings := again.touches.settings
    have mirrored := again.touches.mirrored flowing.mirrored
    have tracks := again.tracks flowing
    have bytes : (FlowAction.doSendInLoop m (.count m.data.length)).bytes = m.data := by
      simp [FlowAction.bytes, FlowAction.messages]
    generalize ((s.take m).write m.data).completed = t at *
    have wire : t.wire = s.wire ++ m.data := congrArg OutStream.wire seen
    have content : t.outputBuffer.content = s.outputBuffer.content := congrArg OutStream.backlog seen
    have before : s.backlog = 0 := by rw [backlog_eq, empty]; rfl
    have after : t.backlog = 0 := by rw [backlog_eq, content, empty]; rfl
    -- an empty message is accepted whole by a `write` of nothing
    have completes : Completes s (.doSendInLoop m (.count m.data.length)) t := by
      refine ⟨after, ?_⟩
      rw [wire, List.length_append]
      by_cases written : m.data = []
      · exact Or.inr ⟨written, before⟩
      · have positive := List.length_pos_iff.mpr written
        exact Or.inl (by omega)
    refine ⟨m.data.length, settings, mirrored, tracks, congrArg OutStream.processed seen, ?_, ?_, ?_⟩
    · rw [wire, bytes, empty, List.nil_append, List.take_length]
    · rw [content, bytes, empty, List.nil_append, List.drop_length]
    · have stays : ¬ (s.backlog < mark ∧ mark ≤ t.backlog) := by omega
      rw [queued, notices, if_pos completes, if_neg stays, List.append_nil]
      rfl

theorem doSendInLoop_moves (flowing : Flowing mark s) {message : Message} {answer : WriteResult}
    (works : ¬ answer.Breaks) (possible : s.Possible (.doSendInLoop message answer)) :
    Returns (fun t => ∃ n, Moves mark s (.doSendInLoop message answer) n t) (s.doSendInLoop message answer) := by
  have within : s.Idle → ∀ n, answer = .count n → n ≤ message.data.length := by
    rintro idle n rfl
    exact possible (by rw [backlog_eq, (idle_iff_empty flowing).mp idle]; rfl)
  exact (doSendInLoop_returns flowing.mirrored message within).mono fun t sends => sends.moves flowing works

/-! ### Writing the backlog -/

theorem Writes.tracks {answer : WriteResult} (writes : s.Writes answer t) (flowing : Flowing mark s) :
    t.channel.isWriting = true ↔ t.outputBuffer.content ≠ [] := by
  have steps : OutStream.Steps anything s.view t.view := writes.steps fun _ _ => trivial
  have interested : t.view.Interested :=
    steps.keeps (fun v u => OutStream.Interested.step) fun _ => flowing.tracks
  exact interested fun down => flowing.notDown (writes.touches.settings.state.symm.trans down)

/-- Nothing leaves the buffer. -/
theorem Writes.moves_nothing {answer : WriteResult} (writes : s.Writes answer t) (flowing : Flowing mark s)
    (processed : t.processed = s.processed) (wire : t.wire = s.wire) (loop : t.loop = s.loop)
    (output : t.outputBuffer = s.outputBuffer) : Moves mark s (.handleWrite answer) 0 t := by
  have backlog : t.backlog = s.backlog := congrArg OwnedBuffer.readableBytes output
  have incomplete : ¬ Completes s (.handleWrite answer) t := by
    rintro ⟨_, grown | ⟨accepted, _⟩⟩
    · rw [wire] at grown
      exact Nat.lt_irrefl _ grown
    · exact accepted
  have stays : ¬ (s.backlog < mark ∧ mark ≤ t.backlog) := by omega
  refine ⟨writes.touches.settings, writes.touches.mirrored flowing.mirrored, writes.tracks flowing, ?_, ?_, ?_, ?_⟩
  · rw [processed]
    exact (List.append_nil _).symm
  · rw [wire]
    exact (List.append_nil _).symm
  · rw [output]
    exact (List.append_nil _).symm
  · rw [notices, if_neg incomplete, if_neg stays, loop]
    exact (List.append_nil _).symm

/-- The first `n` bytes leave the buffer. -/
theorem Writes.moves_some {n : Nat} (writes : s.Writes (.count n) t) (flowing : Flowing mark s) (positive : 0 < n)
    (within : n ≤ s.backlog) (processed : t.processed = s.processed)
    (wire : t.wire = s.wire ++ s.outputBuffer.content.take n)
    (content : t.outputBuffer.content = s.outputBuffer.content.drop n)
    (queued : t.loop.queued = s.loop.queued ++ if t.backlog = 0 then [.writeCompleteCallback] else []) :
    Moves mark s (.handleWrite (.count n)) n t := by
  have size := s.backlog_eq
  have left : t.backlog = s.backlog - n := by rw [backlog_eq, content, List.length_drop, size]
  have grown : s.wire.length < t.wire.length := by
    rw [wire, List.length_append, List.length_take]
    omega
  have completes : Completes s (.handleWrite (.count n)) t ↔ t.backlog = 0 :=
    ⟨fun done => done.1, fun empty => ⟨empty, Or.inl grown⟩⟩
  have stays : ¬ (s.backlog < mark ∧ mark ≤ t.backlog) := by omega
  have bytes : (FlowAction.handleWrite (.count n)).bytes = [] := rfl
  refine ⟨writes.touches.settings, writes.touches.mirrored flowing.mirrored, writes.tracks flowing, ?_, ?_, ?_, ?_⟩
  · rw [processed]
    exact (List.append_nil _).symm
  · rw [wire, bytes, List.append_nil]
  · rw [content, bytes, List.append_nil]
  · simp only [queued, notices, completes, if_neg stays, List.append_nil]

theorem Writes.moves {answer : WriteResult} (writes : s.Writes answer t) (flowing : Flowing mark s) :
    ∃ n, Moves mark s (.handleWrite answer) n t := by
  have again := writes
  cases writes with
  | unasked => exact ⟨0, again.moves_nothing flowing rfl rfl rfl rfl⟩
  | nothing => exact ⟨0, again.moves_nothing flowing rfl (List.append_nil _) rfl rfl⟩
  | part n out _ positive less content =>
    refine ⟨n, again.moves_some flowing positive less.le rfl rfl content ?_⟩
    have waits : (s.retrieved n out).backlog ≠ 0 := by
      have size := congrArg List.length content
      rw [OwnedBuffer.content_length, List.length_drop, OwnedBuffer.content_length] at size
      change out.readableBytes ≠ 0
      omega
    rw [if_neg waits, List.append_nil]
    rfl
  | last n out _ positive all nothing =>
    obtain ⟨wire, processed, output⟩ := drained_output (s.retrieved n out)
    have queued := drained_queued (s := s.retrieved n out) flowing.writeCompleteCallback
    have content : out.content = s.outputBuffer.content.drop n := by
      rw [nothing, all, ← OwnedBuffer.content_length, List.drop_length]
    refine ⟨n, again.moves_some flowing positive all.le processed wire (output ▸ content) ?_⟩
    have empty : (s.retrieved n out).drained.backlog = 0 := by
      rw [backlog_eq, output]
      exact congrArg List.length nothing
    rw [if_pos empty]
    exact queued

theorem handleWrite_moves (flowing : Flowing mark s) {answer : WriteResult}
    (possible : s.Possible (.handleWrite answer)) :
    Returns (fun t => ∃ n, Moves mark s (.handleWrite answer) n t) (s.handleWrite answer) := by
  have within : s.channel.isWriting = true → ∀ n, answer = .count n → n ≤ s.outputBuffer.readableBytes := by
    rintro writing n rfl
    apply possible
    rw [backlog_eq]
    exact List.length_pos_iff.mpr (flowing.tracks.mp writing)
  exact (handleWrite_returns flowing.mirrored within).mono fun t writes => writes.moves flowing

/-! ### Every run -/

theorem flowStep_exact (flowing : Flowing mark s) (answered : s.Answered a) :
    Returns (fun t => Flowing mark t ∧ Exact mark s a t) (s.flowStep a) := by
  have moves : Returns (fun t => ∃ n, Moves mark s a n t) (s.flowStep a) := by
    cases a with
    | doSendInLoop message answer => exact doSendInLoop_moves flowing answered.1 answered.2
    | handleWrite answer => exact handleWrite_moves flowing answered.2
  refine moves.mono ?_
  rintro t ⟨n, moves⟩
  exact ⟨moves.flowing flowing, moves.exact flowing⟩

/-- A connection that is up and has lost no message is fit for flow control. -/
theorem flowing_of_run (alive : Bool) (cfg : ConnConfig) (acts : List Action) (s : Connection)
    (works : ∀ a ∈ acts, ¬ a.Breaks) (reached : Run.exec (step alive) (start cfg) acts = .ok s)
    (up : s.state = .kConnected ∨ s.state = .kDisconnecting) (complete : s.writeCompleteCallback = true)
    (high : s.highWaterMarkCallback = true) : Flowing s.highWaterMark s := by
  have meets : Run.Meets (step alive) (fun _ a => ¬ a.Breaks) (start cfg) acts :=
    Run.meets_of_forall _ acts fun _ a member => works a member
  have whole := Run.exec_keeps (step_whole alive) (start cfg) s acts (whole_start cfg) meets reached
  have notDown : s.state ≠ .kDisconnected := by rcases up with h | h <;> simp [h]
  exact ⟨up, whole.mirrored, whole.intact.writing notDown, whole.intact.bytes notDown, complete, high, rfl⟩

/-- Some high-water callback was queued between the two states. -/
def HighWater (s t : Connection) : Prop := ∃ size, .highWaterMarkCallback size ∈ s.queuedSince t

theorem Exact.crossed (exact : Exact mark s a t) (high : HighWater s t) : s.backlog < mark ∧ mark ≤ t.backlog := by
  obtain ⟨size, member⟩ := high
  have counted := List.count_pos_iff.mpr member
  rw [exact.highWater] at counted
  by_cases crosses : Crosses mark s t size
  · obtain ⟨low, high, rfl⟩ := crosses
    exact ⟨low, high⟩
  · rw [if_neg crosses] at counted
    exact absurd counted (Nat.lt_irrefl 0)

/-- In every run of `DoSendInLoop` and `HandleWrite` on a connection that is up, has both
callbacks and has lost no message, whatever `write(2)` answers except `EPIPE` and `ECONNRESET`:
each step returns and queues exactly the callbacks its effect on the backlog calls for, and
between two high-water callbacks the backlog has been below the mark again. -/
theorem callbacks_exact (alive : Bool) (cfg : ConnConfig) (acts : List Action) (s₀ : Connection)
    (works : ∀ a ∈ acts, ¬ a.Breaks) (reached : Run.exec (step alive) (start cfg) acts = .ok s₀)
    (up : s₀.state = .kConnected ∨ s₀.state = .kDisconnecting) (complete : s₀.writeCompleteCallback = true)
    (high : s₀.highWaterMarkCallback = true) (steps : List FlowAction)
    (answered : Run.Meets flowStep Answered s₀ steps) :
    Run.Each flowStep (Exact s₀.highWaterMark) s₀ steps ∧
    ∀ first a middle b rest s t u w, steps = first ++ a :: (middle ++ b :: rest) →
      Run.exec flowStep s₀ first = .ok s → s.flowStep a = .ok t → HighWater s t →
      Run.exec flowStep t middle = .ok u → u.flowStep b = .ok w → HighWater u w →
      s₀.highWaterMark ≤ t.backlog ∧ u.backlog < s₀.highWaterMark := by
  have flowing := flowing_of_run alive cfg acts s₀ works reached up complete high
  have each : Run.Each flowStep (Exact s₀.highWaterMark) s₀ steps :=
    Run.each_of_step (fun s a => flowStep_exact) s₀ steps flowing answered
  refine ⟨each, ?_⟩
  rintro first a middle b rest s t u w rfl before taken raised between next again
  obtain ⟨first, later⟩ := each.step_at before taken
  obtain ⟨second, _⟩ := later.step_at between next
  exact ⟨(first.crossed raised).2, (second.crossed again).1⟩

/-- A connection with a mark of two bytes. -/
def lowMark : ConnConfig := { ownLoop with highWaterMark := 2 }

/-- Twice the kernel leaves two bytes of a message to wait, and takes them later. -/
def pauseAndResume : List FlowAction :=
  [.doSendInLoop ⟨none, [1, 2, 3]⟩ (.count 1), .handleWrite (.count 2), .doSendInLoop ⟨none, []⟩ (.count 0),
    .doSendInLoop ⟨none, [4, 5]⟩ (.failed .ewouldblock), .handleWrite (.count 2)]

theorem callbacks_exact_pauseAndResume :
    ∃ s₀, Run.exec (step true) (start lowMark) [.resume (.delivered []) (.count 0)] = .ok s₀ ∧
      s₀.state = .kConnected ∧ Run.Meets flowStep Answered s₀ pauseAndResume ∧
      (Run.exec flowStep s₀ pauseAndResume).toOption.map (fun t => t.loop.queued) =
        some [.highWaterMarkCallback 2, .writeCompleteCallback, .writeCompleteCallback, .highWaterMarkCallback 2,
          .writeCompleteCallback] ∧
      Run.Each flowStep (Exact 2) s₀ pauseAndResume := by
  have works : ∀ a ∈ [Action.resume (.delivered []) (.count 0)], ¬ a.Breaks := by decide
  have last : (Run.exec (step true) (start lowMark) [.resume (.delivered []) (.count 0)]).toOption.map
      (fun s => (s.state, s.writeCompleteCallback, s.highWaterMarkCallback, s.highWaterMark,
        decide (Run.Meets flowStep Answered s pauseAndResume ∧
          (Run.exec flowStep s pauseAndResume).toOption.map (fun t => t.loop.queued) =
            some [.highWaterMarkCallback 2, .writeCompleteCallback, .writeCompleteCallback,
              .highWaterMarkCallback 2, .writeCompleteCallback]))) =
      some (.kConnected, true, true, 2, true) := by decide +kernel
  obtain ⟨s₀, reached, ended⟩ := returned_of_map last
  simp only [Prod.mk.injEq, decide_eq_true_eq] at ended
  obtain ⟨up, complete, high, mark, answered, queued⟩ := ended
  have each := (callbacks_exact true lowMark _ s₀ works reached (Or.inl up) complete high pauseAndResume answered).1
  rw [mark] at each
  exact ⟨s₀, reached, up, answered, queued, each⟩

end Connection

end Rnet.Network
