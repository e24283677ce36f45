import Rnet.Network.TcpConnectionOutput

/-!
# What happens to the bytes of a connection

Two results about every run of a connection. The first follows from the integrity of the
outgoing stream: what the kernel has and what waits are the messages that were processed, one
after another, in an order that keeps each sender's own. The second is about `Shutdown`.
-/
namespace Rnet.Network.Connection

open Check File
open OutStream (Permits Labelled Intact)

/-! ### Integrity of the stream -/

/-- No message is lost to a broken connection; the rest may happen. -/
def unbroken : Permits := ⟨fun _ => True, False, True⟩

/-- What the steps that lose nothing preserve. -/
structure Whole (s : Connection) : Prop where
  mirrored : s.Mirrored
  labelled : Labelled s.view
  intact : Intact s.view

/-- `ConnectEstablished` may be queued, which is not for the outgoing half. -/
theorem queue_start (cfg : ConnConfig) : (start cfg).view.queue = [] := by
  unfold view start
  cases cfg.onBase <;> rfl

theorem inFlight_start (cfg : ConnConfig) (t : Tid) : (start cfg).view.inFlight t = none := by
  unfold view start
  cases cfg.onBase <;> rfl

theorem writing_start (cfg : ConnConfig) : (start cfg).view.writing = false := by
  simp [view, start, Channel.new, Channel.isWriting, kNoneEvent]

theorem backlog_start (cfg : ConnConfig) : (start cfg).view.backlog = [] := by
  simp only [view, start, OwnedBuffer.content_new]

theorem whole_start (cfg : ConnConfig) : Whole (start cfg) := by
  refine ⟨mirrored_start cfg, ?_, ?_⟩
  · constructor
    · simp [queue_start]
    · simp [inFlight_start]
  · constructor
    · intro _
      rw [backlog_start]
      rfl
    · intro _
      simp [writing_start, backlog_start]
    · intro _ who
      have nothing : (start cfg).view.pending who = [] := by
        cases who <;> simp [OutStream.pending, OutStream.flying, queue_start, inFlight_start]
      rw [nothing]
      rfl
    · intro r member
      cases member

theorem step_whole (alive : Bool) (s : Connection) (a : Action) (t : Connection)
    (whole : Whole s) (works : ¬ a.Breaks) (taken : s.step alive a = .ok t) : Whole t := by
  have effect := step_effect whole.mirrored alive a t taken
  -- the same step, seen as moves of the outgoing bytes
  have steps : OutStream.Steps unbroken s.view t.view :=
    effect.steps (fun breaks => absurd breaks works) (fun _ => trivial) fun _ => trivial
  have kept : ∀ v u, OutStream.Step unbroken v u → Labelled v ∧ Intact v → Labelled u ∧ Intact u := by
    intro v u step inv
    exact ⟨inv.1.step step, inv.2.step step not_false inv.1⟩
  have after := steps.keeps kept ⟨whole.labelled, whole.intact⟩
  exact ⟨effect.mirrored whole.mirrored, after.1, after.2⟩

/-- In every run in which no `write(2)` fails with `EPIPE` or `ECONNRESET`: while the connection
is not down, the bytes the kernel has accepted and the content of `outputBuffer_` are the
messages `DoSendInLoop` has processed, whole and one after another; the messages of each sender
are processed in the order of its calls, and those not processed yet are on the queue or about
to be pushed. Where `shutdownWrite` is called before the end, all of the processed messages are
with the kernel. -/
theorem stream_intact (alive : Bool) (cfg : ConnConfig) (acts : List Action) (s : Connection)
    (works : ∀ a ∈ acts, ¬ a.Breaks) (reached : Run.exec (step alive) (start cfg) acts = .ok s) :
    (s.state ≠ .kDisconnected →
      s.wire ++ s.outputBuffer.content = s.processed.flatMap Message.data ∧
      ∀ who, OutStream.sentBy who s.processed ++ s.view.pending who = OutStream.sentBy who s.calls) ∧
    ∀ r ∈ s.shutdowns, r.state ≠ .kDisconnected →
      r.backlog = [] ∧ r.wire = r.processed.flatMap Message.data := by
  have meets : Run.Meets (step alive) (fun _ a => ¬ a.Breaks) (start cfg) acts :=
    Run.meets_of_forall _ acts fun _ a member => works a member
  have whole := Run.exec_keeps (step_whole alive) (start cfg) s acts (whole_start cfg) meets reached
  exact ⟨fun up => ⟨whole.intact.bytes up, whole.intact.order up⟩, whole.intact.shut⟩

/-- A connection of the server's own loop. -/
def ownLoop : ConnConfig := ⟨1, 7, true, .polling, true, true, kHighWaterMark⟩

/-- The kernel takes one byte of the first message; a message of another thread comes behind it. -/
def backPressure : List Action :=
  [.resume (.delivered []) (.count 0), .callInLoop (.send [1, 2, 3]) (.count 1),
    .call 5 (.send [4, 5]), .resume (.delivered []) (.count 0), .push 5, .swap, .next (.count 0), .finish,
    .poll (some epollOut), .dispatch, .resume (.delivered []) (.count 0), .resume (.delivered []) (.count 3)]

theorem stream_intact_backPressure : (∀ a ∈ backPressure, ¬ a.Breaks) ∧
    ∃ s, Run.exec (step true) (start ownLoop) backPressure = .ok s ∧ s.wire = [1, 2, 3, 4] ∧
      s.wire ++ s.outputBuffer.content = s.processed.flatMap Message.data := by
  have works : ∀ a ∈ backPressure, ¬ a.Breaks := by decide
  have last : (Run.exec (step true) (start ownLoop) backPressure).toOption.map
      (fun s => (s.state, s.wire)) = some (.kConnected, [1, 2, 3, 4]) := by decide +kernel
  obtain ⟨s, reached, ended⟩ := returned_of_map last
  simp only [Prod.mk.injEq] at ended
  have up : s.state ≠ .kDisconnected := by simp [ended.1]
  exact ⟨works, s, reached, ended.2, ((stream_intact true ownLoop backPressure s works reached).1 up).1⟩

/-! ### Graceful shutdown -/

/-- The connection has not been closed, and no `SendInLoop` is on the queue of the loop or about
to be pushed. -/
structure AllSent (s : Connection) : Prop where
  up : s.state ≠ .kDisconnected
  queued : ∀ m, .sendInLoop m ∉ s.loop.queued
  inFlight : ∀ t m, s.loop.inFlight t ≠ some (.sendInLoop m)

theorem outgoing_eq_message {f : ConnFunctor} {m : Message} (message : f.outgoing = some (.message m)) :
    f = .sendInLoop m := by
  cases f <;> simp_all [ConnFunctor.outgoing]

theorem allSent_iff (s : Connection) : s.AllSent ↔ OutStream.AllSent s.view := by
  constructor
  · intro sent
    refine ⟨sent.up, List.eq_nil_iff_forall_not_mem.mpr fun m member => ?_, fun t m found => ?_⟩
    · obtain ⟨x, queued, message⟩ := List.mem_filterMap.mp member
      obtain ⟨f, there, outgoing⟩ := List.mem_filterMap.mp queued
      cases x with
      | shutdown => cases message
      | message m' => exact sent.queued m' (outgoing_eq_message outgoing ▸ there)
    · obtain ⟨f, there, outgoing⟩ := Option.bind_eq_some_iff.mp found
      exact sent.inFlight t m (outgoing_eq_message outgoing ▸ there)
  · intro sent
    refine ⟨sent.up, fun m there => ?_, fun t m found => ?_⟩
    · have queued : .message m ∈ s.view.queue := List.mem_filterMap.mpr ⟨_, there, rfl⟩
      have member : m ∈ OutStream.messages s.view.queue := List.mem_filterMap.mpr ⟨_, queued, rfl⟩
      rw [sent.queue] at member
      cases member
    · exact sent.inFlight t m (by simp [view, found, ConnFunctor.outgoing])

/-- The writes of the step are unbroken; and where it issues the first `shutdownWrite`, everything
has been sent. -/
def Orderly (s : Connection) (a : Action) : Prop :=
  ¬ a.Breaks ∧ (s.shutdowns = [] → a.Shuts s → s.AllSent)

/-- A step that issues `shutdownWrite` is one of those named. -/
theorem Effect.shuts {s t : Connection} {a : Action} (effect : s.Effect a t) (issued : t.shutdowns ≠ s.shutdowns) :
    a.Shuts s := by
  by_contra other
  -- all moves are permitted but `shutdownWrite`
  have steps : OutStream.Steps ⟨fun _ => False, True, True⟩ s.view t.view :=
    effect.steps (fun _ => trivial) (fun _ => trivial) other
  have same (v u : OutStream) (step : OutStream.Step ⟨fun _ => False, True, True⟩ v u)
      (before : v.shutdowns = s.shutdowns) : u.shutdowns = s.shutdowns := by
    cases step with
    | move move => exact move.shutdowns_eq.trans before
    | shut permitted => exact permitted.elim
  exact issued (steps.keeps same rfl)

structure Graceful (s : Connection) : Prop extends Whole s where
  settled : OutStream.Settled s.view

theorem graceful_start (cfg : ConnConfig) : Graceful (start cfg) := by
  refine { whole_start cfg with settled := ?_ }
  constructor
  · simp [OutStream.Asked, queue_start, inFlight_start]
  · exact nofun
  · intro shut
    exact absurd rfl shut
  · rfl

theorem step_graceful (alive : Bool) (s : Connection) (a : Action) (t : Connection) (graceful : Graceful s)
    (orderly : s.Orderly a) (taken : s.step alive a = .ok t) : Graceful t := by
  have steps : OutStream.Steps OutStream.sentFirst s.view t.view :=
    (step_effect graceful.mirrored alive a t taken).steps (fun breaks => absurd breaks orderly.1) (fun _ => trivial)
      fun shuts unshut => s.allSent_iff.mp (orderly.2 unshut shuts)
  have kept : ∀ v u, OutStream.Step OutStream.sentFirst v u →
      Labelled v ∧ Intact v ∧ OutStream.Settled v → Labelled u ∧ Intact u ∧ OutStream.Settled u := by
    intro v u step ⟨labelled, intact, settled⟩
    exact ⟨labelled.step step, intact.step step not_false labelled, settled.step step labelled intact⟩
  obtain ⟨_, _, settled⟩ := steps.keeps kept ⟨graceful.labelled, graceful.intact, graceful.settled⟩
  exact ⟨step_whole alive s a t graceful.toWhole orderly.1 taken, settled⟩

/-- In every run of orderly steps: at each `shutdownWrite` all accepted messages are with the
kernel, whole, and `write(2)` is not called any more afterwards. -/
theorem shutdown_delivers (alive : Bool) (cfg : ConnConfig) (acts : List Action) (s : Connection)
    (meets : Run.Meets (step alive) Orderly (start cfg) acts)
    (reached : Run.exec (step alive) (start cfg) acts = .ok s) :
    (∀ r ∈ s.shutdowns, r.wire = r.processed.flatMap Message.data ∧ r.processed.Perm r.calls) ∧
      s.lateWrites = 0 := by
  have graceful := Run.exec_keeps (step_graceful alive) (start cfg) s acts (graceful_start cfg) meets reached
  exact ⟨graceful.settled.records, graceful.settled.late⟩

/-- The same by counting, which can be evaluated. -/
def Tallied (s : Connection) (a : Action) : Prop :=
  ¬ a.Breaks ∧ (s.shutdowns = [] → a.Shuts s →
    s.state ≠ .kDisconnected ∧ s.processed.length = s.calls.length)

instance (s : Connection) (a : Action) : Decidable (s.Tallied a) := inferInstanceAs (Decidable (_ ∧ _))

/-- Where as many messages are processed as were accepted, none is on its way. -/
theorem Whole.orderly {s : Connection} {a : Action} (whole : Whole s) (tallied : s.Tallied a) : s.Orderly a :=
  ⟨tallied.1, fun unshut shuts =>
    have done := tallied.2 unshut shuts
    s.allSent_iff.mpr (whole.intact.allSent done.1 done.2)⟩

theorem orderly_of_tallied (alive : Bool) (cfg : ConnConfig) (acts : List Action)
    (tallied : Run.Meets (step alive) Tallied (start cfg) acts) :
    Run.Meets (step alive) Orderly (start cfg) acts :=
  Run.Meets.imp (fun s a t whole allowed taken => step_whole alive s a t whole allowed.1 taken)
    (fun _ _ whole allowed => whole.orderly allowed) (start cfg) acts (whole_start cfg) tallied

/-- Another thread sends and then shuts down, while the kernel takes the bytes in two parts. -/
def sendThenShutdown : List Action :=
  [.resume (.delivered []) (.count 0), .resume (.delivered []) (.count 0), .call 5 (.send [1, 2, 3]), .push 5,
    .call 5 .shutdown, .push 5, .swap, .next (.count 1), .next (.count 0), .finish, .poll (some epollOut),
    .dispatch, .resume (.delivered []) (.count 0), .resume (.delivered []) (.count 2)]

theorem shutdown_delivers_postponed :
    Run.Meets (step true) Orderly (start ownLoop) sendThenShutdown ∧
    ∃ s, Run.exec (step true) (start ownLoop) sendThenShutdown = .ok s ∧
      s.shutdowns = [⟨.kDisconnecting, [], [1, 2, 3], [⟨some 5, [1, 2, 3]⟩], [⟨some 5, [1, 2, 3]⟩]⟩] ∧
      s.lateWrites = 0 := by
  have meets : Run.Meets (step true) Orderly (start ownLoop) sendThenShutdown :=
    orderly_of_tallied true ownLoop sendThenShutdown (by decide +kernel)
  have last : (Run.exec (step true) (start ownLoop) sendThenShutdown).toOption.map (fun s => s.shutdowns) =
      some [⟨.kDisconnecting, [], [1, 2, 3], [⟨some 5, [1, 2, 3]⟩], [⟨some 5, [1, 2, 3]⟩]⟩] := by
    decide +kernel
  obtain ⟨s, reached, ended⟩ := returned_of_map last
  exact ⟨meets, s, reached, ended, (shutdown_delivers true ownLoop sendThenShutdown s meets reached).2⟩

/-- Another thread has sent; before the loop comes to its functor the loop thread shuts down. -/
def shutdownOvertakes : List Action :=
  [.resume (.delivered []) (.count 0), .call 5 (.send [1]), .push 5, .callInLoop .shutdown (.count 0),
    .resume (.delivered []) (.count 0), .swap, .next (.failed .epipe)]

/-- Two of three bytes wait when another thread shuts down, and the peer closes its side before
the loop comes to the functor. -/
def closeOvertakes : List Action :=
  [.resume (.delivered []) (.count 0), .callInLoop (.send [1, 2, 3]) (.count 1),
    .resume (.delivered []) (.count 0), .swap, .finish, .call 5 .shutdown, .push 5, .poll (some epollIn), .dispatch,
    .resume (.delivered []) (.count 0), .resume (.delivered []) (.count 0), .resume (.delivered []) (.count 0),
    .resume (.delivered []) (.count 0), .swap, .next (.count 0)]

/-- A message that was accepted before `Shutdown` is not with the kernel at `shutdownWrite`, and is
written to the socket afterwards; and a shutdown that waited for the backlog does not wait for it
any more once the connection is closed. -/
theorem shutdown_overtakes_send :
    (∃ s, Run.exec (step true) (start ownLoop) shutdownOvertakes = .ok s ∧
      s.shutdowns = [⟨.kDisconnecting, [], [], [], [⟨some 5, [1]⟩]⟩] ∧ s.lateWrites = 1) ∧
    ∃ s, Run.exec (step true) (start ownLoop) closeOvertakes = .ok s ∧
      s.shutdowns = [⟨.kDisconnected, [2, 3], [1], [⟨none, [1, 2, 3]⟩], [⟨none, [1, 2, 3]⟩]⟩] := by
  have first : (Run.exec (step true) (start ownLoop) shutdownOvertakes).toOption.map
      (fun s => (s.shutdowns, s.lateWrites)) =
      some ([⟨.kDisconnecting, [], [], [], [⟨some 5, [1]⟩]⟩], 1) := by decide +kernel
  have second : (Run.exec (step true) (start ownLoop) closeOvertakes).toOption.map (fun s => s.shutdowns) =
      some [⟨.kDisconnected, [2, 3], [1], [⟨none, [1, 2, 3]⟩], [⟨none, [1, 2, 3]⟩]⟩] := by decide +kernel
  obtain ⟨s, reached, ended⟩ := returned_of_map first
  simp only [Prod.mk.injEq] at ended
  exact ⟨⟨s, reached, ended⟩, returned_of_map second⟩

end Rnet.Network.Connection
