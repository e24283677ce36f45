import Rnet.Network.StreamDelivery

/-!
# Write interest and the backlog

The channel of a connection asks for write events exactly while there is something to write. The
flag and the buffer are changed in different functions; over the outgoing stream that is one
invariant of its steps, of the unwanted ones too. A shutdown that was passed over because of a
backlog is then made good by the `HandleWrite` that empties it.
-/
namespace Rnet.Network

open Check File

/-! ### The stream -/

namespace OutStream

variable {p : Permits} {v u : OutStream}

/-- Write events are asked for exactly while there is a backlog. -/
def Interested (v : OutStream) : Prop :=
  v.state ≠ .kDisconnected → (v.writing = true ↔ v.backlog ≠ [])

theorem Interested.keep (interested : v.writing = true ↔ v.backlog ≠ []) (rest : List Byte) :
    (v.keep rest).writing = true ↔ (v.keep rest).backlog ≠ [] := by
  simp only [OutStream.keep, Bool.or_eq_true, interested, ne_eq, List.append_eq_nil_iff, not_and_or,
    Bool.not_eq_true', List.isEmpty_eq_false_iff]

/-- Taking a message in changes neither the flag nor the backlog. -/
theorem Interested.enter {m : Message} (interested : v.Interested) (origin : Origin v m u)
    (up : v.state ≠ .kDisconnected) : (u.process m).writing = true ↔ (u.process m).backlog ≠ [] := by
  have same := origin.sameBytes
  simp only [process, same.writing, same.backlog]
  exact interested up

theorem Interested.move (taken : Move p v u) (interested : v.Interested) : u.Interested := by
  cases taken with
  | establish before => exact fun _ => interested (by simp [before])
  | requestShutdown t before => exact fun _ => interested (by simp [before])
  | disconnecting before => exact fun _ => interested (by rcases before with h | h <;> simp [h])
  | close => exact fun up => absurd rfl up
  | buffer m origin up => exact fun _ => Interested.keep (interested.enter origin up) m.data
  | write m n origin up => exact fun _ => Interested.keep (interested.enter origin up) (m.data.drop n)
  | lose m _ origin up =>
    have entered := interested.enter origin up
    exact fun _ => entered
  | drain n =>
    intro _
    simp [drained]
  | accept | push | giveUp | attempt | dropShutdown => exact interested

theorem Interested.step (taken : Step p v u) : v.Interested → u.Interested :=
  taken.keeps (fun _ => Interested.move) fun _ _ interested => interested

end OutStream

namespace Connection

variable {s : Connection}

/-- The stream is interested, and the poller has the channel as it is. -/
structure Watchful (s : Connection) : Prop where
  mirrored : s.Mirrored
  interested : s.view.Interested

theorem step_watchful (alive : Bool) (s : Connection) (a : Action) (t : Connection) (watchful : Watchful s)
    (taken : s.step alive a = .ok t) : Watchful t := by
  have effect := step_effect watchful.mirrored alive a t taken
  exact ⟨effect.mirrored watchful.mirrored,
    effect.steps_anyhow.keeps (fun v u => OutStream.Interested.step) watchful.interested⟩

theorem watchful_start (cfg : ConnConfig) : Watchful (start cfg) := by
  refine ⟨mirrored_start cfg, fun _ => ?_⟩
  simp [writing_start, backlog_start]

/-! ### Every run -/

/-- The `HandleWrite` that empties the buffer of a connection that is leaving shuts the socket
down. -/
theorem handleWrite_drains (mirrored : s.Mirrored) (writing : s.channel.isWriting = true)
    (waits : 0 < s.outputBuffer.readableBytes) (leaving : s.state = .kDisconnecting) :
    Returns (fun t => t.outputBuffer.readableBytes = 0 ∧ t.channel.isWriting = false ∧
        t.shutdowns = s.shutdowns ++
          [⟨.kDisconnecting, [], s.wire ++ s.outputBuffer.content, s.processed, s.calls⟩])
      (s.handleWrite (.count s.outputBuffer.readableBytes)) := by
  have written : Returns (s.Writes (.count s.outputBuffer.readableBytes))
      (s.handleWrite (.count s.outputBuffer.readableBytes)) :=
    handleWrite_returns mirrored fun _ n same => (WriteResult.count.inj same).ge
  refine written.mono fun t writes => ?_
  cases writes with
  | unasked _ quiet => simp [writing] at quiet
  | nothing _ _ zero => exact absurd (zero _ rfl) waits.ne'
  | part _ _ _ _ less => exact absurd less (Nat.lt_irrefl _)
  | last _ out _ _ _ left =>
    have all : s.outputBuffer.content.take s.outputBuffer.readableBytes = s.outputBuffer.content := by
      rw [← OwnedBuffer.content_length, List.take_length]
    have seen := (drained_view (s.retrieved s.outputBuffer.readableBytes out)).trans (if_pos leaving)
    generalize (s.retrieved s.outputBuffer.readableBytes out).drained = t at seen
    have backlog : t.outputBuffer.content = [] := (congrArg OutStream.backlog seen).trans left
    refine ⟨?_, congrArg OutStream.writing seen, (congrArg OutStream.shutdowns seen).trans ?_⟩
    · rw [← OwnedBuffer.content_length, backlog]
      rfl
    · simp only [OutStream.shut, view, retrieved, write, leaving, left, all]

/-- A step of a connection whose server may be destructed at any time. -/
def stepOf (s : Connection) (a : Bool × Action) : Comp ConnFault Connection := s.step a.1 a.2

/-- In every run of a connection, in every state in which it is not down: the channel asks for
write events exactly while `outputBuffer_` is not empty. A connection that is leaving and has a
backlog is shut down by the `HandleWrite` that empties the buffer. -/
theorem write_interest (cfg : ConnConfig) (acts : List (Bool × Action)) (s : Connection)
    (reached : Run.exec stepOf (start cfg) acts = .ok s)
    (up : s.state = .kConnected ∨ s.state = .kDisconnecting) :
    (s.channel.isWriting = true ↔ 0 < s.outputBuffer.readableBytes) ∧
    (s.state = .kDisconnecting → 0 < s.outputBuffer.readableBytes →
      Returns (fun t => t.outputBuffer.readableBytes = 0 ∧ t.channel.isWriting = false ∧
          t.shutdowns = s.shutdowns ++
            [⟨.kDisconnecting, [], s.wire ++ s.outputBuffer.content, s.processed, s.calls⟩])
        (s.handleWrite (.count s.outputBuffer.readableBytes))) := by
  obtain ⟨mirrored, interested⟩ : Watchful s :=
    Run.exec_keeps_all (fun s a t kept taken => step_watchful a.1 s a.2 t kept taken) (start cfg) s acts
      (watchful_start cfg) reached
  have tracks : s.channel.isWriting = true ↔ 0 < s.outputBuffer.readableBytes := by
    have backlog : s.channel.isWriting = true ↔ s.outputBuffer.content ≠ [] :=
      interested (by rcases up with h | h <;> simp [view, h])
    rw [backlog, ← OwnedBuffer.content_length, List.length_pos_iff]
  exact ⟨tracks, fun leaving waits => handleWrite_drains mirrored (tracks.mpr waits) waits leaving⟩

/-- Two of three bytes wait when `Shutdown` is called. -/
def shutdownWithBacklog : List (Bool × Action) :=
  [.resume (.delivered []) (.count 0), .callInLoop (.send [1, 2, 3]) (.count 1), .callInLoop .shutdown (.count 0),
    .resume (.delivered []) (.count 0), .swap, .finish, .poll (some epollOut), .dispatch,
    .resume (.delivered []) (.count 0)].map (true, ·)

theorem write_interest_shutdownWithBacklog :
    ∃ s, Run.exec stepOf (start ownLoop) shutdownWithBacklog = .ok s ∧ s.state = .kDisconnecting ∧
      s.shutdowns = [] ∧ s.channel.isWriting = true ∧
      ∃ t, s.handleWrite (.count 2) = .ok t ∧ t.channel.isWriting = false ∧ t.shutdowns.length = 1 := by
  have last : (Run.exec stepOf (start ownLoop) shutdownWithBacklog).toOption.map
      (fun s => (s.state, s.shutdowns, s.outputBuffer.readableBytes)) = some (.kDisconnecting, [], 2) := by
    decide +kernel
  obtain ⟨s, reached, ended⟩ := returned_of_map last
  simp only [Prod.mk.injEq] at ended
  obtain ⟨leaving, unshut, size⟩ := ended
  obtain ⟨tracks, drains⟩ := write_interest ownLoop shutdownWithBacklog s reached (Or.inr leaving)
  obtain ⟨t, returned, _, idle, shut⟩ := (drains leaving (by simp [size])).exists
  rw [size] at returned
  exact ⟨s, reached, leaving, unshut, tracks.mpr (by simp [size]), t, returned, idle, by simp [shut, unshut]⟩

end Connection

end Rnet.Network
