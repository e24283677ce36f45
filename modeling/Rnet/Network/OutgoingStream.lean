import Rnet.Network.TcpConnection

/-!
# The outgoing half of a connection

What a connection is for, seen from its senders: messages are accepted from many threads,
become bytes in one order, and leave through a backlog that is written when the socket takes
it. `OutStream` is that machine, without the poller, the loop's phases and the buffer's memory.
Its steps are relations, so that one description serves every question about the order and the
fate of the bytes; `Permits` says which of the unwanted steps a run may take.
-/
namespace Rnet.Network

open File

/-- The functors that concern the outgoing half. -/
inductive Outgoing where
  | message (m : Message)
  | shutdown
  deriving DecidableEq, Repr

def Outgoing.message? : Outgoing → Option Message
  | .message m => some m
  | .shutdown => none

structure OutStream where
  state : StateE
  /-- The channel asks for write events. -/
  writing : Bool
  backlog : List Byte
  wire : List Byte
  processed : List Message
  calls : List Message
  queue : List Outgoing
  inFlight : Tid → Option Outgoing
  shutdowns : List ShutdownRecord
  lateWrites : Nat

namespace OutStream

/-- A message may go to the socket without waiting behind others. -/
def direct (v : OutStream) : Bool := !v.writing && v.backlog.isEmpty

/-- A call of `write(2)` of which the kernel accepted `bytes`. -/
def wrote (v : OutStream) (bytes : List Byte) : OutStream :=
  { v with
    wire := v.wire ++ bytes
    lateWrites := if v.shutdowns.isEmpty then v.lateWrites else v.lateWrites + 1 }

/-- What is left of a message goes to the backlog. -/
def keep (v : OutStream) (rest : List Byte) : OutStream :=
  { v with backlog := v.backlog ++ rest, writing := v.writing || !rest.isEmpty }

@[simp] theorem keep_nil (v : OutStream) : v.keep [] = v := by
  simp [keep]

def process (v : OutStream) (m : Message) : OutStream := { v with processed := v.processed ++ [m] }

/-- The backlog after the kernel took `n` bytes of it. -/
def drained (v : OutStream) (n : Nat) : OutStream :=
  { v with backlog := v.backlog.drop n, writing := !(v.backlog.drop n).isEmpty }

/-- The connection goes down with what is in the backlog. -/
def down (v : OutStream) : OutStream := { v with state := .kDisconnected, writing := false }

def shut (v : OutStream) : OutStream :=
  { v with shutdowns := v.shutdowns ++ [⟨v.state, v.backlog, v.wire, v.processed, v.calls⟩] }

/-- Under which conditions a run may shut the socket down, lose a message to a broken
connection, or close. The first looks at the stream before the step. -/
structure Permits where
  shut : OutStream → Prop
  lose : Prop
  close : Prop

/-- Where a message comes from: a call on the loop thread, or the head of the queue. -/
inductive Origin (v : OutStream) (m : Message) : OutStream → Prop where
  | own : v.state = .kConnected → m.sender = none →
    Origin v m { v with calls := v.calls ++ [m] }
  | queued (rest : List Outgoing) : v.queue = .message m :: rest →
    Origin v m { v with queue := rest }

/-- The steps that do not shut the socket down. -/
inductive Move (p : Permits) : OutStream → OutStream → Prop where
  | establish {v} : v.state = .kConnecting → Move p v { v with state := .kConnected }
  | accept {v} (t : Tid) (m : Message) : v.state = .kConnected → m.sender = some t →
    v.inFlight t = none → Move p v { v with
      calls := v.calls ++ [m], inFlight := Function.update v.inFlight t (some (.message m)) }
  | requestShutdown {v} (t : Tid) : v.state = .kConnected → v.inFlight t = none →
    Move p v { v with
      state := .kDisconnecting, inFlight := Function.update v.inFlight t (some .shutdown) }
  | disconnecting {v} : v.state = .kConnected ∨ v.state = .kDisconnecting →
    Move p v { v with state := .kDisconnecting }
  | push {v} (t : Tid) (x : Outgoing) : v.inFlight t = some x → Move p v { v with
      queue := v.queue ++ [x], inFlight := Function.update v.inFlight t none }
  | close {v} : p.close → v.state = .kConnected ∨ v.state = .kDisconnecting →
    Move p v v.down
  | giveUp {v} (m : Message) (rest : List Outgoing) : v.state = .kDisconnected →
    v.queue = .message m :: rest → Move p v { v with queue := rest }
  | buffer {v u} (m : Message) : Origin v m u → v.state ≠ .kDisconnected → v.direct = false →
    Move p v ((u.process m).keep m.data)
  | write {v u} (m : Message) (n : Nat) : Origin v m u → v.state ≠ .kDisconnected →
    v.direct = true → Move p v (((u.process m).wrote (m.data.take n)).keep (m.data.drop n))
  | lose {v u} (m : Message) : p.lose → Origin v m u → v.state ≠ .kDisconnected →
    v.direct = true → Move p v ((u.process m).wrote [])
  | drain {v} (n : Nat) : v.writing = true → Move p v ((v.wrote (v.backlog.take n)).drained n)
  | attempt {v} : v.writing = true → Move p v (v.wrote [])
  | dropShutdown {v} (rest : List Outgoing) : v.queue = .shutdown :: rest →
    Move p v { v with queue := rest }

/-- What the socket is shut down after: `Shutdown` on the loop thread, the write of the last of
the backlog, and a shutdown that was queued. -/
inductive Ends (v : OutStream) : OutStream → Prop where
  | asked : v.state = .kConnected → v.writing = false → Ends v { v with state := .kDisconnecting }
  | drained (n : Nat) : v.state = .kDisconnecting → v.writing = true → v.backlog.drop n = [] →
    Ends v ((v.wrote (v.backlog.take n)).drained n)
  | queued (rest : List Outgoing) : v.queue = .shutdown :: rest → v.writing = false →
    Ends v { v with queue := rest }

inductive Step (p : Permits) (v : OutStream) : OutStream → Prop where
  | move {u : OutStream} : Move p v u → Step p v u
  | shut {w : OutStream} : p.shut v → Ends v w → Step p v w.shut

/-- A function of the connection is a step of the stream, or none. -/
abbrev Steps (p : Permits) : OutStream → OutStream → Prop := Relation.ReflGen (Step p)

theorem Steps.keeps {p : Permits} {Inv : OutStream → Prop} {v u : OutStream} (steps : Steps p v u)
    (preserved : ∀ v u, Step p v u → Inv v → Inv u) (initial : Inv v) : Inv u := by
  cases steps with
  | refl => exact initial
  | single taken => exact preserved v u taken initial

variable {p : Permits} {v u w : OutStream}

theorem Ends.move (ends : Ends v w) : Move p v w := by
  cases ends with
  | asked connected => exact .disconnecting (Or.inl connected)
  | drained n _ busy => exact .drain n busy
  | queued rest head => exact .dropShutdown rest head

theorem Ends.idle (ends : Ends v w) : w.writing = false := by
  cases ends with
  | asked _ idle => exact idle
  | drained n _ _ empty => simp [OutStream.drained, wrote, empty]
  | queued _ _ idle => exact idle

/-- What a move keeps, and a shutdown of an idle stream, a step keeps. -/
theorem Step.keeps {Inv : OutStream → Prop} (taken : Step p v u)
    (moved : ∀ w, Move p v w → Inv v → Inv w) (shut : ∀ w, w.writing = false → Inv w → Inv w.shut)
    (initial : Inv v) : Inv u := by
  cases taken with
  | move move => exact moved u move initial
  | shut _ ends => exact shut _ ends.idle (moved _ ends.move initial)

/-- The state only moves on. -/
theorem Move.disconnected (taken : Move p v u) (closed : v.state = .kDisconnected) :
    u.state = .kDisconnected := by
  cases taken with
  | establish before => simp [closed] at before
  | accept t m before => simp [closed] at before
  | requestShutdown t before => simp [closed] at before
  | disconnecting before => simp [closed] at before
  | close => rfl
  | buffer m origin before => exact absurd closed before
  | write m n origin before => exact absurd closed before
  | lose m _ origin before => exact absurd closed before
  | push | giveUp | drain | attempt | dropShutdown => exact closed

theorem Step.disconnected (taken : Step p v u) (closed : v.state = .kDisconnected) :
    u.state = .kDisconnected := by
  cases taken with
  | move move => exact move.disconnected closed
  | shut _ ends => exact (ends.move (p := p)).disconnected closed

/-! ### Messages by sender -/

/-- The messages of one sender; `none` is the loop thread. -/
def sentBy (who : Option Tid) (messages : List Message) : List Message :=
  messages.filter fun m => m.sender = who

@[simp] theorem sentBy_nil (who : Option Tid) : sentBy who [] = [] := rfl

@[simp] theorem sentBy_append (who : Option Tid) (first second : List Message) :
    sentBy who (first ++ second) = sentBy who first ++ sentBy who second :=
  List.filter_append first second

theorem sentBy_own {who : Option Tid} {m : Message} (same : m.sender = who) :
    sentBy who [m] = [m] := by
  simp [sentBy, same]

theorem sentBy_other {who : Option Tid} {m : Message} (different : m.sender ≠ who) :
    sentBy who [m] = [] := by
  simp [sentBy, different]

/-- The messages among the functors of a list. -/
def messages (queue : List Outgoing) : List Message := queue.filterMap Outgoing.message?

@[simp] theorem messages_nil : messages [] = [] := rfl

@[simp] theorem messages_append (first second : List Outgoing) :
    messages (first ++ second) = messages first ++ messages second :=
  List.filterMap_append

@[simp] theorem messages_message (m : Message) (rest : List Outgoing) :
    messages (.message m :: rest) = [m] ++ messages rest := rfl

@[simp] theorem messages_shutdown (rest : List Outgoing) :
    messages (.shutdown :: rest) = messages rest := rfl

/-- The message a sender is about to push. -/
def flying (v : OutStream) : Option Tid → List Message
  | none => []
  | some t => messages (v.inFlight t).toList

/-- What a sender has been promised and has not been processed yet, in its order. -/
def pending (v : OutStream) (who : Option Tid) : List Message :=
  sentBy who (messages v.queue) ++ v.flying who

/-! ### Integrity -/

/-- The functors are labelled with the thread that made them. -/
structure Labelled (v : OutStream) : Prop where
  queue : ∀ m, .message m ∈ v.queue → m.sender ≠ none
  inFlight : ∀ t m, v.inFlight t = some (.message m) → m.sender = some t

/-- While the connection is not down, the wire and the backlog are the messages processed, one
after another; write events are asked for exactly while there is a backlog; and what each
sender was promised is processed in its order, nothing left out and nothing twice. -/
structure Intact (v : OutStream) : Prop where
  bytes : v.state ≠ .kDisconnected → v.wire ++ v.backlog = v.processed.flatMap Message.data
  writing : v.state ≠ .kDisconnected → (v.writing = true ↔ v.backlog ≠ [])
  order : v.state ≠ .kDisconnected → ∀ who, sentBy who v.processed ++ v.pending who = sentBy who v.calls
  shut : ∀ r ∈ v.shutdowns, r.state ≠ .kDisconnected →
    r.backlog = [] ∧ r.wire = r.processed.flatMap Message.data

theorem Labelled.flying_own (labelled : Labelled v) {t : Tid} {x : Outgoing}
    (found : v.inFlight t = some x) (who : Option Tid) :
    sentBy who (messages [x]) = if who = some t then messages [x] else [] := by
  cases x with
  | shutdown => simp
  | message m =>
    have sender := labelled.inFlight t m found
    simp only [messages_message, messages_nil, List.append_nil]
    split
    next same => exact sentBy_own (by rw [sender, same])
    next different => exact sentBy_other (by rw [sender]; exact Ne.symm different)

theorem flying_update (v : OutStream) (t : Tid) (o : Option Outgoing) (who : Option Tid) :
    flying { v with inFlight := Function.update v.inFlight t o } who =
      if who = some t then messages o.toList else v.flying who := by
  cases who with
  | none => rfl
  | some u =>
    by_cases same : u = t
    · subst same
      simp [flying]
    · simp [flying, same]

theorem Origin.labelled {m : Message} (origin : Origin v m u) (labelled : Labelled v) : Labelled u := by
  cases origin with
  | own => exact ⟨labelled.queue, labelled.inFlight⟩
  | queued rest head =>
    refine ⟨fun m member => labelled.queue m ?_, labelled.inFlight⟩
    rw [head]
    exact List.mem_cons_of_mem _ member

theorem Labelled.update (labelled : Labelled v) (t : Tid) (o : Option Outgoing)
    (own : ∀ m, o = some (.message m) → m.sender = some t) (u : Tid) (m : Message)
    (found : Function.update v.inFlight t o u = some (.message m)) : m.sender = some u := by
  by_cases same : u = t
  · subst same
    rw [Function.update_self] at found
    exact own m found
  · rw [Function.update_of_ne same] at found
    exact labelled.inFlight u m found

theorem Labelled.move (taken : Move p v u) (labelled : Labelled v) : Labelled u := by
  -- popping a functor leaves fewer on the queue
  have popped {x : Outgoing} {rest : List Outgoing} (head : v.queue = x :: rest) :
      ∀ m, .message m ∈ rest → m.sender ≠ none := by
    intro m member
    apply labelled.queue
    rw [head]
    exact List.mem_cons_of_mem _ member
  cases taken with
  | accept t m _ sender _ =>
    exact ⟨labelled.queue, labelled.update t _ fun m' same => by cases same; exact sender⟩
  | requestShutdown t _ _ => exact ⟨labelled.queue, labelled.update t _ nofun⟩
  | push t x found =>
    refine ⟨fun m member => ?_, labelled.update t _ nofun⟩
    rcases List.mem_append.mp member with old | new
    · exact labelled.queue m old
    · rw [← List.mem_singleton.mp new] at found
      simp [labelled.inFlight t m found]
  | giveUp m rest _ head => exact ⟨popped head, labelled.inFlight⟩
  | dropShutdown rest head => exact ⟨popped head, labelled.inFlight⟩
  | buffer m origin => exact ⟨(origin.labelled labelled).queue, (origin.labelled labelled).inFlight⟩
  | write m n origin => exact ⟨(origin.labelled labelled).queue, (origin.labelled labelled).inFlight⟩
  | lose m _ origin => exact ⟨(origin.labelled labelled).queue, (origin.labelled labelled).inFlight⟩
  | establish | disconnecting | close | drain | attempt => exact ⟨labelled.queue, labelled.inFlight⟩

theorem Labelled.step (taken : Step p v u) : Labelled v → Labelled u :=
  taken.keeps (fun _ => Labelled.move) fun _ _ labelled => ⟨labelled.queue, labelled.inFlight⟩

/-- Processing a message moves it from what its sender was promised to what is done. -/
theorem Origin.order {m : Message} (origin : Origin v m u) (labelled : Labelled v)
    (order : ∀ who, sentBy who v.processed ++ v.pending who = sentBy who v.calls) (who : Option Tid) :
    sentBy who (v.processed ++ [m]) ++ u.pending who = sentBy who u.calls := by
  cases origin with
  | own _ sender =>
    rw [sentBy_append, sentBy_append, ← order who]
    by_cases own : who = none
    · -- the loop thread queues nothing
      subst own
      have nothing : v.pending none = [] := by
        simp only [pending, flying, List.append_nil, sentBy, List.filter_eq_nil_iff, messages,
          List.mem_filterMap]
        rintro m ⟨x, member, found⟩
        cases x with
        | shutdown => cases found
        | message m' =>
          cases found
          simpa using labelled.queue m member
      have same : pending { v with calls := v.calls ++ [m] } none = v.pending none := rfl
      rw [same, nothing, List.append_nil, List.append_nil]
    · have same : pending { v with calls := v.calls ++ [m] } who = v.pending who := by
        cases who <;> rfl
      rw [sentBy_other (by rw [sender]; exact Ne.symm own), same, List.append_nil, List.append_nil]
  | queued rest head =>
    have same : v.pending who = sentBy who [m] ++ pending { v with queue := rest } who := by
      simp only [pending, head, messages_message, sentBy_append, List.append_assoc]
      cases who <;> rfl
    rw [sentBy_append, List.append_assoc, ← same]
    exact order who

/-- A message that is processed after the end comes from the queue. -/
theorem Origin.giveUp {m : Message} (origin : Origin v m u) (down : v.state = .kDisconnected) : Move p v u := by
  cases origin with
  | own connected => simp [down] at connected
  | queued rest head => exact .giveUp m rest down head

/-- What a message is taken from does not touch the bytes. -/
structure SameBytes (v u : OutStream) : Prop where
  state : u.state = v.state
  writing : u.writing = v.writing
  backlog : u.backlog = v.backlog
  wire : u.wire = v.wire
  processed : u.processed = v.processed
  shutdowns : u.shutdowns = v.shutdowns
  lateWrites : u.lateWrites = v.lateWrites

theorem Origin.sameBytes {m : Message} (origin : Origin v m u) : SameBytes v u := by
  cases origin with
  | own => exact ⟨rfl, rfl, rfl, rfl, rfl, rfl, rfl⟩
  | queued => exact ⟨rfl, rfl, rfl, rfl, rfl, rfl, rfl⟩

theorem direct_iff (v : OutStream) : v.direct = true ↔ v.writing = false ∧ v.backlog = [] := by
  simp [direct]

/-- A message enters the stream: `n` bytes of it go to the wire, which is possible only where
nothing waits before it, and the rest to the backlog. -/
theorem Intact.enter {m : Message} (intact : Intact v) (labelled : Labelled v)
    (origin : Origin v m u) (up : v.state ≠ .kDisconnected) (n late : Nat)
    (first : n = 0 ∨ v.direct = true) :
    Intact { (u.process m).keep (m.data.drop n) with
      wire := u.wire ++ m.data.take n, lateWrites := late } := by
  have same := origin.sameBytes
  have bytes := intact.bytes up
  have writing := intact.writing up
  constructor
  · intro _
    have empty : n = 0 ∨ v.backlog = [] := first.imp id fun direct => ((direct_iff v).mp direct).2
    simp only [keep, process, same.backlog, same.processed, same.wire, List.flatMap_append, ← bytes,
      List.flatMap_singleton]
    -- nothing of the message is written, or nothing stands before it
    rcases empty with rfl | empty
    · simp
    · simp [empty]
  · intro _
    simp only [keep, process, same.backlog, same.writing, Bool.or_eq_true, writing, ne_eq,
      List.append_eq_nil_iff, not_and_or, Bool.not_eq_true', List.isEmpty_eq_false_iff]
  · intro _ who
    have order := origin.order labelled (intact.order up) who
    rw [← same.processed] at order
    exact order
  · intro r member
    simp only [keep, process, same.shutdowns] at member
    exact intact.shut r member

theorem Intact.shut_record (intact : Intact v) (idle : v.writing = false) :
    ∀ r ∈ v.shut.shutdowns, r.state ≠ .kDisconnected →
      r.backlog = [] ∧ r.wire = r.processed.flatMap Message.data := by
  intro r member up
  rcases List.mem_append.mp member with old | new
  · exact intact.shut r old up
  · rw [List.mem_singleton.mp new] at up ⊢
    have empty : v.backlog = [] := by
      by_contra left
      simp [(intact.writing up).mpr left] at idle
    have bytes := intact.bytes up
    rw [empty, List.append_nil] at bytes
    exact ⟨empty, bytes⟩

/-- A thread that is not pushing has nothing in flight. -/
theorem flying_free {t : Tid} (free : v.inFlight t = none) : v.flying (some t) = [] := by
  simp [flying, free]

/-- A shutdown that leaves the queue takes no message with it. -/
theorem pending_pop_shutdown {rest : List Outgoing} (head : v.queue = .shutdown :: rest)
    (who : Option Tid) : pending { v with queue := rest } who = v.pending who := by
  simp only [pending, head, messages_shutdown]
  cases who <;> rfl

theorem Intact.move (taken : Move p v u) (lossless : ¬ p.lose) (labelled : Labelled v) (intact : Intact v) :
    Intact u := by
  cases taken with
  | establish before =>
    have up : v.state ≠ .kDisconnected := by simp [before]
    exact ⟨fun _ => intact.bytes up, fun _ => intact.writing up, fun _ => intact.order up, intact.shut⟩
  | accept t m before sender free =>
    refine ⟨intact.bytes, intact.writing, fun up who => ?_, intact.shut⟩
    have order := intact.order up who
    simp only [pending] at order ⊢
    rw [flying_update { v with calls := v.calls ++ [m] }, sentBy_append, ← order]
    -- the message is in flight for its sender, and for nobody else
    by_cases own : who = some t
    · have free : v.flying who = [] := own ▸ flying_free free
      rw [if_pos own, sentBy_own (sender.trans own.symm), free]
      simp
    · rw [if_neg own, sentBy_other (by rw [sender]; exact Ne.symm own), List.append_nil]
      cases who <;> rfl
  | requestShutdown t before free =>
    have up : v.state ≠ .kDisconnected := by simp [before]
    refine ⟨fun _ => intact.bytes up, fun _ => intact.writing up, fun _ who => ?_, intact.shut⟩
    have order := intact.order up who
    simp only [pending] at order ⊢
    rw [flying_update { v with state := .kDisconnecting }, ← order]
    by_cases own : who = some t
    · have free : v.flying who = [] := own ▸ flying_free free
      rw [if_pos own, free]
      simp
    · rw [if_neg own]
      cases who <;> rfl
  | disconnecting before =>
    have up : v.state ≠ .kDisconnected := by rcases before with h | h <;> simp [h]
    exact ⟨fun _ => intact.bytes up, fun _ => intact.writing up, fun _ => intact.order up, intact.shut⟩
  | push t x found =>
    refine ⟨intact.bytes, intact.writing, fun up who => ?_, intact.shut⟩
    have order := intact.order up who
    simp only [pending] at order ⊢
    rw [flying_update { v with queue := v.queue ++ [x] }, messages_append, sentBy_append, ← order,
      labelled.flying_own found who]
    -- what was in flight is now the last of the queue
    by_cases own : who = some t
    · have last : v.flying who = messages [x] := by
        rw [own]
        simp [flying, found]
      rw [if_pos own, if_pos own, last]
      simp
    · rw [if_neg own, if_neg own, List.append_nil]
      cases who <;> rfl
  | close => exact ⟨fun up => absurd rfl up, fun up => absurd rfl up, fun up => absurd rfl up, intact.shut⟩
  | giveUp m rest down head =>
    exact ⟨fun up => absurd down up, fun up => absurd down up, fun up => absurd down up, intact.shut⟩
  | buffer m origin up busy =>
    have entered := intact.enter labelled origin up 0 v.lateWrites (Or.inl rfl)
    rw [List.take_zero, List.append_nil, ← origin.sameBytes.lateWrites] at entered
    exact entered
  | write m n origin up direct => exact intact.enter labelled origin up n _ (Or.inr direct)
  | lose m allowed => exact absurd allowed lossless
  | drain n busy =>
    refine ⟨fun up => ?_, fun _ => ?_, intact.order, intact.shut⟩
    · have bytes := intact.bytes up
      simp only [drained, wrote, List.append_assoc, List.take_append_drop]
      exact bytes
    · simp [drained]
  | attempt =>
    refine ⟨fun up => ?_, intact.writing, intact.order, intact.shut⟩
    simp only [wrote, List.append_nil]
    exact intact.bytes up
  | dropShutdown rest head =>
    refine ⟨intact.bytes, intact.writing, fun up who => ?_, intact.shut⟩
    have order := intact.order up who
    rw [← pending_pop_shutdown head who] at order
    exact order

/-- The socket is shut down with the stream idle. -/
theorem Intact.shut_idle (idle : v.writing = false) (intact : Intact v) : Intact v.shut :=
  ⟨intact.bytes, intact.writing, intact.order, intact.shut_record idle⟩

theorem Intact.step (taken : Step p v u) (lossless : ¬ p.lose) (labelled : Labelled v) : Intact v → Intact u :=
  taken.keeps (fun _ move => Intact.move move lossless labelled) fun _ => Intact.shut_idle

/-! ### Shutting down in order -/

/-- The connection is leaving or has left. -/
def Left (v : OutStream) : Prop := v.state = .kDisconnecting ∨ v.state = .kDisconnected

theorem Left.ne_connected (left : Left v) : v.state ≠ .kConnected := by
  rcases left with h | h <;> simp [h]

theorem Left.ne_connecting (left : Left v) : v.state ≠ .kConnecting := by
  rcases left with h | h <;> simp [h]

theorem Left.move (taken : Move p v u) (left : Left v) : Left u := by
  cases taken with
  | establish before => exact absurd before left.ne_connecting
  | requestShutdown | disconnecting => exact Or.inl rfl
  | close => exact Or.inr rfl
  | buffer m origin | write m n origin | lose m _ origin =>
    have same := origin.sameBytes.state
    exact left.imp same.trans same.trans
  | accept | push | giveUp | drain | attempt | dropShutdown => exact left

/-- A shutdown is queued or about to be. -/
def Asked (v : OutStream) : Prop := .shutdown ∈ v.queue ∨ ∃ t, v.inFlight t = some .shutdown

theorem Origin.mem_queue {m : Message} (origin : Origin v m u) {x : Outgoing} (member : x ∈ u.queue) :
    x ∈ v.queue := by
  cases origin with
  | own => exact member
  | queued rest head =>
    rw [head]
    exact List.mem_cons_of_mem _ member

theorem Origin.inFlight_eq {m : Message} (origin : Origin v m u) : u.inFlight = v.inFlight := by
  cases origin <;> rfl

/-- What another thread has in flight is not touched. -/
theorem inFlight_of_update {t t' : Tid} {o : Option Outgoing} {x : Outgoing} (other : o ≠ some x)
    (found : Function.update v.inFlight t o t' = some x) : v.inFlight t' = some x := by
  by_cases same : t' = t
  · rw [same, Function.update_self] at found
    exact absurd found other
  · rwa [Function.update_of_ne same] at found

/-- A shutdown is asked for by leaving. -/
theorem Asked.move (taken : Move p v u) (asked : Asked u) : Asked v ∨ Left u := by
  cases taken with
  | requestShutdown | disconnecting => exact Or.inr (Or.inl rfl)
  | close => exact Or.inr (Or.inr rfl)
  | accept t m =>
    exact Or.inl (asked.imp id fun flying => flying.imp fun _ => inFlight_of_update (by simp))
  | push t x found =>
    rcases asked with queued | flying
    · rcases List.mem_append.mp queued with old | new
      · exact Or.inl (Or.inl old)
      · exact Or.inl (Or.inr ⟨t, by rw [found, List.mem_singleton.mp new]⟩)
    · exact Or.inl (Or.inr (flying.imp fun _ => inFlight_of_update (by simp)))
  | giveUp m rest _ head | dropShutdown rest head =>
    refine Or.inl (asked.imp (fun queued => ?_) id)
    rw [head]
    exact List.mem_cons_of_mem _ queued
  | buffer m origin | write m n origin | lose m _ origin =>
    exact Or.inl (asked.imp origin.mem_queue fun flying => by rwa [← origin.inFlight_eq])
  | establish | drain | attempt => exact Or.inl asked

/-- No message is queued or about to be, and the backlog is not lost with the connection. -/
structure AllSent (v : OutStream) : Prop where
  up : v.state ≠ .kDisconnected
  queue : messages v.queue = []
  inFlight : ∀ t m, v.inFlight t ≠ some (.message m)

theorem AllSent.pending_eq_nil (sent : AllSent v) (who : Option Tid) : v.pending who = [] := by
  rw [pending, sent.queue, sentBy_nil, List.nil_append]
  cases who with
  | none => rfl
  | some t =>
    cases found : v.inFlight t with
    | none => simp [flying, found]
    | some x =>
      cases x with
      | shutdown => simp [flying, found]
      | message m => exact absurd found (sent.inFlight t m)

theorem count_sentBy (m : Message) (messages : List Message) :
    (sentBy m.sender messages).count m = messages.count m :=
  List.count_filter (by simp)

/-- With nothing pending, the messages processed are those accepted. -/
theorem Intact.perm (intact : Intact v) (up : v.state ≠ .kDisconnected) (done : ∀ who, v.pending who = []) :
    v.processed.Perm v.calls := by
  rw [List.perm_iff_count]
  intro m
  have order := intact.order up m.sender
  rw [done, List.append_nil] at order
  rw [← count_sentBy m v.processed, order, count_sentBy]

/-- Where as many messages are processed as were accepted, nobody is promised anything more. -/
theorem Intact.allSent (intact : Intact v) (up : v.state ≠ .kDisconnected)
    (all : v.processed.length = v.calls.length) : AllSent v := by
  have sub : v.processed.Subperm v.calls := by
    rw [List.subperm_ext_iff]
    intro m _
    rw [← count_sentBy m v.processed, ← count_sentBy m v.calls, ← intact.order up m.sender,
      List.count_append]
    exact Nat.le_add_right _ _
  have perm := sub.perm_of_length_le (Nat.le_of_eq all.symm)
  have done (who : Option Tid) : v.pending who = [] := by
    have sizes := (perm.filter fun m => m.sender = who).length_eq
    have order := congrArg List.length (intact.order up who)
    rw [List.length_append] at order
    unfold sentBy at order
    exact List.length_eq_zero_iff.mp (by omega)
  refine ⟨up, List.eq_nil_iff_forall_not_mem.mpr fun m member => ?_, fun t m found => ?_⟩
  · have own : sentBy m.sender (messages v.queue) = [] := (List.append_eq_nil_iff.mp (done m.sender)).1
    exact List.filter_eq_nil_iff.mp own m member (by simp)
  · have own : messages (v.inFlight t).toList = [] := (List.append_eq_nil_iff.mp (done (some t))).2
    rw [found] at own
    cases own

/-- Everything that was accepted is with the kernel, and nothing can follow it. -/
structure Finished (v : OutStream) : Prop where
  left : Left v
  idle : v.writing = false
  queue : messages v.queue = []
  inFlight : ∀ t m, v.inFlight t ≠ some (.message m)
  whole : v.wire = v.processed.flatMap Message.data
  all : v.processed.Perm v.calls

theorem Finished.no_origin {m : Message} (finished : Finished v) (origin : Origin v m u) : False := by
  cases origin with
  | own up => exact finished.left.ne_connected up
  | queued rest head =>
    have queue := finished.queue
    rw [head] at queue
    cases queue

theorem Finished.move (taken : Move p v u) (finished : Finished v) : Finished u := by
  have left := finished.left.move taken
  cases taken with
  | establish before => exact absurd before finished.left.ne_connecting
  | accept t m before => exact absurd before finished.left.ne_connected
  | requestShutdown t before => exact absurd before finished.left.ne_connected
  | disconnecting => exact { finished with left := left }
  | push t x found =>
    cases x with
    | message m => exact absurd found (finished.inFlight t m)
    | shutdown =>
      refine { finished with
        queue := by simp [finished.queue]
        inFlight := fun t' m there => finished.inFlight t' m (inFlight_of_update (by simp) there) }
  | close => exact { finished with left := left, idle := rfl }
  | giveUp m rest _ head => exact (finished.no_origin (.queued rest head)).elim
  | buffer m origin => exact (finished.no_origin origin).elim
  | write m n origin => exact (finished.no_origin origin).elim
  | lose m _ origin => exact (finished.no_origin origin).elim
  | drain n busy | attempt busy => simp [finished.idle] at busy
  | dropShutdown rest head =>
    refine { finished with queue := ?_ }
    rw [← finished.queue, head]
    rfl

theorem Finished.step (taken : Step p v u) : Finished v → Finished u :=
  taken.keeps (fun _ => Finished.move) fun _ _ finished => { finished with left := finished.left }

theorem Move.shutdowns_eq (taken : Move p v u) : u.shutdowns = v.shutdowns := by
  cases taken with
  | buffer m origin | write m n origin | lose m _ origin => exact origin.sameBytes.shutdowns
  | establish | accept | requestShutdown | disconnecting | push | close | giveUp | drain | attempt
  | dropShutdown => rfl

/-- Before the first shutdown no write is late, and after an orderly one there is none. -/
theorem Move.lateWrites_eq (taken : Move p v u) (orderly : v.shutdowns ≠ [] → Finished v) :
    u.lateWrites = v.lateWrites := by
  by_cases unshut : v.shutdowns = []
  · cases taken with
    | buffer m origin => exact origin.sameBytes.lateWrites
    | write m n origin => simp [keep, wrote, process, origin.sameBytes.shutdowns, origin.sameBytes.lateWrites, unshut]
    | lose m _ origin => simp [wrote, process, origin.sameBytes.shutdowns, origin.sameBytes.lateWrites, unshut]
    | drain | attempt => simp [drained, wrote, unshut]
    | establish | accept | requestShutdown | disconnecting | push | close | giveUp | dropShutdown => rfl
  · have finished := orderly unshut
    cases taken with
    | buffer m origin => exact (finished.no_origin origin).elim
    | write m n origin => exact (finished.no_origin origin).elim
    | lose m _ origin => exact (finished.no_origin origin).elim
    | drain n busy | attempt busy => simp [finished.idle] at busy
    | establish | accept | requestShutdown | disconnecting | push | close | giveUp | dropShutdown => rfl

/-- What was accepted is with the kernel when the socket is shut down, and nothing is written
afterwards. -/
structure Settled (v : OutStream) : Prop where
  asked : Asked v → Left v
  records : ∀ r ∈ v.shutdowns, r.wire = r.processed.flatMap Message.data ∧ r.processed.Perm r.calls
  finished : v.shutdowns ≠ [] → Finished v
  late : v.lateWrites = 0

theorem Settled.move (taken : Move p v u) (settled : Settled v) : Settled u where
  asked asked := (Asked.move taken asked).elim (fun before => (settled.asked before).move taken) id
  records := by
    rw [taken.shutdowns_eq]
    exact settled.records
  finished := by
    rw [taken.shutdowns_eq]
    exact fun shut => (settled.finished shut).move taken
  late := (taken.lateWrites_eq settled.finished).trans settled.late

/-- The first shutdown comes when everything that was accepted has been sent. -/
def sentFirst : Permits := ⟨fun v => v.shutdowns = [] → AllSent v, False, True⟩

theorem AllSent.ends (sent : AllSent v) (ends : Ends v w) : AllSent w := by
  cases ends with
  | asked => exact ⟨by simp, sent.queue, sent.inFlight⟩
  | drained => exact ⟨sent.up, sent.queue, sent.inFlight⟩
  | queued rest head =>
    refine ⟨sent.up, ?_, sent.inFlight⟩
    rw [← sent.queue, head]
    rfl

/-- The stream just before the shutdown of its socket. -/
theorem Settled.ends (settled : Settled v) (intact : Intact w) (permitted : v.shutdowns = [] → AllSent v)
    (ends : Ends v w) : Finished w := by
  by_cases unshut : v.shutdowns = []
  · have sent := (permitted unshut).ends ends
    have left : Left w := by
      cases ends with
      | asked => exact Or.inl rfl
      | drained _ leaving => exact Or.inl leaving
      | queued rest head => exact settled.asked (Or.inl (by rw [head]; exact List.mem_cons_self))
    have idle := ends.idle
    have empty : w.backlog = [] := by
      by_contra waits
      simp [(intact.writing sent.up).mpr waits] at idle
    have bytes := intact.bytes sent.up
    rw [empty, List.append_nil] at bytes
    exact ⟨left, idle, sent.queue, sent.inFlight, bytes, intact.perm sent.up sent.pending_eq_nil⟩
  · exact (settled.finished unshut).move (p := sentFirst) ends.move

theorem Settled.step (taken : Step sentFirst v u) (labelled : Labelled v) (intact : Intact v)
    (settled : Settled v) : Settled u := by
  cases taken with
  | move move => exact settled.move move
  | shut permitted ends =>
    have before := settled.move (p := sentFirst) ends.move
    have finished := settled.ends (intact.move (p := sentFirst) ends.move not_false labelled) permitted ends
    refine { before with records := fun r member => ?_, finished := fun _ => { finished with left := finished.left } }
    rcases List.mem_append.mp member with old | new
    · exact before.records r old
    · rw [List.mem_singleton.mp new]
      exact ⟨finished.whole, finished.all⟩

end OutStream

end Rnet.Network
