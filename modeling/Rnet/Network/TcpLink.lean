import Rnet.Network.InboundStream
import Rnet.Network.WriteInterest

/-!
# Two connections and the network between them

Each end is a connection of this library, on a loop of its own. TCP is what joins them: a read
at one end takes a part of what the kernel of the other has accepted, in order, and the end of
the stream comes behind the last byte, once the other socket is shut down or closed. The steps
of both ends interleave in any way.

The messages of one user come out at the other whole and in order, and in an orderly run whoever
reads the end of the stream has all of them.
-/
namespace Rnet.Network

open Check File

/-! ### More about the outgoing half -/

namespace OutStream

variable {p : Permits} {v u : OutStream}

/-- What is on the wire stays there. -/
theorem Move.wire_prefix (taken : Move p v u) : v.wire <+: u.wire := by
  cases taken with
  | buffer m origin => exact ⟨[], by simp [keep, process, origin.sameBytes.wire]⟩
  | write m n origin => exact ⟨m.data.take n, by simp [keep, process, wrote, origin.sameBytes.wire]⟩
  | lose m _ origin => exact ⟨[], by simp [process, wrote, origin.sameBytes.wire]⟩
  | drain n => exact ⟨v.backlog.take n, rfl⟩
  | attempt => exact ⟨[], rfl⟩
  | establish | accept | requestShutdown | disconnecting | push | close | giveUp | dropShutdown =>
    exact List.prefix_rfl

theorem Step.wire_prefix (taken : Step p v u) : v.wire <+: u.wire := by
  cases taken with
  | move move => exact move.wire_prefix
  | shut _ ends =>
    have moved : Move p v _ := ends.move
    exact moved.wire_prefix

/-- A socket that is shut down stays so. -/
theorem Step.stays_shut (taken : Step p v u) (shut : v.shutdowns ≠ []) : u.shutdowns ≠ [] := by
  cases taken with
  | move move => rwa [move.shutdowns_eq]
  | shut => simp [OutStream.shut]

/-- Only a close takes the connection down. -/
theorem Move.stays_up (taken : Move p v u) (held : ¬ p.close) (up : v.state ≠ .kDisconnected) :
    u.state ≠ .kDisconnected := by
  cases taken with
  | close allowed => exact absurd allowed held
  | establish | requestShutdown | disconnecting => simp
  | buffer m origin | write m n origin | lose m _ origin =>
    have same := origin.sameBytes.state
    exact fun down => up (same.symm.trans down)
  | accept | push | giveUp | drain | attempt | dropShutdown => exact up

theorem Step.stays_up (taken : Step p v u) (held : ¬ p.close) (up : v.state ≠ .kDisconnected) :
    u.state ≠ .kDisconnected := by
  cases taken with
  | move move => exact move.stays_up held up
  | shut _ ends => exact (ends.move (p := p)).stays_up held up

/-- A connection that is down does not ask for write events. -/
def Hushed (v : OutStream) : Prop := v.state = .kDisconnected → v.writing = false

theorem Hushed.move (taken : Move p v u) (hushed : Hushed v) : Hushed u := by
  intro down
  cases taken with
  | establish | accept | requestShutdown | disconnecting => simp_all
  | push | giveUp | dropShutdown | attempt => exact hushed down
  | close => rfl
  | buffer m origin up => exact absurd (origin.sameBytes.state.symm.trans down) up
  | write m n origin up => exact absurd (origin.sameBytes.state.symm.trans down) up
  | lose m _ origin up => exact absurd (origin.sameBytes.state.symm.trans down) up
  | drain n busy => exact absurd (hushed down) (by simp [busy])

theorem Hushed.step (taken : Step p v u) : Hushed v → Hushed u :=
  taken.keeps (fun _ => Hushed.move) fun _ idle _ _ => idle

theorem Hushed.move_wire (hushed : Hushed v) (taken : Move p v u) (down : v.state = .kDisconnected) :
    u.wire = v.wire := by
  cases taken with
  | buffer m origin up => exact absurd down up
  | write m n origin up => exact absurd down up
  | lose m _ origin up => exact absurd down up
  | drain n busy | attempt busy => simp [hushed down] at busy
  | establish | accept | requestShutdown | disconnecting | push | close | giveUp | dropShutdown => rfl

/-- Nothing is written by a connection that is down. -/
theorem Hushed.wire_eq (hushed : Hushed v) (taken : Step p v u) (down : v.state = .kDisconnected) :
    u.wire = v.wire := by
  cases taken with
  | move move => exact hushed.move_wire move down
  | shut _ ends =>
    have same := hushed.move_wire (ends.move (p := p)) down
    exact same

/-- What is on the wire came from the messages, also when the rest of them was lost with the
connection. -/
def Carried (v : OutStream) : Prop := v.wire <+: v.processed.flatMap Message.data

theorem Carried.move (taken : Move p v u) (hushed : Hushed v) (before : Intact v) (after : Intact u)
    (carried : Carried v) : Carried u := by
  by_cases down : u.state = .kDisconnected
  · cases taken with
    | establish | accept | requestShutdown | disconnecting => simp_all
    | push | giveUp | dropShutdown => exact carried
    | close _ up => exact ⟨v.backlog, before.bytes (by rcases up with h | h <;> simp [h])⟩
    | buffer m origin up => exact absurd (origin.sameBytes.state.symm.trans down) up
    | write m n origin up => exact absurd (origin.sameBytes.state.symm.trans down) up
    | lose m _ origin up => exact absurd (origin.sameBytes.state.symm.trans down) up
    | drain n busy | attempt busy => exact absurd (hushed down) (by simp [busy])
  · exact ⟨u.backlog, after.bytes down⟩

theorem Carried.step (taken : Step p v u) (lossless : ¬ p.lose) (labelled : Labelled v) (hushed : Hushed v)
    (intact : Intact v) (carried : Carried v) : Carried u := by
  cases taken with
  | move move => exact carried.move move hushed intact (intact.move move lossless labelled)
  | shut _ ends =>
    have move := ends.move (p := p)
    have before := carried.move move hushed intact (intact.move move lossless labelled)
    exact before

end OutStream

namespace Connection

open OutStream (Permits Finished Carried Hushed)

variable {s t : Connection} {a : Action}

theorem Effect.wire_prefix (effect : s.Effect a t) : s.wire <+: t.wire := by
  have grown (v u : OutStream) (step : OutStream.Step anything v u) (before : s.wire <+: v.wire) :
      s.wire <+: u.wire := before.trans step.wire_prefix
  exact effect.steps_anyhow.keeps grown List.prefix_rfl

theorem hushed_start (cfg : ConnConfig) : Hushed (start cfg).view := by
  intro down
  cases down

theorem Effect.hushed (effect : s.Effect a t) (hushed : Hushed s.view) : Hushed t.view :=
  effect.steps_anyhow.keeps (fun _ _ step before => before.step step) hushed

/-- No more bytes will come from this end: its socket is shut down, or the connection is down, as it
must be before the socket is closed. -/
def Over (s : Connection) : Prop := s.shutdowns ≠ [] ∨ s.state = .kDisconnected

instance (s : Connection) : Decidable s.Over := inferInstanceAs (Decidable (_ ∨ _))

theorem Effect.stays_shut (effect : s.Effect a t) (shut : s.shutdowns ≠ []) : t.shutdowns ≠ [] := by
  have stays (v u : OutStream) (step : OutStream.Step anything v u) (before : v.shutdowns ≠ []) :
      u.shutdowns ≠ [] := step.stays_shut before
  exact effect.steps_anyhow.keeps stays shut

theorem Effect.stays_down (effect : s.Effect a t) (hushed : Hushed s.view) (down : s.state = .kDisconnected) :
    t.state = .kDisconnected ∧ t.wire = s.wire := by
  have stays (v u : OutStream) (step : OutStream.Step anything v u)
      (before : Hushed v ∧ v.state = .kDisconnected ∧ v.wire = s.wire) :
      Hushed u ∧ u.state = .kDisconnected ∧ u.wire = s.wire := by
    obtain ⟨hushed, down, wire⟩ := before
    exact ⟨hushed.step step, step.disconnected down, (hushed.wire_eq step down).trans wire⟩
  exact (effect.steps_anyhow.keeps stays ⟨hushed, down, rfl⟩).2

theorem Effect.stays_over (effect : s.Effect a t) (hushed : Hushed s.view) (gone : s.Over) : t.Over := by
  rcases gone with shut | down
  · exact Or.inl (effect.stays_shut shut)
  · exact Or.inr (effect.stays_down hushed down).1

/-- The stream is whole, and the wire has nothing but its messages. -/
structure Honest (s : Connection) : Prop extends Whole s where
  hushed : Hushed s.view
  carried : Carried s.view

theorem honest_start (cfg : ConnConfig) : Honest (start cfg) where
  toWhole := whole_start cfg
  hushed := hushed_start cfg
  carried := List.prefix_rfl

theorem step_honest (alive : Bool) (s : Connection) (a : Action) (t : Connection) (honest : Honest s)
    (works : ¬ a.Breaks) (taken : s.step alive a = .ok t) : Honest t := by
  have steps : OutStream.Steps unbroken s.view t.view :=
    (step_effect honest.mirrored alive a t taken).steps (fun breaks => absurd breaks works) (fun _ => trivial)
      fun _ => trivial
  -- each step of the stream is judged with the integrity of the stream before it
  have kept (v u : OutStream) (step : OutStream.Step unbroken v u)
      (inv : (OutStream.Labelled v ∧ OutStream.Intact v) ∧ Hushed v ∧ Carried v) :
      (OutStream.Labelled u ∧ OutStream.Intact u) ∧ Hushed u ∧ Carried u := by
    obtain ⟨⟨labelled, intact⟩, hushed, carried⟩ := inv
    exact ⟨⟨labelled.step step, intact.step step not_false labelled⟩, hushed.step step,
      carried.step step not_false labelled hushed intact⟩
  obtain ⟨_, hushed, carried⟩ :=
    steps.keeps kept ⟨⟨honest.labelled, honest.intact⟩, honest.hushed, honest.carried⟩
  exact ⟨step_whole alive s a t honest.toWhole works taken, hushed, carried⟩

/-- A step that leaves the connection up, and is orderly. -/
structure Staying (s : Connection) (a : Action) : Prop where
  orderly : s.Orderly a
  up : ¬ a.TakesDown s

/-- The connection is up and orderly until its `shutdownWrite`, and finished from there on. -/
structure Parting (s : Connection) : Prop where
  mirrored : s.Mirrored
  before : s.shutdowns = [] → Graceful s ∧ s.state ≠ .kDisconnected
  after : s.shutdowns ≠ [] → Finished s.view

theorem parting_start (cfg : ConnConfig) : Parting (start cfg) where
  mirrored := mirrored_start cfg
  before _ := ⟨graceful_start cfg, by rintro ⟨⟩⟩
  after shut := absurd rfl shut

theorem Effect.stays_up (effect : s.Effect a t) (up : s.state ≠ .kDisconnected) (stays : ¬ a.TakesDown s) :
    t.state ≠ .kDisconnected := by
  have steps : OutStream.Steps ⟨fun _ => True, True, False⟩ s.view t.view :=
    effect.steps (fun _ => trivial) stays fun _ => trivial
  exact steps.keeps (fun _ _ step before => step.stays_up not_false before) up

theorem step_parting (s : Connection) (a : Action) (t : Connection) (parting : Parting s)
    (staying : s.shutdowns = [] → s.Staying a) (taken : s.step true a = .ok t) : Parting t := by
  have effect := step_effect parting.mirrored true a t taken
  have mirrored := effect.mirrored parting.mirrored
  by_cases unshut : s.shutdowns = []
  · obtain ⟨graceful, up⟩ := parting.before unshut
    have stays := staying unshut
    have after := step_graceful true s a t graceful stays.orderly taken
    exact ⟨mirrored, fun _ => ⟨after, effect.stays_up up stays.up⟩, after.settled.finished⟩
  · have finished : Finished t.view :=
      effect.steps_anyhow.keeps (fun _ _ step before => before.step step) (parting.after unshut)
    exact ⟨mirrored, fun closed => absurd closed (effect.stays_shut unshut), fun _ => finished⟩

end Connection

/-! ### The link -/

/-- The two ends, told apart by a `Bool`. -/
structure TcpLink where
  ends : Bool → Endpoint

namespace TcpLink

open Connection (Honest Parting)

def start (cfgs : Bool → ConnConfig) : TcpLink := ⟨fun b => .start (cfgs b)⟩

/-- The bytes on their way to an end. -/
def transit (s : TcpLink) (b : Bool) : List Byte := (s.ends !b).conn.wire.drop (s.ends b).delivered.length

/-- What `readv(2)` may hand over at an end: some of the bytes on their way, in order; or nothing,
when all have come and the other end is over. -/
def Carries (s : TcpLink) (b : Bool) : Option (List Byte) → Prop
  | none => True
  | some [] => s.transit b = [] ∧ (s.ends !b).conn.Over
  | some (byte :: data) => byte :: data <+: s.transit b

instance (s : TcpLink) (b : Bool) : ∀ read : Option (List Byte), Decidable (s.Carries b read)
  | none => inferInstanceAs (Decidable True)
  | some [] => inferInstanceAs (Decidable (_ ∧ _))
  | some (byte :: data) => inferInstanceAs (Decidable (byte :: data <+: s.transit b))

/-- An end takes a step. -/
def step (s : TcpLink) (act : Bool × Connection.Action) : Comp ConnFault TcpLink := do
  require (s.Carries act.1 ((s.ends act.1).conn.reads act.2))
  let e ← (s.ends act.1).step true act.2
  -- the kernel takes no more bytes from a socket that is shut down
  require ((s.ends act.1).conn.shutdowns ≠ [] → e.conn.wire = (s.ends act.1).conn.wire)
  return ⟨Function.update s.ends act.1 e⟩

variable {s t : TcpLink} {b : Bool} {a : Connection.Action}

/-- What a step of the link is. -/
structure Moved (s : TcpLink) (b : Bool) (a : Connection.Action) (t : TcpLink) : Prop where
  carries : s.Carries b ((s.ends b).conn.reads a)
  moved : (s.ends b).Moved true a (t.ends b)
  other : t.ends (!b) = s.ends !b
  frozen : (s.ends b).conn.shutdowns ≠ [] → (t.ends b).conn.wire = (s.ends b).conn.wire

theorem step_moved (s : TcpLink) (b : Bool) (a : Connection.Action) : Yields (s.Moved b a) (s.step (b, a)) := by
  simp only [step, yields_bind, yields_require, yields_pure]
  refine fun carries => ((s.ends b).step_moved true a).mono fun e moved frozen => ?_
  have mine : Function.update s.ends b e b = e := Function.update_self ..
  refine ⟨carries, ?_, Function.update_of_ne (by simp) .., ?_⟩
  · dsimp only
    rw [mine]
    exact moved
  · dsimp only
    rw [mine]
    exact frozen

/-- An end keeps what each step of its own keeps. -/
theorem Moved.sides {P : Connection → Prop} (moved : Moved s b a t)
    (preserved : P (s.ends b).conn → (s.ends b).conn.step true a = .ok (t.ends b).conn → P (t.ends b).conn)
    (before : ∀ c, P (s.ends c).conn) (c : Bool) : P (t.ends c).conn := by
  by_cases mine : c = b
  · rw [mine]
    exact preserved (before b) moved.moved.conn
  · rw [Bool.eq_not.mpr mine, moved.other]
    exact before _

/-- Bytes come to an end as they left the other one; at the end of the stream all have come, and
there will be no more. -/
structure Joined (s : TcpLink) (b : Bool) : Prop where
  mirrored : ∀ c, (s.ends c).conn.Mirrored
  inbound : (s.ends b).Inbound
  came : (s.ends b).delivered <+: (s.ends !b).conn.wire
  ended : (s.ends b).eof = true → (s.ends b).delivered = (s.ends !b).conn.wire ∧ (s.ends !b).conn.Over
  hushed : OutStream.Hushed (s.ends !b).conn.view

theorem start_joined (cfgs : Bool → ConnConfig) (b : Bool) : Joined (start cfgs) b where
  mirrored c := Connection.mirrored_start (cfgs c)
  inbound := Endpoint.start_inbound (cfgs b)
  came := List.nil_prefix
  ended eof := absurd eof Bool.false_ne_true
  hushed := Connection.hushed_start (cfgs !b)

theorem Moved.mirrored (moved : Moved s b a t) (mirrored : ∀ c, (s.ends c).conn.Mirrored) (c : Bool) :
    (t.ends c).conn.Mirrored :=
  moved.sides (fun kept taken => Connection.step_mirrored kept true a _ taken) mirrored c

theorem Joined.transit_eq (joined : Joined s b) :
    (s.ends b).delivered ++ s.transit b = (s.ends !b).conn.wire := by
  obtain ⟨rest, whole⟩ := joined.came
  rw [transit, ← whole, List.drop_left]

/-- The end reads. -/
theorem Joined.read (joined : Joined s b) (moved : Moved s b a t) : Joined t b := by
  have whole := joined.transit_eq
  have carries := moved.carries
  refine ⟨moved.mirrored joined.mirrored, moved.moved.inbound (joined.mirrored b) joined.inbound, ?_,
    fun eof => ?_, by rw [moved.other]; exact joined.hushed⟩
  · rw [moved.other, moved.moved.delivered, ← whole, List.prefix_append_right_inj]
    cases reads : (s.ends b).conn.reads a with
    | none => exact List.nil_prefix
    | some data =>
      rw [reads] at carries
      cases data with
      | nil => exact List.nil_prefix
      | cons byte data => exact carries
  · rw [moved.other, moved.moved.delivered]
    rw [moved.moved.eof, Bool.or_eq_true] at eof
    rcases eof with before | now
    · -- behind the end of the stream there is nothing to read
      obtain ⟨all, gone⟩ := joined.ended before
      have empty : s.transit b = [] := by rw [transit, all, List.drop_length]
      refine ⟨?_, gone⟩
      rw [← all, List.append_right_eq_self]
      cases reads : (s.ends b).conn.reads a with
      | none => rfl
      | some data =>
        rw [reads] at carries
        cases data with
        | nil => rfl
        | cons byte data =>
          rw [Carries, empty] at carries
          exact absurd (List.prefix_nil.mp carries) (List.cons_ne_nil byte data)
    · rw [beq_iff_eq] at now
      rw [now] at carries ⊢
      rw [carries.1, List.append_nil] at whole
      exact ⟨by rw [← whole]; simp, carries.2⟩

/-- The other end writes, shuts down or closes. -/
theorem Joined.write (joined : Joined s !b) (moved : Moved s b a t) : Joined t !b := by
  obtain ⟨mirrored, inbound, came, ended, hushed⟩ := joined
  have effect := moved.moved.effect (mirrored b)
  rw [Bool.not_not] at came ended hushed
  constructor
  · exact moved.mirrored mirrored
  · rw [moved.other]
    exact inbound
  · rw [moved.other, Bool.not_not]
    exact came.trans effect.wire_prefix
  · rw [moved.other, Bool.not_not]
    intro eof
    obtain ⟨all, gone⟩ := ended eof
    have still : (t.ends b).conn.wire = (s.ends b).conn.wire := by
      rcases gone with shut | down
      · exact moved.frozen shut
      · exact (effect.stays_down hushed down).2
    exact ⟨all.trans still.symm, effect.stays_over hushed gone⟩
  · rw [Bool.not_not]
    exact effect.hushed hushed

theorem Moved.joined (moved : Moved s b a t) (joined : ∀ c, Joined s c) (c : Bool) : Joined t c := by
  by_cases mine : c = b
  · rw [mine]
    exact (joined b).read moved
  · rw [Bool.eq_not.mpr mine]
    exact (joined !b).write moved

/-! ### From user to user -/

/-- In every run of the two ends in which no `write(2)` breaks the connection, in both directions:
what one user has taken and can take is the beginning of the messages of the other, in the order
in which they were processed. While the sender is not down, those bytes, the ones on their way
and its backlog are all of these messages; and the messages of each thread are in its order. -/
theorem messages_cross (cfgs : Bool → ConnConfig) (acts : List (Bool × Connection.Action)) (s : TcpLink)
    (works : ∀ act ∈ acts, ¬ act.2.Breaks) (reached : Run.exec step (start cfgs) acts = .ok s) (b : Bool) :
    (s.ends b).retrieved ++ (s.ends b).conn.inputBuffer.content <+:
      (s.ends !b).conn.processed.flatMap Message.data ∧
    ((s.ends !b).conn.state ≠ .kDisconnected →
      (s.ends b).retrieved ++ (s.ends b).conn.inputBuffer.content ++ s.transit b ++
          (s.ends !b).conn.outputBuffer.content = (s.ends !b).conn.processed.flatMap Message.data ∧
      ∀ who, OutStream.sentBy who (s.ends !b).conn.processed ++ (s.ends !b).conn.view.pending who =
        OutStream.sentBy who (s.ends !b).conn.calls) := by
  have meets : Run.Meets step (fun _ act => ¬ act.2.Breaks) (start cfgs) acts :=
    Run.meets_of_forall _ acts fun _ act member => works act member
  have preserved (s : TcpLink) (act : Bool × Connection.Action) (t : TcpLink)
      (inv : (∀ c, Joined s c) ∧ ∀ c, Honest (s.ends c).conn) (works : ¬ act.2.Breaks)
      (taken : s.step act = .ok t) : (∀ c, Joined t c) ∧ ∀ c, Honest (t.ends c).conn := by
    have moved := s.step_moved act.1 act.2 t taken
    exact ⟨moved.joined inv.1,
      moved.sides (fun honest taken => Connection.step_honest true _ act.2 _ honest works taken) inv.2⟩
  obtain ⟨joined, honest⟩ := Run.exec_keeps preserved (start cfgs) s acts
    ⟨start_joined cfgs, fun c => Connection.honest_start (cfgs c)⟩ meets reached
  have input : (s.ends b).delivered = (s.ends b).retrieved ++ (s.ends b).conn.inputBuffer.content :=
    (joined b).inbound
  rw [← input, (joined b).transit_eq]
  exact ⟨(joined b).came.trans (honest !b).carried,
    fun up => ⟨(honest !b).intact.bytes up, (honest !b).intact.order up⟩⟩

/-- One end sends from another thread and shuts down, while the kernel takes the bytes in two parts. -/
def partsAndReads : List (Bool × Connection.Action) :=
  ([.resume (.delivered []) (.count 0), .resume (.delivered []) (.count 0), .call 5 (.send [1, 2, 3]), .push 5,
    .call 5 .shutdown, .push 5, .swap, .next (.count 1), .next (.count 0), .finish] : List _).map (false, ·) ++
  -- the other end reads what is there, and its user takes it
  ([.resume (.delivered []) (.count 0), .resume (.delivered []) (.count 0), .swap, .finish, .poll (some epollIn),
    .dispatch, .resume (.delivered [1]) (.count 0), .retrieveInput 1, .resume (.delivered []) (.count 0),
    .resume (.delivered []) (.count 0), .swap, .finish] : List _).map (true, ·) ++
  ([.poll (some epollOut), .dispatch, .resume (.delivered []) (.count 0), .resume (.delivered []) (.count 2)] :
    List _).map (false, ·)

theorem messages_cross_parts : (∀ act ∈ partsAndReads, ¬ act.2.Breaks) ∧
    ∃ s, Run.exec step (start fun _ => Connection.ownLoop) partsAndReads = .ok s ∧
      (s.ends true).retrieved = [1] ∧ s.transit true = [2, 3] ∧
      (s.ends true).retrieved ++ (s.ends true).conn.inputBuffer.content <+:
        (s.ends false).conn.processed.flatMap Message.data := by
  have works : ∀ act ∈ partsAndReads, ¬ act.2.Breaks := by decide
  have last : (Run.exec step (start fun _ => Connection.ownLoop) partsAndReads).toOption.map
      (fun s => ((s.ends true).retrieved, s.transit true)) = some ([1], [2, 3]) := by decide +kernel
  obtain ⟨s, reached, ended⟩ := returned_of_map last
  simp only [Prod.mk.injEq] at ended
  exact ⟨works, s, reached, ended.1, ended.2, (messages_cross _ partsAndReads s works reached true).1⟩

/-- The steps of an end are orderly and leave it up until it has shut its socket down. What the other
end does, and what this one does afterwards, is free. -/
def Parts (b : Bool) (s : TcpLink) (act : Bool × Connection.Action) : Prop :=
  act.1 = b → (s.ends b).conn.shutdowns = [] → (s.ends b).conn.Staying act.2

/-- In every run in which one end parts in an orderly way: once the other end has read the end of
the stream, its user has or can take every message that was accepted, whole, and nothing else. -/
theorem eof_complete (cfgs : Bool → ConnConfig) (acts : List (Bool × Connection.Action)) (s : TcpLink) (b : Bool)
    (meets : Run.Meets step (Parts b) (start cfgs) acts) (reached : Run.exec step (start cfgs) acts = .ok s)
    (eof : (s.ends !b).eof = true) :
    (s.ends !b).retrieved ++ (s.ends !b).conn.inputBuffer.content =
      (s.ends b).conn.processed.flatMap Message.data ∧
    (s.ends b).conn.processed.Perm (s.ends b).conn.calls := by
  have preserved (s : TcpLink) (act : Bool × Connection.Action) (t : TcpLink)
      (inv : (∀ c, Joined s c) ∧ Parting (s.ends b).conn) (parts : Parts b s act)
      (taken : s.step act = .ok t) : (∀ c, Joined t c) ∧ Parting (t.ends b).conn := by
    have moved := s.step_moved act.1 act.2 t taken
    refine ⟨moved.joined inv.1, ?_⟩
    by_cases mine : act.1 = b
    · have conn := moved.moved.conn
      rw [mine] at conn
      exact Connection.step_parting _ act.2 _ inv.2 (parts mine) conn
    · have other := moved.other
      rw [← Bool.eq_not.mpr (Ne.symm mine)] at other
      rw [other]
      exact inv.2
  obtain ⟨joined, parting⟩ := Run.exec_keeps preserved (start cfgs) s acts
    ⟨start_joined cfgs, Connection.parting_start (cfgs b)⟩ meets reached
  obtain ⟨all, gone⟩ := (joined !b).ended eof
  rw [Bool.not_not] at all gone
  -- an orderly connection is not down before it has shut its socket down
  have shut : (s.ends b).conn.shutdowns ≠ [] := by
    intro unshut
    rcases gone with shut | down
    · exact shut unshut
    · exact (parting.before unshut).2 down
  have finished := parting.after shut
  have input : (s.ends !b).delivered = (s.ends !b).retrieved ++ (s.ends !b).conn.inputBuffer.content :=
    (joined !b).inbound
  exact ⟨input.symm.trans (all.trans finished.whole), finished.all⟩

/-- The other end then reads the rest, and the end of the stream. -/
def readsToTheEnd : List (Bool × Connection.Action) :=
  partsAndReads ++
  ([.poll (some epollIn), .dispatch, .resume (.delivered [2, 3]) (.count 0), .resume (.delivered []) (.count 0),
    .resume (.delivered []) (.count 0), .swap, .finish, .poll (some epollIn), .dispatch,
    .resume (.delivered []) (.count 0)] : List _).map (true, ·)

/-- The same by counting, which can be evaluated. -/
def PartsTallied (b : Bool) (s : TcpLink) (act : Bool × Connection.Action) : Prop :=
  ¬ act.2.Breaks ∧ (act.1 = b → (s.ends b).conn.shutdowns = [] →
    (s.ends b).conn.Tallied act.2 ∧ ¬ act.2.TakesDown (s.ends b).conn)

instance (b : Bool) (s : TcpLink) (act : Bool × Connection.Action) : Decidable (PartsTallied b s act) :=
  inferInstanceAs (Decidable (_ ∧ _))

theorem parts_of_tallied (cfgs : Bool → ConnConfig) (b : Bool) (acts : List (Bool × Connection.Action))
    (tallied : Run.Meets step (PartsTallied b) (start cfgs) acts) : Run.Meets step (Parts b) (start cfgs) acts := by
  have preserved (s : TcpLink) (act : Bool × Connection.Action) (t : TcpLink)
      (whole : ∀ c, (s.ends c).conn.Whole) (allowed : PartsTallied b s act) (taken : s.step act = .ok t) :
      ∀ c, (t.ends c).conn.Whole :=
    (s.step_moved act.1 act.2 t taken).sides
      (fun whole taken => Connection.step_whole true _ act.2 _ whole allowed.1 taken) whole
  have implies (s : TcpLink) (act : Bool × Connection.Action) (whole : ∀ c, (s.ends c).conn.Whole)
      (allowed : PartsTallied b s act) : Parts b s act := by
    intro mine unshut
    obtain ⟨counted, up⟩ := allowed.2 mine unshut
    exact ⟨(whole b).orderly counted, up⟩
  exact Run.Meets.imp preserved implies (start cfgs) acts (fun c => Connection.whole_start (cfgs c)) tallied

theorem eof_complete_parts :
    Run.Meets step (Parts false) (start fun _ => Connection.ownLoop) readsToTheEnd ∧
    ∃ s, Run.exec step (start fun _ => Connection.ownLoop) readsToTheEnd = .ok s ∧ (s.ends true).eof = true ∧
      (s.ends true).retrieved ++ (s.ends true).conn.inputBuffer.content =
        (s.ends false).conn.processed.flatMap Message.data := by
  have meets : Run.Meets step (Parts false) (start fun _ => Connection.ownLoop) readsToTheEnd :=
    parts_of_tallied _ false readsToTheEnd (by decide +kernel)
  have last : (Run.exec step (start fun _ => Connection.ownLoop) readsToTheEnd).toOption.map
      (fun s => (s.ends true).eof) = some true := by decide +kernel
  obtain ⟨s, reached, ended⟩ := returned_of_map last
  exact ⟨meets, s, reached, ended, (eof_complete _ readsToTheEnd s false meets reached ended).1⟩

end TcpLink

end Rnet.Network
