import Rnet.Lib.Blame
import Rnet.Lib.Descriptors
import Rnet.Network.Channel

/-!
# The acceptor and its descriptors

`rnet::Network::Acceptor` with `Sockets::accept`. `HandleRead` makes up to five system calls, and
the other threads of the process open and close descriptors between them, so the function is cut
at each call. When the process has run out of descriptors, `idleFd_` is given up for a moment to
take a connection from the queue and close it. The poller here is the part of the loop's poller
that concerns the listening socket.

The first result is about every run: the acceptor closes only what it owns, keeps two
descriptors and no more, leaves nothing behind in the poller, and every connection is handed over
or closed, once, in the order of arrival. The second is about runs in which no other thread opens
a descriptor behind the back of `HandleRead`: then `idleFd_` is always there, and no event leaves a
waiting connection untouched.
-/
namespace Rnet.Network

open Check

/-- The values of `errno` that `Sockets::accept` tells apart. -/
inductive AcceptErrno where
  | eagain
  | econnaborted
  | eintr
  | eproto
  | eperm
  | emfile
  | ebadf
  | efault
  | einval
  | enfile
  | enobufs
  | enomem
  | enotsock
  | eopnotsupp
  | unknown (code : Nat)
  deriving DecidableEq, Repr

/-- The first group of the `switch` in `Sockets::accept`; all others end in `LOG_FATAL`. -/
def AcceptErrno.expected : AcceptErrno → Bool
  | .eagain | .econnaborted | .eintr | .eproto | .eperm | .emfile => true
  | _ => false

/-- The answer of a system call that opens a descriptor. -/
inductive OpenAnswer where
  | opened (fd : Fd)
  | failed (errno : AcceptErrno)
  deriving DecidableEq, Repr

/-- The call fails, if at all, for want of a descriptor or of a connection. -/
def OpenAnswer.Regular : OpenAnswer → Prop
  | .opened _ => True
  | .failed errno => errno = .emfile ∨ errno = .eagain ∨ errno = .econnaborted

instance : ∀ answer : OpenAnswer, Decidable answer.Regular
  | .opened _ => inferInstanceAs (Decidable True)
  | .failed _ => inferInstanceAs (Decidable (_ ∨ _))

def OpenAnswer.fd? : OpenAnswer → Option Fd
  | .opened fd => some fd
  | .failed _ => none

inductive FdOwner where
  | listener
  /-- `idleFd_`. -/
  | idle
  /-- A connection that has not been handed over. -/
  | accepted
  /-- A connection that has been handed over. -/
  | handed
  /-- Something else in the process. -/
  | other
  deriving DecidableEq, Repr

/-- What became of a connection. -/
inductive Fate where
  | handed (fd : Fd)
  | closed
  /-- The kernel gave it up. -/
  | aborted
  deriving DecidableEq, Repr

/-- Which call comes next. -/
inductive AcceptorPoint where
  | unborn
  | openFirst
  | bindAddress
  /-- No function of the acceptor is running. -/
  | rest
  | closeIdle
  | acceptIdle
  | closeAccepted
  | openIdle
  | gone
  deriving DecidableEq, Repr

inductive AcceptorFault where
  /-- `LOG_SYSFATAL` of `CreateNonblockingOrDie`. -/
  | socket
  /-- `assert(idleFd_ >= 0)` of the constructor. -/
  | idleFd
  /-- `LOG_SYSFATAL` of `BindOrDie`. -/
  | bind
  /-- `LOG_SYSFATAL` of `ListenOrDie`. -/
  | listen
  /-- An assert on the way to the poller. -/
  | poller (fault : PollerFault)
  /-- The asserts of `~Channel`. -/
  | channel
  /-- `LOG_FATAL` of `Sockets::accept`. -/
  | unexpected (errno : AcceptErrno)
  /-- A descriptor is closed that is not the acceptor's. -/
  | foreignClose (fd : Fd)
  deriving DecidableEq, Repr

/-- The acceptor is not to blame: the kernel refused, `accept(2)` failed with an error that the
`switch` of `Sockets::accept` does not expect, or the destructor was called by an event handler while
`activeChannels_` has the channel. -/
def AcceptorFault.external : AcceptorFault → Bool
  | .socket | .idleFd | .bind | .listen | .poller .eventLoopRemoveChannel => true
  | .unexpected errno => !errno.expected
  | .poller _ | .channel | .foreignClose _ => false

/-- A call of `HandleRead`: whether a connection was waiting, and whether the queue got shorter. -/
structure AcceptRound where
  waiting : Bool
  took : Bool
  deriving DecidableEq, Repr

/-- Connections are numbered as they arrive. -/
structure Acceptor where
  fds : Descriptors FdOwner
  point : AcceptorPoint
  acceptSocket : Option Fd
  acceptChannel : Channel
  poller : Epoll
  listening : Bool
  /-- Whether the callback is set. -/
  newConnectionCallback : Bool
  /-- `none` is -1. -/
  idleFd : Option Fd
  /-- The queue of the listening socket. -/
  pending : List Nat
  arrivals : Nat
  -- The rest is history: no function reads it.
  /-- The connection whose descriptor the acceptor has. -/
  inHand : Option Nat
  fates : List (Nat × Fate)
  round : AcceptRound
  rounds : List AcceptRound

namespace Acceptor

def start (limit : Nat) : Acceptor where
  fds := ⟨limit, fun _ => none⟩
  point := .unborn
  acceptSocket := none
  acceptChannel := .new 0 0
  poller := .new
  listening := false
  newConnectionCallback := false
  idleFd := none
  pending := []
  arrivals := 0
  inHand := none
  fates := []
  round := ⟨false, false⟩
  rounds := []

/-! ### System calls -/

/-- A call that opens a descriptor, marked with what it is for. -/
def opens (s : Acceptor) (who : FdOwner) : OpenAnswer → Comp AcceptorFault Acceptor
  | .opened fd => do
    require (s.fds.Free fd)
    return { s with fds := s.fds.acquire fd who }
  | .failed errno => do
    require (errno = .emfile → s.fds.Full)
    require (errno ≠ .eagain ∧ errno ≠ .econnaborted)
    return s

/-- `accept(2)` on the listening socket: the oldest connection of the queue. -/
def accept (s : Acceptor) : OpenAnswer → Comp AcceptorFault Acceptor
  | .opened fd =>
    match s.pending with
    | [] => .error .disabled
    | id :: rest => do
      require (s.fds.Free fd)
      return { s with
        fds := s.fds.acquire fd .accepted
        pending := rest
        inHand := some id
        round := { s.round with took := true } }
  | .failed .econnaborted =>
    match s.pending with
    | [] => .error .disabled
    | id :: rest => return { s with
        pending := rest
        fates := s.fates ++ [(id, .aborted)]
        round := { s.round with took := true } }
  | .failed errno => do
    require (errno = .emfile → s.fds.Full)
    require (errno = .eagain → s.pending = [])
    return s

/-- `close(2)` of what should be marked `who`; the close of -1 does nothing. -/
def close (s : Acceptor) (who : FdOwner) : Option Fd → Comp AcceptorFault Acceptor
  | none => return s
  | some fd => do
    ensure (.foreignClose fd) (s.fds.owner fd = some who)
    return { s with fds := s.fds.release fd }

/-! ### The functions of the acceptor -/

/-- The connection in hand has met its fate. -/
def settle (s : Acceptor) (fate : Fate) : Acceptor :=
  { s with fates := s.fates ++ s.inHand.toList.map (·, fate), inHand := none }

/-- `HandleRead` returns. -/
def leave (s : Acceptor) : Acceptor := { s with point := .rest, rounds := s.rounds ++ [s.round] }

def updateChannel (s : Acceptor) (op : Epoll → Comp PollerFault (Epoll × Channel)) :
    Comp AcceptorFault Acceptor := do
  let (poller, channel) ← lift .poller (op s.poller)
  return { s with poller := poller, acceptChannel := channel }

/-- The constructor, up to the `open(2)` of `/dev/null`. -/
def construct (s : Acceptor) (answer : OpenAnswer) : Comp AcceptorFault Acceptor := do
  require (s.point = .unborn)
  let s ← s.opens .listener answer
  match answer with
  | .failed _ => .error (.fault .socket)
  | .opened fd => return { s with acceptSocket := some fd, acceptChannel := .new 0 fd, point := .openFirst }

/-- The end of the constructor. The options set before `bind(2)` are not checked. -/
def bindAddress (s : Acceptor) (granted : Bool) : Comp AcceptorFault Acceptor := do
  require (s.point = .bindAddress)
  ensure .bind (granted = true)
  return { s with point := .rest }

def listen (s : Acceptor) (granted : Bool) : Comp AcceptorFault Acceptor := do
  require (s.point = .rest)
  let s := { s with listening := true }
  ensure .listen (granted = true)
  s.updateChannel s.acceptChannel.enableReading

/-- `Sockets::accept`: an error it does not expect ends the program. -/
def checkedAccept (s : Acceptor) (answer : OpenAnswer) : Comp AcceptorFault Acceptor := do
  let s ← s.accept answer
  match answer with
  | .opened _ => return s
  | .failed errno => do
    ensure (.unexpected errno) (errno.expected = true)
    return s

/-- `HandleRead` up to its test of `EMFILE`. The `LOG_SYSERR` before that test may leave another
value in `errno`. -/
def handleRead (s : Acceptor) (answer : OpenAnswer) (logged : Option AcceptErrno) :
    Comp AcceptorFault Acceptor := do
  require (s.point = .rest ∧ s.listening = true)
  let s ← { s with round := ⟨!s.pending.isEmpty, false⟩ }.checkedAccept answer
  match answer with
  | .opened connfd =>
    if s.newConnectionCallback then
      return ({ s with fds := s.fds.acquire connfd .handed }.settle (.handed connfd)).leave
    else
      return ((← s.close .accepted (some connfd)).settle .closed).leave
  | .failed errno =>
    if logged.getD errno = .emfile then return { s with point := .closeIdle } else return s.leave

/-- The next call of the function that is running. -/
def resume (s : Acceptor) (answer : OpenAnswer) : Comp AcceptorFault Acceptor :=
  match s.point with
  | .openFirst => do
    let s ← s.opens .idle answer
    ensure .idleFd (answer.fd? ≠ none)
    return { s with idleFd := answer.fd?, point := .bindAddress }
  | .closeIdle => do return { (← s.close .idle s.idleFd) with point := .acceptIdle }
  | .acceptIdle => do return { (← s.accept answer) with idleFd := answer.fd?, point := .closeAccepted }
  | .closeAccepted => do return { (← s.close .accepted s.idleFd).settle .closed with point := .openIdle }
  | .openIdle => do return { (← s.opens .idle answer) with idleFd := answer.fd? }.leave
  | .unborn | .bindAddress | .rest | .gone => .error .disabled

/-- The destructor, and those of `acceptChannel_` and `acceptSocket_`. It is not called by `HandleRead`;
`removable` is the assert of `RemoveChannel`: the loop is not handling events, or `activeChannels_`
does not have the channel. -/
def destroy (s : Acceptor) (removable : Bool) : Comp AcceptorFault Acceptor := do
  require (s.point = .rest)
  let s ← s.updateChannel s.acceptChannel.disableAll
  let s ← s.updateChannel (s.acceptChannel.remove removable)
  let s ← s.close .idle s.idleFd
  ensure .channel (s.acceptChannel.addedToLoop = false ∧
    s.poller.channels s.acceptChannel.fd ≠ some s.acceptChannel.addr)
  let s ← s.close .listener s.acceptSocket
  return { s with acceptSocket := none, listening := false, point := .gone }

inductive Action where
  | construct (answer : OpenAnswer)
  | bindAddress (granted : Bool)
  | setNewConnectionCallback
  | listen (granted : Bool)
  | handleRead (answer : OpenAnswer) (logged : Option AcceptErrno)
  | resume (answer : OpenAnswer)
  | destroy (removable : Bool)
  /-- A client connects. -/
  | arrive
  /-- Whoever was handed a connection closes it. -/
  | closeHanded (fd : Fd)
  /-- Another thread opens a descriptor. -/
  | openOther (fd : Fd)
  /-- Another thread closes a descriptor of its own. -/
  | closeOther (fd : Fd)
  deriving DecidableEq, Repr

def step (s : Acceptor) : Action → Comp AcceptorFault Acceptor
  | .construct answer => s.construct answer
  | .bindAddress granted => s.bindAddress granted
  | .setNewConnectionCallback => return { s with newConnectionCallback := true }
  | .listen granted => s.listen granted
  | .handleRead answer logged => s.handleRead answer logged
  | .resume answer => s.resume answer
  | .destroy removable => s.destroy removable
  | .arrive => return { s with pending := s.pending ++ [s.arrivals], arrivals := s.arrivals + 1 }
  | .closeHanded fd => do
    require (s.fds.owner fd = some .handed)
    return { s with fds := s.fds.release fd }
  | .openOther fd => do
    require (s.fds.Free fd)
    return { s with fds := s.fds.acquire fd .other }
  | .closeOther fd => do
    require (s.fds.owner fd = some .other)
    return { s with fds := s.fds.release fd }

/-! ### Who owns what -/

/-- `idleFd_` as the descriptor that is kept. -/
def reserveFd (s : Acceptor) : Option Fd :=
  match s.point with
  | .bindAddress | .rest | .closeIdle => s.idleFd
  | _ => none

/-- `idleFd_` as the descriptor of a connection. -/
def refusedFd (s : Acceptor) : Option Fd :=
  match s.point with
  | .closeAccepted => s.idleFd
  | _ => none

/-- The marks on the table are those the acceptor knows of. -/
structure Owns (fds : Descriptors FdOwner) (listener idle accepted : Option Fd) : Prop where
  listener : fds.Holds .listener listener
  idle : fds.Holds .idle idle
  accepted : fds.Holds .accepted accepted
  bounded : fds.Bounded

namespace Owns

variable {fds : Descriptors FdOwner} {listener idle accepted : Option Fd} {fd : Fd} {who : FdOwner}

theorem unmarked (free : fds.Free fd) (who : FdOwner) : fds.owner fd ≠ some who := by
  rw [free.2]
  exact fun same => by cases same

theorem acquire_listener (owns : Owns fds none idle accepted) (free : fds.Free fd) :
    Owns (fds.acquire fd .listener) (some fd) idle accepted :=
  ⟨owns.listener.acquire fd, owns.idle.acquire_other (unmarked free _) (by decide),
    owns.accepted.acquire_other (unmarked free _) (by decide), owns.bounded.acquire free.1⟩

theorem acquire_idle (owns : Owns fds listener none accepted) (free : fds.Free fd) :
    Owns (fds.acquire fd .idle) listener (some fd) accepted :=
  ⟨owns.listener.acquire_other (unmarked free _) (by decide), owns.idle.acquire fd,
    owns.accepted.acquire_other (unmarked free _) (by decide), owns.bounded.acquire free.1⟩

theorem acquire_accepted (owns : Owns fds listener idle none) (free : fds.Free fd) :
    Owns (fds.acquire fd .accepted) listener idle (some fd) :=
  ⟨owns.listener.acquire_other (unmarked free _) (by decide),
    owns.idle.acquire_other (unmarked free _) (by decide), owns.accepted.acquire fd, owns.bounded.acquire free.1⟩

theorem acquire_other (owns : Owns fds listener idle accepted) (free : fds.Free fd) :
    Owns (fds.acquire fd .other) listener idle accepted :=
  ⟨owns.listener.acquire_other (unmarked free _) (by decide),
    owns.idle.acquire_other (unmarked free _) (by decide),
    owns.accepted.acquire_other (unmarked free _) (by decide), owns.bounded.acquire free.1⟩

/-- The descriptor of a connection is handed over. -/
theorem hand (owns : Owns fds listener idle (some fd)) : Owns (fds.acquire fd .handed) listener idle none := by
  have owner := owns.accepted.owner
  exact ⟨owns.listener.acquire_other (by simp [owner]) (by decide),
    owns.idle.acquire_other (by simp [owner]) (by decide), owns.accepted.relabel (by decide),
    owns.bounded.acquire (owns.bounded fd (by simp [owner]))⟩

theorem release_listener (owns : Owns fds (some fd) idle accepted) :
    Owns (fds.release fd) none idle accepted := by
  have owner := owns.listener.owner
  exact ⟨owns.listener.release, owns.idle.release_other (by simp [owner]),
    owns.accepted.release_other (by simp [owner]), owns.bounded.release⟩

theorem release_idle (owns : Owns fds listener (some fd) accepted) :
    Owns (fds.release fd) listener none accepted := by
  have owner := owns.idle.owner
  exact ⟨owns.listener.release_other (by simp [owner]), owns.idle.release,
    owns.accepted.release_other (by simp [owner]), owns.bounded.release⟩

theorem release_accepted (owns : Owns fds listener idle (some fd)) :
    Owns (fds.release fd) listener idle none := by
  have owner := owns.accepted.owner
  exact ⟨owns.listener.release_other (by simp [owner]), owns.idle.release_other (by simp [owner]),
    owns.accepted.release, owns.bounded.release⟩

/-- Somebody else closes what is not the acceptor's. -/
theorem release_other (owns : Owns fds listener idle accepted) (owner : fds.owner fd = some who)
    (foreign : who = .handed ∨ who = .other) : Owns (fds.release fd) listener idle accepted := by
  rcases foreign with rfl | rfl <;>
    exact ⟨owns.listener.release_other (by simp [owner]), owns.idle.release_other (by simp [owner]),
      owns.accepted.release_other (by simp [owner]), owns.bounded.release⟩

end Owns

/-- The connections that have arrived: their fates, the one in hand and the queue, in order. -/
def Ordered (s : Acceptor) : Prop :=
  s.fates.map Prod.fst ++ s.inHand.toList ++ s.pending = List.range s.arrivals

/-- The poller has the channel as it is: not before the constructor, and not after the destructor. -/
structure Registered (s : Acceptor) : Prop where
  unborn : s.point = .unborn → s.poller = .new
  mirrors : s.poller.Mirrors s.acceptChannel
  gone : s.point = .gone → s.acceptChannel.index = .kNew

/-- Nothing happens to the channel. -/
theorem Registered.same {s t : Acceptor} (registered : s.Registered) (poller : t.poller = s.poller)
    (channel : t.acceptChannel = s.acceptChannel) (inside : t.point ≠ .unborn ∧ t.point ≠ .gone) : t.Registered := by
  refine ⟨fun unborn => absurd unborn inside.1, ?_, fun gone => absurd gone inside.2⟩
  rw [poller, channel]
  exact registered.mirrors

structure Inv (s : Acceptor) : Prop where
  owns : Owns s.fds s.acceptSocket s.reserveFd s.refusedFd
  unborn : s.point = .unborn → s.acceptSocket = none
  inHand : s.inHand ≠ none → s.refusedFd ≠ none
  order : s.Ordered
  registered : s.Registered

theorem start_inv (limit : Nat) : Inv (start limit) where
  owns := ⟨by simp [Descriptors.Holds, start], by simp [Descriptors.Holds, start, reserveFd],
    by simp [Descriptors.Holds, start, refusedFd], by simp [Descriptors.Bounded, start]⟩
  unborn _ := rfl
  inHand holding := absurd rfl holding
  order := by simp [Ordered, start]
  registered := ⟨fun _ => rfl, ⟨rfl, rfl⟩, AcceptorPoint.noConfusion⟩

/-- Only others can make the computation fail, and its result satisfies `Q`. -/
abbrev Keeps {α : Type} (Q : α → Prop) (x : Comp AcceptorFault α) : Prop :=
  Blames (fun f => f.external = true) Q x

variable {s t : Acceptor} {listener idle accepted : Option Fd}

/-- What comes of `accept(2)`: nothing, or a connection in hand with a descriptor of its own. -/
structure Accepted (listener idle : Option Fd) (s : Acceptor) (answer : OpenAnswer) (t : Acceptor) : Prop where
  owns : Owns t.fds listener idle answer.fd?
  order : t.Ordered
  inHand : t.inHand ≠ none → answer.fd? ≠ none
  acceptSocket : t.acceptSocket = s.acceptSocket
  idleFd : t.idleFd = s.idleFd
  channel : t.poller = s.poller ∧ t.acceptChannel = s.acceptChannel

theorem accept_keeps (owns : Owns s.fds listener idle none) (order : s.Ordered) (empty : s.inHand = none)
    (answer : OpenAnswer) : Keeps (Accepted listener idle s answer) (s.accept answer) := by
  -- the head of the queue becomes the last of those that have left it
  have moved {id : Nat} {rest : List Nat} (queue : s.pending = id :: rest) :
      s.fates.map Prod.fst ++ [id] ++ rest = List.range s.arrivals := by
    rw [← order, queue, empty]
    simp
  fun_cases accept s answer with
  | case1 fd queue => trivial
  | case2 fd id rest queue =>
    simp only [Keeps, blames_bind, blames_require, blames_pure]
    intro free
    exact ⟨owns.acquire_accepted free, moved queue, fun _ => by simp [OpenAnswer.fd?], rfl, rfl, rfl, rfl⟩
  | case3 queue => trivial
  | case4 id rest queue =>
    refine (blames_pure ..).mpr ⟨owns, ?_, fun holding => absurd empty holding, rfl, rfl, rfl, rfl⟩
    simpa [Ordered, empty] using moved queue
  | case5 errno other =>
    simp only [Keeps, blames_bind, blames_require, blames_pure]
    intro _ _
    exact ⟨owns, order, fun holding => absurd empty holding, rfl, rfl, rfl, rfl⟩

/-- A system call that returns a descriptor: what is known of the table before and after. -/
theorem opens_keeps {who : FdOwner} {Q : Option Fd → Descriptors FdOwner → Prop} (without : Q none s.fds)
    (acquired : ∀ fd, s.fds.Free fd → Q (some fd) (s.fds.acquire fd who)) (answer : OpenAnswer) :
    Keeps (fun t => ∃ fds, t = { s with fds := fds } ∧ Q answer.fd? fds) (s.opens who answer) := by
  cases answer with
  | opened fd =>
    simp only [Keeps, opens, blames_bind, blames_require, blames_pure]
    exact fun free => ⟨_, rfl, acquired fd free⟩
  | failed errno =>
    simp only [Keeps, opens, blames_bind, blames_require, blames_pure]
    exact fun _ _ => ⟨_, rfl, without⟩

theorem opens_idle (owns : Owns s.fds listener none accepted) (answer : OpenAnswer) :
    Keeps (fun t => ∃ fds, t = { s with fds := fds } ∧ Owns fds listener answer.fd? accepted)
      (s.opens .idle answer) :=
  opens_keeps (Q := fun idle fds => Owns fds listener idle accepted) owns (fun _ => owns.acquire_idle) answer

theorem opens_listener (owns : Owns s.fds none idle accepted) (answer : OpenAnswer) :
    Keeps (fun t => ∃ fds, t = { s with fds := fds } ∧ Owns fds answer.fd? idle accepted)
      (s.opens .listener answer) :=
  opens_keeps (Q := fun listener fds => Owns fds listener idle accepted) owns (fun _ => owns.acquire_listener) answer

/-- The acceptor closes what it holds, so that the check of `close` does not fail. -/
theorem close_keeps {who : FdOwner} {held : Option Fd} {Q : Descriptors FdOwner → Prop}
    (holds : s.fds.Holds who held) (without : held = none → Q s.fds)
    (released : ∀ fd, held = some fd → Q (s.fds.release fd)) :
    Keeps (fun t => ∃ fds, t = { s with fds := fds } ∧ Q fds) (s.close who held) := by
  cases held with
  | none => exact ⟨s.fds, rfl, without rfl⟩
  | some fd =>
    simp only [Keeps, close, blames_bind, blames_ensure, blames_pure]
    exact ⟨fun _ => ⟨_, rfl, released fd rfl⟩, fun foreign => absurd holds.owner foreign⟩

theorem close_idle (owns : Owns s.fds listener idle accepted) :
    Keeps (fun t => ∃ fds, t = { s with fds := fds } ∧ Owns fds listener none accepted)
      (s.close .idle idle) := by
  refine close_keeps owns.idle ?_ ?_
  · rintro rfl
    exact owns
  · rintro fd rfl
    exact owns.release_idle

theorem close_accepted (owns : Owns s.fds listener idle accepted) :
    Keeps (fun t => ∃ fds, t = { s with fds := fds } ∧ Owns fds listener idle none)
      (s.close .accepted accepted) := by
  refine close_keeps owns.accepted ?_ ?_
  · rintro rfl
    exact owns
  · rintro fd rfl
    exact owns.release_accepted

theorem close_listener (owns : Owns s.fds listener idle accepted) :
    Keeps (fun t => ∃ fds, t = { s with fds := fds } ∧ Owns fds none idle accepted)
      (s.close .listener listener) := by
  refine close_keeps owns.listener ?_ ?_
  · rintro rfl
    exact owns
  · rintro fd rfl
    exact owns.release_listener

theorem Ordered.settle (order : s.Ordered) (fate : Fate) : (s.settle fate).Ordered := by
  cases holding : s.inHand with
  | none => simpa [Ordered, Acceptor.settle, holding] using order
  | some id => simpa [Ordered, Acceptor.settle, holding] using order

/-! ### What the functions keep -/

/-- Outside `closeAccepted` nothing is in hand. -/
theorem Inv.empty (inv : Inv s) (elsewhere : s.refusedFd = none) : s.inHand = none := by
  by_contra holding
  exact inv.inHand holding elsewhere

theorem Inv.construct (inv : Inv s) (answer : OpenAnswer) : Keeps Inv (s.construct answer) := by
  simp only [Keeps, Acceptor.construct, blames_bind, blames_require]
  intro unborn
  have owns := inv.owns
  rw [inv.unborn unborn, reserveFd, refusedFd, unborn] at owns
  refine (opens_listener owns answer).mono ?_
  rintro _ ⟨fds, rfl, owns⟩
  have empty := inv.empty (by simp [refusedFd, unborn])
  cases answer with
  | failed => exact rfl
  | opened fd =>
    refine ⟨owns, AcceptorPoint.noConfusion, fun holding => absurd empty holding, inv.order,
      AcceptorPoint.noConfusion, ?_, AcceptorPoint.noConfusion⟩
    -- the poller is empty
    change s.poller.Mirrors (.new 0 fd)
    rw [inv.registered.unborn unborn]
    exact ⟨rfl, rfl⟩

theorem Inv.bindAddress (inv : Inv s) (granted : Bool) : Keeps Inv (s.bindAddress granted) := by
  simp only [Keeps, Acceptor.bindAddress, blames_bind, blames_require, blames_ensure, blames_pure]
  intro point
  have owns := inv.owns
  have empty := inv.empty (by simp [refusedFd, point])
  rw [reserveFd, refusedFd, point] at owns
  refine ⟨fun _ => ?_, fun _ => rfl⟩
  exact ⟨owns, AcceptorPoint.noConfusion, fun holding => absurd empty holding, inv.order,
    inv.registered.same rfl rfl (by simp)⟩

/-- `Update()` with a new mask. -/
theorem updateChannel_eq (mirrors : s.poller.Mirrors s.acceptChannel) (events : Events) :
    s.updateChannel { s.acceptChannel with events := events }.update =
      .ok { s with
        poller := s.poller.afterUpdate { s.acceptChannel with events := events }
        acceptChannel := { s.acceptChannel with events := events }.afterUpdate } := by
  rw [updateChannel, (mirrors.tracks events).update_eq]
  rfl

theorem Inv.listen (inv : Inv s) (granted : Bool) : Keeps Inv (s.listen granted) := by
  simp only [Keeps, Acceptor.listen, blames_bind, blames_require, blames_ensure]
  intro rest
  refine ⟨fun _ => ?_, fun _ => rfl⟩
  have enabled := updateChannel_eq (s := { s with listening := true }) inv.registered.mirrors
    (s.acceptChannel.events ||| kReadEvent)
  rw [Channel.enableReading, enabled, blames_ok]
  refine ⟨inv.owns, inv.unborn, inv.inHand, inv.order, ?_, Epoll.afterUpdate_mirrors .., ?_⟩
  · exact fun unborn => absurd (rest.symm.trans unborn) (by simp)
  · exact fun gone => absurd (rest.symm.trans gone) (by simp)

theorem Inv.handleRead (inv : Inv s) (answer : OpenAnswer) (logged : Option AcceptErrno) :
    Keeps Inv (s.handleRead answer logged) := by
  simp only [Keeps, Acceptor.handleRead, checkedAccept, blames_bind, blames_require]
  rintro ⟨rest, _⟩
  have nothing : s.refusedFd = none := by simp [refusedFd, rest]
  have empty := inv.empty nothing
  have owns := inv.owns
  rw [nothing] at owns
  -- back at rest nothing is in hand
  have rests {t : Acceptor} (socket : t.acceptSocket = s.acceptSocket) (idle : t.idleFd = s.idleFd)
      (channel : t.poller = s.poller ∧ t.acceptChannel = s.acceptChannel)
      (owns : Owns t.fds s.acceptSocket s.reserveFd none) (order : t.Ordered) (empty : t.inHand = none) :
      Inv t.leave := by
    refine ⟨?_, AcceptorPoint.noConfusion, fun holding => absurd empty holding, order,
      inv.registered.same channel.1 channel.2 (by simp [leave])⟩
    simpa [leave, reserveFd, refusedFd, socket, idle, rest] using owns
  refine (accept_keeps (s := { s with round := ⟨!s.pending.isEmpty, false⟩ }) owns inv.order empty answer).mono ?_
  intro t accepted
  obtain ⟨owns, order, inHand, socket, idle, channel⟩ := accepted
  cases answer with
  | opened connfd =>
    dsimp only
    rw [blames_pure]
    split
    · -- the mark goes over to whoever gets the connection
      exact rests socket idle channel owns.hand (order.settle (.handed connfd)) rfl
    · simp only [blames_bind, blames_pure]
      refine (close_accepted owns).mono ?_
      rintro _ ⟨fds, rfl, owns⟩
      exact rests socket idle channel owns (order.settle .closed) rfl
  | failed errno =>
    have empty : t.inHand = none := by
      by_contra holding
      exact inHand holding rfl
    dsimp only
    simp only [blames_bind, blames_ensure, blames_pure]
    refine ⟨fun _ => ?_, fun unexpected => by simpa [AcceptorFault.external] using unexpected⟩
    split
    · -- `EMFILE`: `idleFd_` is still held, and is closed next
      refine (blames_pure ..).mpr ⟨?_, AcceptorPoint.noConfusion, fun holding => absurd empty holding, order,
        inv.registered.same channel.1 channel.2 (by simp)⟩
      simpa [reserveFd, refusedFd, socket, idle, rest, OpenAnswer.fd?] using owns
    · exact rests socket idle channel owns order empty

theorem Inv.resume (inv : Inv s) (answer : OpenAnswer) : Keeps Inv (s.resume answer) := by
  have owns := inv.owns
  have empty := inv.empty
  have registered := inv.registered
  unfold Keeps Acceptor.resume reserveFd refusedFd at *
  -- one case for each call within a function; what `idleFd_` is marked as changes with the point
  split
  · next point =>
    rw [point] at owns empty
    simp only [blames_bind]
    refine (opens_idle owns answer).mono ?_
    rintro _ ⟨fds, rfl, owns⟩
    simp only [blames_ensure, blames_pure]
    exact ⟨fun _ => ⟨owns, AcceptorPoint.noConfusion, fun holding => absurd (empty rfl) holding, inv.order,
      registered.same rfl rfl (by simp)⟩, fun _ => rfl⟩
  · next point =>
    rw [point] at owns empty
    simp only [blames_bind, blames_pure]
    refine (close_idle owns).mono ?_
    rintro _ ⟨fds, rfl, owns⟩
    exact ⟨owns, AcceptorPoint.noConfusion, fun holding => absurd (empty rfl) holding, inv.order,
      registered.same rfl rfl (by simp)⟩
  · next point =>
    rw [point] at owns empty
    simp only [blames_bind, blames_pure]
    -- the connection is put into `idleFd_`, which is now marked as accepted
    refine (accept_keeps owns inv.order (empty rfl) answer).mono fun t accepted => ?_
    obtain ⟨owns, order, inHand, socket, _, channel⟩ := accepted
    refine ⟨?_, AcceptorPoint.noConfusion, inHand, order, registered.same channel.1 channel.2 (by simp)⟩
    dsimp only
    rw [socket]
    exact owns
  · next point =>
    rw [point] at owns
    simp only [blames_bind, blames_pure]
    refine (close_accepted owns).mono ?_
    rintro _ ⟨fds, rfl, owns⟩
    exact ⟨owns, AcceptorPoint.noConfusion, fun holding => absurd rfl holding, inv.order.settle .closed,
      registered.same rfl rfl (by simp)⟩
  · next point =>
    rw [point] at owns empty
    simp only [blames_bind, blames_pure]
    refine (opens_idle owns answer).mono ?_
    rintro _ ⟨fds, rfl, owns⟩
    exact ⟨owns, AcceptorPoint.noConfusion, fun holding => absurd (empty rfl) holding, inv.order,
      registered.same rfl rfl (by simp [leave])⟩
  -- outside the functions there is nothing to go on with
  · trivial
  · trivial
  · trivial
  · trivial

/-- `DisableAll` and `Remove()`: only the assert of `RemoveChannel` can fail. -/
theorem unregister_keeps (mirrors : s.poller.Mirrors s.acceptChannel) (removable : Bool) :
    Keeps (fun t => ∃ poller channel, t = { s with poller := poller, acceptChannel := channel } ∧
        poller.Mirrors channel ∧ channel.index = .kNew ∧ channel.addedToLoop = false) (do
      let s ← s.updateChannel s.acceptChannel.disableAll
      s.updateChannel (s.acceptChannel.remove removable)) := by
  have disabled := updateChannel_eq mirrors kNoneEvent
  rw [Channel.disableAll, Keeps, blames_bind, disabled, blames_ok]
  have after := Epoll.afterUpdate_mirrors s.poller { s.acceptChannel with events := kNoneEvent }
  have known : { s.acceptChannel with events := kNoneEvent }.afterUpdate.index ≠ .kNew := by
    unfold Channel.afterUpdate
    dsimp only
    split <;> simp
  cases removable with
  | true =>
    rw [updateChannel, after.remove_eq known rfl]
    exact ⟨_, _, rfl, Epoll.afterRemove_mirrors .., rfl, rfl⟩
  | false =>
    simp only [updateChannel, Channel.remove, blames_bind, blames_lift, blames_ensure]
    exact ⟨fun _ => ⟨fun possible => absurd possible (by simp), fun _ => rfl⟩, fun asks => absurd rfl asks⟩

theorem Inv.destroy (inv : Inv s) (removable : Bool) : Keeps Inv (s.destroy removable) := by
  simp only [Keeps, Acceptor.destroy, blames_bind, blames_require]
  intro rest
  have owns := inv.owns
  have empty := inv.empty (by simp [refusedFd, rest])
  rw [reserveFd, refusedFd, rest] at owns
  have unregistered := unregister_keeps inv.registered.mirrors removable
  rw [Keeps, blames_bind] at unregistered
  refine unregistered.mono fun u removed => removed.mono ?_
  rintro _ ⟨poller, channel, rfl, mirrors, new, out⟩
  refine (close_idle (s := { s with poller := poller, acceptChannel := channel }) owns).mono ?_
  rintro _ ⟨fds, rfl, owns⟩
  have absent : poller.channels channel.fd ≠ some channel.addr := by simp [mirrors.listed, new]
  simp only [blames_ensure, blames_pure]
  refine ⟨fun _ => (close_listener owns).mono ?_, fun left => absurd ⟨out, absent⟩ left⟩
  rintro _ ⟨fds', rfl, owns⟩
  exact ⟨owns, AcceptorPoint.noConfusion, fun holding => absurd empty holding, inv.order,
    AcceptorPoint.noConfusion, mirrors, fun _ => new⟩

/-- Something happens to the table that does not concern the acceptor. -/
theorem Inv.elsewhere (inv : Inv s) {fds : Descriptors FdOwner}
    (owns : Owns fds s.acceptSocket s.reserveFd s.refusedFd) : Inv { s with fds := fds } :=
  ⟨owns, inv.unborn, inv.inHand, inv.order, { inv.registered with }⟩

theorem Inv.step (inv : Inv s) (act : Action) : Keeps Inv (s.step act) := by
  cases act with
  | construct answer => exact inv.construct answer
  | bindAddress granted => exact inv.bindAddress granted
  | setNewConnectionCallback => exact ⟨inv.owns, inv.unborn, inv.inHand, inv.order, { inv.registered with }⟩
  | listen granted => exact inv.listen granted
  | handleRead answer logged => exact inv.handleRead answer logged
  | resume answer => exact inv.resume answer
  | destroy removable => exact inv.destroy removable
  | arrive =>
    refine (blames_pure ..).mpr ⟨inv.owns, inv.unborn, inv.inHand, ?_, { inv.registered with }⟩
    have order := inv.order
    simp only [Ordered, List.range_succ] at order ⊢
    rw [← order, ← List.append_assoc]
  | closeHanded fd =>
    simp only [Keeps, Acceptor.step, blames_bind, blames_require, blames_pure]
    exact fun owner => inv.elsewhere (inv.owns.release_other owner (Or.inl rfl))
  | openOther fd =>
    simp only [Keeps, Acceptor.step, blames_bind, blames_require, blames_pure]
    exact fun free => inv.elsewhere (inv.owns.acquire_other free)
  | closeOther fd =>
    simp only [Keeps, Acceptor.step, blames_bind, blames_require, blames_pure]
    exact fun owner => inv.elsewhere (inv.owns.release_other owner (Or.inr rfl))

/-- No other thread opens a descriptor while `idleFd_` is given up, logging leaves `errno` alone, and
a call fails only for want of a descriptor or of a connection. -/
def Undisturbed (s : Acceptor) : Action → Prop
  | .openOther _ => s.point ≠ .acceptIdle ∧ s.point ≠ .closeAccepted ∧ s.point ≠ .openIdle
  | .handleRead answer logged => logged = none ∧ answer.Regular
  | .resume answer => answer.Regular
  | _ => True

instance (s : Acceptor) : ∀ act : Action, Decidable (s.Undisturbed act)
  | .openOther _ => inferInstanceAs (Decidable (_ ∧ _))
  | .handleRead _ _ => inferInstanceAs (Decidable (_ ∧ _))
  | .resume answer => inferInstanceAs (Decidable answer.Regular)
  | .construct _ | .bindAddress _ | .setNewConnectionCallback | .listen _ | .destroy _ | .arrive
  | .closeHanded _ | .closeOther _ => inferInstanceAs (Decidable True)

/-- `idleFd_` is there, or there is room for it; and no round has left a waiting connection. -/
structure Reserve (s : Acceptor) : Prop where
  kept : s.point = .bindAddress ∨ s.point = .rest ∨ s.point = .closeIdle → s.idleFd ≠ none
  room : s.point = .acceptIdle ∨ s.point = .openIdle ∨ s.point = .closeAccepted ∧ s.idleFd = none → ¬ s.fds.Full
  rounds : ∀ r ∈ s.rounds, r.waiting = true → r.took = true
  before : s.point = .closeIdle ∨ s.point = .acceptIdle → s.round.waiting = true → s.pending ≠ []
  after : s.point = .closeAccepted ∨ s.point = .openIdle → s.round.waiting = true → s.round.took = true

theorem start_reserve (limit : Nat) : Reserve (start limit) := by
  constructor <;> simp [start]

/-- What a regular `accept(2)` does for the round: the queue gets shorter, or nothing happens for
want of a descriptor or of a connection. -/
structure Progress (s : Acceptor) (answer : OpenAnswer) (t : Acceptor) : Prop where
  idleFd : t.idleFd = s.idleFd
  rounds : t.rounds = s.rounds
  waiting : t.round.waiting = s.round.waiting
  fds : answer.fd? = none → t.fds = s.fds
  took : t.round.took = true ∧ answer ≠ .failed .emfile ∨
    t = s ∧ (answer = .failed .emfile ∧ s.fds.Full ∨ answer = .failed .eagain ∧ s.pending = [])

theorem accept_progress {answer : OpenAnswer} (regular : answer.Regular) :
    Yields (Progress s answer) (s.accept answer) := by
  fun_cases accept s answer with
  | case1 fd queue => exact yields_error _ .disabled
  | case2 fd id rest queue =>
    simp only [yields_bind, yields_require, yields_pure]
    intro _
    exact ⟨rfl, rfl, rfl, fun failed => absurd failed (by simp [OpenAnswer.fd?]),
      Or.inl ⟨rfl, OpenAnswer.noConfusion⟩⟩
  | case3 queue => exact yields_error _ .disabled
  | case4 id rest queue =>
    exact (yields_pure ..).mpr ⟨rfl, rfl, rfl, fun _ => rfl, Or.inl ⟨rfl, by decide⟩⟩
  | case5 errno other =>
    simp only [yields_bind, yields_require, yields_pure]
    intro full empty
    refine ⟨rfl, rfl, rfl, fun _ => rfl, Or.inr ⟨rfl, ?_⟩⟩
    rcases regular with rfl | rfl | rfl
    · exact Or.inl ⟨rfl, full rfl⟩
    · exact Or.inr ⟨rfl, empty rfl⟩
    · exact absurd rfl other

/-- A round ends that took something, or found nothing waiting. -/
theorem Reserve.leave (rounds : ∀ r ∈ t.rounds, r.waiting = true → r.took = true)
    (ended : t.round.waiting = true → t.round.took = true) (idle : t.idleFd ≠ none) : Reserve t.leave := by
  refine ⟨fun _ => idle, by simp [Acceptor.leave], fun r member => ?_, by simp [Acceptor.leave],
    by simp [Acceptor.leave]⟩
  rcases List.mem_append.mp member with old | new
  · exact rounds r old
  · rw [List.mem_singleton.mp new]
    exact ended

theorem Reserve.handleRead (reserve : Reserve s) {answer : OpenAnswer} (regular : answer.Regular) :
    Yields Reserve (s.handleRead answer none) := by
  simp only [Acceptor.handleRead, checkedAccept, yields_bind, yields_require]
  rintro ⟨rest, _⟩
  refine (accept_progress regular).mono fun t progress => ?_
  obtain ⟨idleFd, rounds, waiting, _, took⟩ := progress
  have idle : t.idleFd ≠ none := by
    rw [idleFd]
    exact reserve.kept (Or.inr (Or.inl rest))
  have before : ∀ r ∈ t.rounds, r.waiting = true → r.took = true := by
    rw [rounds]
    exact reserve.rounds
  cases answer with
  | opened connfd =>
    have taken : t.round.took = true := by
      rcases took with ⟨took, _⟩ | ⟨_, full | empty⟩
      · exact took
      · cases full.1
      · cases empty.1
    dsimp only
    rw [yields_pure]
    split
    · exact (yields_pure ..).mpr (Reserve.leave before (fun _ => taken) idle)
    · simp only [yields_bind, yields_pure, close, yields_ensure]
      exact fun _ => Reserve.leave before (fun _ => taken) idle
  | failed errno =>
    dsimp only
    simp only [yields_bind, yields_ensure, yields_pure, Option.getD_none]
    intro _
    rcases took with ⟨took, other⟩ | ⟨rfl, ⟨same, _⟩ | ⟨same, empty⟩⟩
    · -- the kernel gave the connection up
      rw [if_neg fun same => other (by rw [same])]
      exact (yields_pure ..).mpr (Reserve.leave before (fun _ => took) idle)
    · -- the table is full: `idleFd_` is given up for the connection that waits
      cases same
      rw [if_pos rfl]
      exact (yields_pure ..).mpr ⟨fun _ => idle, by simp, before, fun _ waits => by simpa using waits, by simp⟩
    · -- nobody was waiting
      cases same
      rw [if_neg (by decide)]
      have nobody : s.pending = [] := empty
      exact (yields_pure ..).mpr (Reserve.leave before (fun waits => by simp [nobody] at waits) idle)

theorem Reserve.resume (reserve : Reserve s) (inv : Inv s) {answer : OpenAnswer} (regular : answer.Regular) :
    Yields Reserve (s.resume answer) := by
  have owns := inv.owns
  unfold Acceptor.resume
  split
  · next point =>
    simp only [yields_bind, yields_ensure, yields_pure]
    cases answer with
    | opened fd =>
      simp only [opens, yields_bind, yields_require, yields_pure]
      exact fun _ got => ⟨fun _ => got, by simp, reserve.rounds, by simp, by simp⟩
    | failed errno =>
      -- the assert of the constructor
      simp only [opens, yields_bind, yields_require, yields_pure]
      exact fun _ _ got => absurd rfl got
  · next point =>
    simp only [yields_bind, yields_pure]
    obtain ⟨fd, idle⟩ := Option.ne_none_iff_exists'.mp (reserve.kept (Or.inr (Or.inr point)))
    rw [reserveFd, point] at owns
    dsimp only at owns
    simp only [idle, close, yields_bind, yields_ensure, yields_pure]
    intro owner
    -- closing `idleFd_` makes the room that the `accept(2)` after it needs
    refine ⟨by simp, fun _ => ?_, reserve.rounds, fun _ => reserve.before (Or.inl point), by simp⟩
    exact Descriptors.not_full_release (owns.bounded fd (by simp [owner]))
  · next point =>
    simp only [yields_bind, yields_pure]
    refine (accept_progress regular).mono fun t progress => ?_
    obtain ⟨_, rounds, waiting, fds, took⟩ := progress
    have room := reserve.room (Or.inl point)
    refine ⟨by simp, ?_, ?_, by simp, fun _ waits => ?_⟩
    · simp only [reduceCtorEq, true_and, false_or]
      intro failed
      rw [fds failed]
      exact room
    · simp only [rounds]
      exact reserve.rounds
    · -- there is room and somebody waits, so `accept(2)` took a connection
      rcases took with ⟨took, _⟩ | ⟨rfl, ⟨_, full⟩ | ⟨_, empty⟩⟩
      · exact took
      · exact absurd full room
      · exact absurd empty (reserve.before (Or.inr point) waits)
  · next point =>
    have room : Yields (fun t => ¬ t.fds.Full ∧ t.rounds = s.rounds ∧ t.round = s.round)
        (s.close .accepted s.idleFd) := by
      cases idle : s.idleFd with
      -- `accept(2)` failed, and the room is still there
      | none => exact (yields_pure ..).mpr ⟨reserve.room (Or.inr (Or.inr ⟨point, idle⟩)), rfl, rfl⟩
      | some fd =>
        simp only [close, yields_bind, yields_ensure, yields_pure, and_true]
        exact fun owner => Descriptors.not_full_release (owns.bounded fd (by simp [owner]))
    simp only [yields_bind, yields_pure]
    refine room.mono fun t after => ?_
    obtain ⟨room, rounds, round⟩ := after
    refine ⟨by simp, fun _ => room, ?_, by simp, fun _ => ?_⟩
    · simp only [settle, rounds]
      exact reserve.rounds
    · simp only [settle, round]
      exact reserve.after (Or.inl point)
  · next point =>
    have room := reserve.room (Or.inr (Or.inl point))
    simp only [yields_bind, yields_pure]
    cases answer with
    | opened fd =>
      simp only [opens, yields_bind, yields_require, yields_pure]
      exact fun _ => Reserve.leave reserve.rounds (reserve.after (Or.inr point)) (by simp [OpenAnswer.fd?])
    | failed errno =>
      simp only [opens, yields_bind, yields_require, yields_pure]
      intro full other
      -- for want of a descriptor it cannot fail, and no other error is regular for `open(2)`
      rcases regular with rfl | rfl | rfl
      · exact absurd (full rfl) room
      · exact absurd rfl other.1
      · exact absurd rfl other.2
  · exact yields_error _ .disabled
  · exact yields_error _ .disabled
  · exact yields_error _ .disabled
  · exact yields_error _ .disabled

theorem updateChannel_frame (s : Acceptor) (op : Epoll → Comp PollerFault (Epoll × Channel)) :
    Yields (fun t => ∃ poller channel, t = { s with poller := poller, acceptChannel := channel })
      (s.updateChannel op) := by
  simp only [updateChannel, yields_bind, yields_pure]
  exact fun r _ => ⟨r.1, r.2, rfl⟩

/-- Something happens to the table that leaves room where there has to be some. -/
theorem Reserve.elsewhere (reserve : Reserve s) {fds : Descriptors FdOwner}
    (room : s.point = .acceptIdle ∨ s.point = .closeAccepted ∨ s.point = .openIdle → ¬ s.fds.Full → ¬ fds.Full) :
    Reserve { s with fds := fds } := by
  refine ⟨reserve.kept, fun there => ?_, reserve.rounds, reserve.before, reserve.after⟩
  refine room ?_ (reserve.room there)
  rcases there with h | h | ⟨h, _⟩
  · exact Or.inl h
  · exact Or.inr (Or.inr h)
  · exact Or.inr (Or.inl h)

theorem Reserve.step (reserve : Reserve s) (inv : Inv s) {act : Action} (undisturbed : s.Undisturbed act) :
    Yields Reserve (s.step act) := by
  cases act with
  | construct answer =>
    simp only [Acceptor.step, construct, yields_bind, yields_require]
    intro unborn
    have rounds : Yields (fun t => t.rounds = s.rounds) (s.opens .listener answer) := by
      cases answer <;> simp only [opens, yields_bind, yields_require, yields_pure, implies_true]
    refine rounds.mono fun t same => ?_
    cases answer with
    | failed => exact yields_error _ _
    | opened fd =>
      refine (yields_pure ..).mpr ⟨by simp, by simp, ?_, by simp, by simp⟩
      simp only [same]
      exact reserve.rounds
  | bindAddress granted =>
    simp only [Acceptor.step, bindAddress, yields_bind, yields_require, yields_ensure, yields_pure]
    intro point _
    have idle := reserve.kept (Or.inl point)
    exact ⟨fun _ => idle, by simp, reserve.rounds, by simp, by simp⟩
  | setNewConnectionCallback =>
    exact (yields_pure ..).mpr ⟨reserve.kept, reserve.room, reserve.rounds, reserve.before, reserve.after⟩
  | listen granted =>
    simp only [Acceptor.step, listen, yields_bind, yields_require, yields_ensure]
    refine fun _ _ => (updateChannel_frame _ _).mono ?_
    rintro _ ⟨poller, channel, rfl⟩
    exact ⟨reserve.kept, reserve.room, reserve.rounds, reserve.before, reserve.after⟩
  | handleRead answer logged =>
    obtain ⟨rfl, regular⟩ := undisturbed
    exact reserve.handleRead regular
  | resume answer => exact reserve.resume inv undisturbed
  | destroy removable =>
    have closed (who : FdOwner) (fd : Option Fd) (t : Acceptor) :
        Yields (fun u => u.rounds = t.rounds) (t.close who fd) := by
      cases fd <;> simp only [close, yields_bind, yields_ensure, yields_pure, implies_true]
    simp only [Acceptor.step, destroy, yields_bind, yields_require, yields_ensure, yields_pure]
    refine fun _ => (updateChannel_frame _ _).mono ?_
    rintro _ ⟨disabled, quiet, rfl⟩
    refine (updateChannel_frame _ _).mono ?_
    rintro _ ⟨removed, out, rfl⟩
    refine (closed _ _ _).mono fun t first _ => (closed _ _ t).mono fun u second => ?_
    refine ⟨by simp, by simp, ?_, by simp, by simp⟩
    simp only [second, first]
    exact reserve.rounds
  | arrive =>
    refine (yields_pure ..).mpr ⟨reserve.kept, reserve.room, reserve.rounds, ?_, reserve.after⟩
    simp
  | closeHanded fd =>
    simp only [Acceptor.step, yields_bind, yields_require, yields_pure]
    exact fun _ => reserve.elsewhere fun _ => Descriptors.not_full_release_of
  | openOther fd =>
    simp only [Acceptor.step, yields_bind, yields_require, yields_pure]
    refine fun _ => reserve.elsewhere fun there => ?_
    obtain ⟨first, second, third⟩ := undisturbed
    rcases there with h | h | h
    · exact absurd h first
    · exact absurd h second
    · exact absurd h third
  | closeOther fd =>
    simp only [Acceptor.step, yields_bind, yields_require, yields_pure]
    exact fun _ => reserve.elsewhere fun _ => Descriptors.not_full_release_of

/-- In every run in which no other thread opens a descriptor while `HandleRead` has given up
`idleFd_`: between the events `idleFd_` is an open descriptor of the acceptor, and every call of
`HandleRead` that found a connection waiting has taken one from the queue, also when the process
had no descriptor left. So the loop does not spin on a connection it cannot accept. -/
theorem reserve_kept (limit : Nat) (acts : List Action) (s : Acceptor)
    (undisturbed : Run.Meets step Undisturbed (start limit) acts)
    (reached : Run.exec step (start limit) acts = .ok s) :
    (s.point = .rest → ∃ fd, s.idleFd = some fd ∧ s.fds.owner fd = some .idle) ∧
    ∀ r ∈ s.rounds, r.waiting = true → r.took = true := by
  have preserved (s : Acceptor) (act : Action) (t : Acceptor) (both : Inv s ∧ Reserve s)
      (undisturbed : s.Undisturbed act) (taken : s.step act = .ok t) : Inv t ∧ Reserve t :=
    ⟨(both.1.step act).result taken, both.2.step both.1 undisturbed t taken⟩
  obtain ⟨inv, reserve⟩ := Run.exec_keeps preserved (start limit) s acts
    ⟨start_inv limit, start_reserve limit⟩ undisturbed reached
  refine ⟨fun rest => ?_, reserve.rounds⟩
  obtain ⟨fd, idle⟩ := Option.ne_none_iff_exists'.mp (reserve.kept (Or.inr (Or.inl rest)))
  exact ⟨fd, idle, (inv.owns.idle fd).mpr (by simp [reserveFd, rest, idle])⟩

/-- The table has three entries. A client comes when all of them are taken. -/
def outOfDescriptors : List Action :=
  [.construct (.opened 0), .resume (.opened 1), .bindAddress true, .setNewConnectionCallback, .listen true,
    .openOther 2, .arrive, .arrive,
    .handleRead (.failed .emfile) none, .resume (.opened 0), .resume (.opened 1)]

theorem reserve_kept_outOfDescriptors :
    Run.Meets step Undisturbed (start 3) (outOfDescriptors ++ [.resume (.opened 0), .resume (.opened 1)]) ∧
    ∃ s, Run.exec step (start 3) (outOfDescriptors ++ [.resume (.opened 0), .resume (.opened 1)]) = .ok s ∧
      s.rounds = [⟨true, true⟩] ∧ s.pending = [1] ∧
      (s.point = .rest → ∃ fd, s.idleFd = some fd ∧ s.fds.owner fd = some .idle) := by
  have undisturbed : Run.Meets step Undisturbed (start 3)
      (outOfDescriptors ++ [.resume (.opened 0), .resume (.opened 1)]) := by decide +kernel
  have last : (Run.exec step (start 3) (outOfDescriptors ++ [.resume (.opened 0), .resume (.opened 1)])).toOption.map
      (fun s => (s.rounds, s.pending)) = some ([⟨true, true⟩], [1]) := by decide +kernel
  obtain ⟨s, reached, ended⟩ := returned_of_map last
  simp only [Prod.mk.injEq] at ended
  exact ⟨undisturbed, s, reached, ended.1, ended.2, (reserve_kept 3 _ s undisturbed reached).1⟩

/-- Another thread takes the descriptor that was given up: from then on there is none in reserve, and
the next event leaves the client in the queue. -/
example : (Run.exec step (start 3) (outOfDescriptors ++ [.resume (.opened 0), .openOther 1, .resume (.failed .emfile),
    .handleRead (.failed .emfile) none, .resume (.opened 0), .resume (.failed .emfile), .resume (.opened 0),
    .resume (.failed .emfile)])).toOption.map (fun s => (s.idleFd, s.rounds, s.pending)) =
      some (none, [⟨true, true⟩, ⟨true, false⟩], [1]) := by decide +kernel

end Acceptor

end Rnet.Network
