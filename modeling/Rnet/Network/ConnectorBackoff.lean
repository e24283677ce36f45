import Rnet.Network.Connector

/-!
# The delays between connection attempts

`Retry` arms a timer with `retryDelayMs_` and doubles it up to `kMaxRetryDelayMs`; `Restart` sets
it back. `retryDelayMs_` survives everything else: a `Stop`, a `Start` after it, an attempt that
succeeded. Over every run, whatever the order of the calls and the answers of the kernel, the
delays armed since the last `Restart` are the doubling sequence from `kInitRetryDelayMs`, cut off
at `kMaxRetryDelayMs`, without a gap or a repetition. Runs in which a check fails are no
exception, up to the failure.
-/
namespace Rnet.Network

open Check

/-- The delay of the `k`th retry. -/
def backoff (k : Nat) : Nat := min (kInitRetryDelayMs * 2 ^ k) kMaxRetryDelayMs

theorem backoff_zero : backoff 0 = kInitRetryDelayMs := by decide

/-- The assignment of `Retry`. -/
theorem backoff_succ (k : Nat) : backoff (k + 1) = min (backoff k * 2) kMaxRetryDelayMs := by
  simp only [backoff, Nat.pow_succ, ← Nat.mul_assoc]
  omega

namespace Connector

variable {s t : Connector}

/-! ### One step -/

/-- What the code between two `Restart`s does to the delay and the retry timers. -/
inductive Moves (s t : Connector) : Prop where
  | keeps (delay : t.retryDelayMs = s.retryDelayMs) (timers : t.timers.length ≤ s.timers.length)
  | arms (delay : t.retryDelayMs = min (s.retryDelayMs * 2) kMaxRetryDelayMs)
      (timers : t.timers = s.timers ++ [⟨s.retryDelayMs, s.iteration⟩])

/-- A step that looks at neither. -/
theorem moves_of_same (delay : t.retryDelayMs = s.retryDelayMs) (timers : t.timers = s.timers) : Moves s t :=
  .keeps delay (timers ▸ Nat.le_refl _)

/-- Any other change may come before. -/
theorem Moves.of_same {u : Connector} (moves : Moves t u) (delay : t.retryDelayMs = s.retryDelayMs)
    (timers : t.timers = s.timers) (iteration : t.iteration = s.iteration) : Moves s u := by
  cases moves with
  | keeps after shorter => exact .keeps (after.trans delay) (timers ▸ shorter)
  | arms after longer => exact .arms (delay ▸ after) (by rw [longer, timers, delay, iteration])

theorem retry_moves (s : Connector) (sockfd : Fd) : Moves s (s.retry sockfd) := by
  unfold retry
  dsimp only
  split
  · exact .arms rfl rfl
  · exact moves_of_same rfl rfl

theorem startInLoop_moves (s : Connector) : Yields (Moves s) s.startInLoop := by
  simp only [startInLoop, yields_bind, yields_ensure, yields_pure]
  intro _
  split <;> exact moves_of_same rfl rfl

theorem connect_moves (s : Connector) (sockfd : Fd) (errno : ConnectErrno) :
    Yields (Moves s) (s.connect sockfd errno) := by
  simp only [connect, yields_bind, yields_require]
  intro _
  split
  · simp only [connecting, yields_bind, yields_ensure, yields_pure]
    exact fun _ _ _ => moves_of_same rfl rfl
  · exact (yields_pure _ _).mpr ((retry_moves _ sockfd).of_same rfl rfl rfl)
  · exact (yields_pure _ _).mpr (moves_of_same rfl rfl)

/-- `RemoveAndResetChannel` touches neither. -/
theorem removeAndResetChannel_same (s : Connector) :
    Yields (fun r => r.2.retryDelayMs = s.retryDelayMs ∧ r.2.timers = s.timers ∧ r.2.iteration = s.iteration)
      s.removeAndResetChannel := by
  simp only [removeAndResetChannel, yields_bind, yields_pure]
  exact fun _ _ _ _ _ _ => ⟨rfl, rfl, rfl⟩

/-- The three callers of `RemoveAndResetChannel` go on from there. -/
theorem removed_moves {s₀ : Connector} (k : Fd × Connector → Comp ConnectorFault Connector)
    (delay : s.retryDelayMs = s₀.retryDelayMs) (timers : s.timers = s₀.timers)
    (iteration : s.iteration = s₀.iteration) (later : ∀ r, Yields (Moves r.2) (k r)) :
    Yields (Moves s₀) (s.removeAndResetChannel >>= k) := by
  refine (removeAndResetChannel_same s).bind fun r same => (later r).mono fun t moves => ?_
  obtain ⟨delay', timers', iteration'⟩ := same
  exact moves.of_same (delay'.trans delay) (timers'.trans timers) (iteration'.trans iteration)

theorem stopInLoop_moves (s : Connector) : Yields (Moves s) s.stopInLoop := by
  unfold stopInLoop
  split
  · exact removed_moves _ rfl rfl rfl fun r => (yields_pure _ _).mpr (retry_moves r.2 r.1)
  · exact (yields_pure _ _).mpr (moves_of_same rfl rfl)

theorem handleError_moves (s : Connector) : Yields (Moves s) s.handleError := by
  unfold handleError
  split
  · exact removed_moves _ rfl rfl rfl fun r => (yields_pure _ _).mpr (retry_moves r.2 r.1)
  · exact (yields_pure _ _).mpr (moves_of_same rfl rfl)

theorem handleWrite_moves (s : Connector) (err : Nat) (selfConnect : Bool) :
    Yields (Moves s) (s.handleWrite err selfConnect) := by
  unfold handleWrite
  split
  · refine removed_moves _ rfl rfl rfl fun r => ?_
    dsimp only
    split
    · exact (yields_pure _ _).mpr (retry_moves r.2 r.1)
    · split
      · exact (yields_pure _ _).mpr (retry_moves r.2 r.1)
      · -- connected: handed over, or closed after a `Stop`
        refine (yields_pure _ _).mpr ?_
        split <;> exact moves_of_same rfl rfl
  · simp only [yields_bind, yields_ensure, yields_pure]
    exact fun _ => moves_of_same rfl rfl

theorem resetChannel_moves (s : Connector) : Yields (Moves s) s.resetChannel := by
  unfold resetChannel
  split
  · exact (yields_pure _ _).mpr (moves_of_same rfl rfl)
  · simp only [yields_bind, yields_ensure, yields_pure]
    exact fun _ _ _ => moves_of_same rfl rfl

theorem resume_moves (s : Connector) (answer : KernelAnswer) : Yields (Moves s) (s.resume answer) := by
  unfold resume
  -- four of the calls go on in a function of the connector, the others return at once
  split
  · exact yields_error _ _
  · exact (startInLoop_moves _).mono fun t moves => moves.of_same rfl rfl rfl
  · exact (connect_moves _ _ _).mono fun t moves => moves.of_same rfl rfl rfl
  · exact (handleError_moves _).mono fun t moves => moves.of_same rfl rfl rfl
  · exact (handleWrite_moves _ _ _).mono fun t moves => moves.of_same rfl rfl rfl
  all_goals exact (yields_pure _ _).mpr (moves_of_same rfl rfl)

theorem poll_moves (s : Connector) (revents : Option Events) : Yields (Moves s) (s.poll revents) := by
  simp only [poll, yields_bind, yields_require]
  intro _ loop _
  split
  · exact (yields_pure _ _).mpr (moves_of_same rfl rfl)
  · simp only [yields_bind, yields_require, yields_pure]
    exact fun _ _ _ _ _ => moves_of_same rfl rfl

/-- A timer that fires is taken out, and `StartInLoop` arms no other. -/
theorem fire_moves (s : Connector) (n : Nat) : Yields (Moves s) (s.fire n) := by
  simp only [fire, startInLoop, yields_bind, yields_require, yields_ensure, yields_pure]
  intro _ _
  have shorter : (s.timers.eraseIdx n).length ≤ s.timers.length := List.length_eraseIdx_le _ _
  split <;> exact .keeps rfl shorter

theorem next_moves (s : Connector) : Yields (Moves s) s.next := by
  simp only [next, yields_bind, yields_require]
  rintro _ ⟨f, loop⟩ _
  cases f with
  | startInLoop => exact (startInLoop_moves _).mono fun t moves => moves.of_same rfl rfl rfl
  | stopInLoop => exact (stopInLoop_moves _).mono fun t moves => moves.of_same rfl rfl rfl
  | resetChannel => exact (resetChannel_moves _).mono fun t moves => moves.of_same rfl rfl rfl

theorem step_moves (s : Connector) (a : Action) (goes : a ≠ .restart) : Yields (Moves s) (s.step a) := by
  cases a with
  | restart => exact absurd rfl goes
  | poll revents => exact poll_moves s revents
  | resume answer => exact resume_moves s answer
  | fire n => exact fire_moves s n
  | next => exact next_moves s
  | start | stop =>
    simp only [step, start, stop, yields_bind, yields_require, yields_pure]
    exact fun _ => moves_of_same rfl rfl
  | callStart | callStop | push =>
    simp only [step, callStart, callStop, yields_bind, yields_pure]
    exact fun _ _ => moves_of_same rfl rfl
  | dispatch | swap | finish | closeHanded =>
    simp only [step, dispatch, closeHanded, yields_bind, yields_require, yields_pure]
    exact fun _ _ _ => moves_of_same rfl rfl

theorem restart_resets (s : Connector) :
    Yields (fun t => t.retryDelayMs = kInitRetryDelayMs) s.restart := by
  simp only [restart, yields_bind, yields_require, yields_pure]
  exact fun _ => rfl

end Connector

/-! ### Whole runs -/

/-- The connector, and the delays `Retry` has armed since the last `Restart`. -/
structure RetryHistory where
  connector : Connector
  delays : List Nat

namespace RetryHistory

def start : RetryHistory := ⟨.new, []⟩

def step (h : RetryHistory) (a : Connector.Action) : Comp ConnectorFault RetryHistory := do
  let t ← h.connector.step a
  -- `RunAfter` puts its timer at the end
  let armed := (t.timers.drop h.connector.timers.length).map RetryTimer.delayMs
  return ⟨t, if a = .restart then [] else h.delays ++ armed⟩

/-- The delays so far, and the one that `Retry` would arm next. -/
structure Doubles (h : RetryHistory) : Prop where
  delays : h.delays = (List.range h.delays.length).map backoff
  next : h.connector.retryDelayMs = backoff h.delays.length

theorem doubles_start : start.Doubles := ⟨rfl, backoff_zero.symm⟩

theorem Doubles.moves {h : RetryHistory} {t : Connector} (doubles : h.Doubles)
    (moves : Connector.Moves h.connector t) :
    Doubles ⟨t, h.delays ++ (t.timers.drop h.connector.timers.length).map RetryTimer.delayMs⟩ := by
  cases moves with
  | keeps delay shorter =>
    -- a timer may have fired, but none was added behind the old ones
    rw [List.drop_eq_nil_of_le shorter, List.map_nil, List.append_nil]
    exact ⟨doubles.delays, delay.trans doubles.next⟩
  | arms delay longer =>
    have armed : (t.timers.drop h.connector.timers.length).map RetryTimer.delayMs =
        [backoff h.delays.length] := by
      rw [longer, List.drop_left, List.map_singleton, doubles.next]
    rw [armed]
    constructor
    · rw [List.length_append, List.length_singleton, List.range_succ, List.map_append, List.map_singleton,
        ← doubles.delays]
    · rw [List.length_append, List.length_singleton, backoff_succ, ← doubles.next]
      exact delay

theorem step_doubles (h h' : RetryHistory) (a : Connector.Action) (doubles : h.Doubles)
    (taken : h.step a = .ok h') : h'.Doubles := by
  obtain ⟨t, moved, rest⟩ := bind_eq_ok.mp taken
  obtain rfl := Except.ok.inj rest
  by_cases again : a = .restart
  · subst again
    rw [if_pos rfl]
    exact ⟨rfl, (Connector.restart_resets h.connector t moved).trans backoff_zero.symm⟩
  · rw [if_neg again]
    exact doubles.moves (Connector.step_moves h.connector a again t moved)

/-- The delays of the retries double from `kInitRetryDelayMs` to `kMaxRetryDelayMs`, and only
`Restart` begins anew. -/
theorem retries_back_off (acts : List Connector.Action) : Yields Doubles (Run.exec step start acts) := by
  intro h reached
  exact Run.exec_keeps_all (fun h a h' => step_doubles h h' a) start h acts doubles_start reached

/-- Two refused attempts, and the retry timer in between. -/
example : (Run.exec step start
      [.start, .resume ⟨3, .econnrefused, 0, false⟩, .resume ⟨3, .econnrefused, 0, false⟩, .poll none, .fire 0,
        .resume ⟨3, .econnrefused, 0, false⟩]).toOption.map RetryHistory.delays = some [500, 1000] := by
  decide +kernel

end RetryHistory

end Rnet.Network
