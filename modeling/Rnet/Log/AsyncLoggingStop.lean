import Rnet.Log.AsyncLoggingStream

/-!
# What is in the file after Stop

`Stop` clears `running_` and waits for the back end, which looks at it once an iteration, before
the swap. Lines that wait in the buffers are written if the back end is between that test and
the swap when `Stop` is called. Otherwise it leaves the loop without looking at them again. A line as
long as a buffer is not even in one.
-/
namespace Rnet.Log.AsyncLogging

open Check

variable {s : AsyncLogging}

/-- The lines swapped out so far. -/
def swappedLines (s : AsyncLogging) : List Line := linesOf (s.iterations.flatMap Iteration.swapped)

/-- No line waits for the next swap. -/
def NothingWaits (s : AsyncLogging) : Prop := linesOf (s.buffers ++ s.currentBuffer.toList) = []

instance (s : AsyncLogging) : Decidable s.NothingWaits := inferInstanceAs (Decidable (_ = _))

/-- `Stop` is called with lines that fit into the buffers, and when they are on their way out. -/
def StopTimely (s : AsyncLogging) : Action → Prop
  | .stop => s.ShortLines ∧ (s.backEnd = .swap ∨ s.NothingWaits)
  | _ => True

instance (s : AsyncLogging) (a : Action) : Decidable (s.StopTimely a) := by
  unfold StopTimely
  cases a <;> infer_instance

/-- The first `n` lines, none of which is too long for a buffer. -/
structure Before (lines : List Line) (n : Nat) : Prop where
  length : n ≤ lines.length
  short : ∀ line ∈ lines.take n, line.length < File.kLargeSize

/-- Among the lines that fit they are the first ones as well. -/
theorem Before.fitting_eq {n : Nat} (before : Before s.appended n) :
    s.fitting = s.appended.take n ++ (s.appended.drop n).filter fun line => line.length < File.kLargeSize := by
  have kept := List.filter_eq_self.mpr fun line member => decide_eq_true (before.short line member)
  rw [fitting]
  nth_rewrite 1 [← List.take_append_drop n s.appended]
  rw [List.filter_append, kept]

theorem Before.le_fitting {n : Nat} (before : Before s.appended n) : n ≤ s.fitting.length := by
  have length := before.length
  rw [before.fitting_eq, List.length_append, List.length_take]
  omega

theorem Before.take_fitting {n : Nat} (before : Before s.appended n) : s.fitting.take n = s.appended.take n := by
  have length : (s.appended.take n).length = n := List.length_take_of_le before.length
  rw [before.fitting_eq, List.take_append_of_le_length (Nat.le_of_eq length.symm), List.take_take, Nat.min_self]

/-- After the call of `Stop` the lines appended before it are on their way out. -/
structure Stopping (s : AsyncLogging) : Prop where
  called : s.owner = .stopping ∨ s.owner = .stopped ↔ s.atStop.isSome = true
  leaving : ∀ n, s.atStop = some n → s.running = false ∧ Before s.appended n ∧
    (s.backEnd = .swap ∨ n ≤ s.swappedLines.length)
  joined : s.owner = .stopped → s.backEnd = .done

theorem stopping_start : start.Stopping := by
  constructor <;> simp [start]

theorem Inv.fitting_split (inv : s.Inv) :
    s.fitting = s.swappedLines ++ linesOf (s.buffers ++ s.currentBuffer.toList) := by
  rw [inv.stream, allBuffers, List.append_assoc, linesOf_append]
  rfl

/-- A part of the back end that neither tests `running_` nor swaps. -/
structure Internal (s s' : AsyncLogging) : Prop where
  owner : s'.owner = s.owner
  atStop : s'.atStop = s.atStop
  running : s'.running = s.running
  appended : s'.appended = s.appended
  swapped : s'.swappedLines = s.swappedLines

theorem overload_internal (time : String) : s.Internal (s.overload time) := by
  unfold overload
  split
  · refine ⟨rfl, rfl, rfl, rfl, ?_⟩
    cases running : s.iteration <;> simp [swappedLines, iterations, running]
  · exact ⟨rfl, rfl, rfl, rfl, rfl⟩

theorem write_internal : s.Internal s.write := by
  unfold write
  split
  · refine ⟨rfl, rfl, rfl, rfl, ?_⟩
    cases running : s.iteration <;> simp [swappedLines, iterations, running]
  · exact ⟨rfl, rfl, rfl, rfl, rfl⟩

/-- The iteration that ends joins the finished ones. -/
theorem recycle_internal {s' : AsyncLogging} (returned : s.recycle = .ok s') : s.Internal s' := by
  simp only [recycle, bind_eq_ok] at returned
  obtain ⟨_, _, _, _, result⟩ := returned
  rw [← Except.ok.inj result]
  exact ⟨rfl, rfl, rfl, rfl, by simp [swappedLines, iterations]⟩

theorem Stopping.advance {s' : AsyncLogging} (stopping : s.Stopping) (inner : s.Internal s')
    (part : s.backEnd ≠ .swap) (notDone : s.backEnd ≠ .done) : s'.Stopping := by
  constructor
  · rw [inner.owner, inner.atStop]
    exact stopping.called
  · intro n marked
    rw [inner.atStop] at marked
    obtain ⟨off, before, out⟩ := stopping.leaving n marked
    exact ⟨inner.running ▸ off, inner.appended ▸ before, Or.inr (inner.swapped ▸ out.resolve_left part)⟩
  · intro joined
    exact absurd (stopping.joined (inner.owner ▸ joined)) notDone

/-- The swap takes every waiting line along. -/
theorem swapBuffers_stopping (part : s.backEnd = .swap) (inv : s.Inv) (stopping : s.Stopping) :
    Safe Stopping s.swapBuffers := by
  have empties : Safe (fun s' => s'.NothingWaits ∧ s'.owner = s.owner ∧ s'.atStop = s.atStop ∧
      s'.running = s.running ∧ s'.appended = s.appended) s.swapBuffers := by
    obtain ⟨first, _, empty, _⟩ := inv.stage.between_of (by simp [part])
    simp only [swapBuffers, safe_bind, safe_demand, safe_ensure, safe_pure]
    obtain ⟨current, found⟩ := inv.current
    refine ⟨current, found, ?_⟩
    split <;> simp [NothingWaits, first, empty]
  refine ((swapBuffers_inv part inv).and empties.yields).mono ?_
  rintro s' ⟨inv', nothing, owner, atStop, running, appended⟩
  -- nothing waits behind the swap, so all lines so far are among those swapped out
  have all := inv'.fitting_split
  rw [nothing, List.append_nil] at all
  constructor
  · rw [owner, atStop]
    exact stopping.called
  · intro n marked
    rw [atStop] at marked
    obtain ⟨off, before, _⟩ := stopping.leaving n marked
    have still : Before s'.appended n := appended ▸ before
    refine ⟨running ▸ off, still, Or.inr ?_⟩
    rw [← all]
    exact still.le_fitting
  · intro joined
    have ended := stopping.joined (owner ▸ joined)
    rw [part] at ended
    cases ended

theorem loopTest_stopping (part : s.backEnd = .test) (inv : s.Inv) (stopping : s.Stopping) :
    Safe Stopping s.loopTest := by
  unfold loopTest
  split
  next running =>
    simp only [safe_bind, safe_demand, safe_ensure, safe_pure]
    obtain ⟨first, second, empty, _⟩ := inv.stage.between_of (by simp [part])
    refine ⟨.new, first, rfl, .new, second, rfl, by rw [empty]; rfl, stopping.called, fun n marked => ?_, ?_⟩
    · -- the test still found `running_`, so `Stop` has not been called
      have off := (stopping.leaving n marked).1
      rw [running] at off
      cases off
    · intro joined
      have ended := stopping.joined joined
      rw [part] at ended
      cases ended
  next => exact stopping.advance ⟨rfl, rfl, rfl, rfl, rfl⟩ (by simp [part]) (by simp [part])

theorem threadStep_stopping (time : String) (inv : s.Inv) (stopping : s.Stopping) :
    Safe Stopping (s.threadStep time) := by
  rw [threadStep]
  cases part : s.backEnd with
  | notStarted | done => trivial
  | entry =>
    simp only [enterThread, safe_bind, safe_ensure, safe_pure]
    exact ⟨inv.owners.running part, stopping.advance ⟨rfl, rfl, rfl, rfl, rfl⟩ (by simp [part]) (by simp [part])⟩
  | test => exact loopTest_stopping part inv stopping
  | swap => exact swapBuffers_stopping part inv stopping
  | overload => exact stopping.advance (overload_internal time) (by simp [part]) (by simp [part])
  | write => exact stopping.advance write_internal (by simp [part]) (by simp [part])
  | recycle =>
    refine (recycle_inv part inv).of_result fun s' returned => ?_
    exact stopping.advance (recycle_internal returned) (by simp [part]) (by simp [part])
  | flush | lastFlush => exact stopping.advance ⟨rfl, rfl, rfl, rfl, rfl⟩ (by simp [part]) (by simp [part])

theorem append_stopping (line : Line) (inv : s.Inv) (stopping : s.Stopping) : Safe Stopping (s.append line) := by
  refine (append_inv line inv).of_result fun s' returned => ?_
  have more : s'.owner = s.owner ∧ s'.atStop = s.atStop ∧ s'.running = s.running ∧ s'.backEnd = s.backEnd ∧
      s'.appended = s.appended ++ [line] ∧ s'.swappedLines = s.swappedLines := by
    simp only [append, bind_eq_ok] at returned
    obtain ⟨current, _, result⟩ := returned
    split at result <;> rw [← Except.ok.inj result] <;> exact ⟨rfl, rfl, rfl, rfl, rfl, rfl⟩
  obtain ⟨owner, atStop, running, backEnd, appended, swapped⟩ := more
  constructor
  · rw [owner, atStop]
    exact stopping.called
  · intro n marked
    rw [atStop] at marked
    obtain ⟨off, before, out⟩ := stopping.leaving n marked
    rw [running, backEnd, swapped]
    -- the new line stands behind those that were there when `Stop` was called
    refine ⟨off, ⟨?_, ?_⟩, out⟩
    · rw [appended, List.length_append]
      exact Nat.le_trans before.length (Nat.le_add_right _ _)
    · rw [appended, List.take_append_of_le_length before.length]
      exact before.short
  · rw [owner, backEnd]
    exact stopping.joined

theorem step_stopping (a : Action) (timely : s.StopTimely a) (inv : s.Inv) (stopping : s.Stopping) :
    Safe Stopping (s.step a) := by
  cases a with
  | append line => exact append_stopping line inv stopping
  | start =>
    simp only [step, safe_bind, safe_require, safe_pure]
    intro idle
    have unmarked : s.atStop = none := by
      cases marked : s.atStop with
      | none => rfl
      | some n =>
        have called := stopping.called.mpr (by rw [marked]; rfl)
        simp [idle] at called
    constructor <;> simp [unmarked]
  | started =>
    simp only [step, safe_bind, safe_require, safe_pure]
    rintro ⟨starting, _⟩
    refine ⟨?_, stopping.leaving, by simp⟩
    rw [← stopping.called]
    simp [starting]
  | stop =>
    simp only [step, safe_bind, safe_require, safe_pure]
    intro _
    refine ⟨by simp, ?_, by simp⟩
    rintro n ⟨⟩
    obtain ⟨short, timely⟩ := timely
    refine ⟨rfl, ⟨Nat.le_refl _, fun line member => short line (List.mem_of_mem_take member)⟩, ?_⟩
    rcases timely with part | nothing
    · exact Or.inl part
    · -- all lines have been swapped out already
      have all := inv.fitting_split
      rw [nothing, List.append_nil, short.fitting_eq] at all
      exact Or.inr (Nat.le_of_eq (congrArg List.length all))
  | joined =>
    simp only [step, safe_bind, safe_require, safe_pure]
    rintro ⟨waiting, ended⟩
    refine ⟨?_, stopping.leaving, fun _ => ended⟩
    rw [← stopping.called]
    simp [waiting]
  | backEnd time => exact threadStep_stopping time inv stopping

/-! ### Every run -/

/-- Each line appended before the call of `Stop` was in a buffer that is written, or that an
overloaded iteration dropped. -/
def KeptLines (s : AsyncLogging) : Prop :=
  ∃ n, s.atStop = some n ∧
    s.appended.take n <+: linesOf (s.finished.flatMap fun it => it.written ++ it.dropped) ∧
    (∀ it ∈ s.finished, it.Settled) ∧ s.output = s.finished.flatMap Iteration.chunks

theorem Stopping.kept (inv : s.Inv) (stopping : s.Stopping) (stopped : s.owner = .stopped) : s.KeptLines := by
  obtain ⟨n, marked⟩ := Option.isSome_iff_exists.mp (stopping.called.mp (Or.inr stopped))
  obtain ⟨_, before, out⟩ := stopping.leaving n marked
  have ended := stopping.joined stopped
  -- the thread has returned, so every iteration is finished
  have idle := (inv.stage.after_of (Or.inr ended)).2
  have settled : s.finished.flatMap (fun it => it.written ++ it.dropped) = s.finished.flatMap Iteration.swapped := by
    refine List.flatMap_congr fun it member => ?_
    exact (inv.finished it member).swapped.symm
  have output := inv.output
  rw [iterations, idle, Option.toList_none, List.append_nil] at output
  refine ⟨n, marked, ?_, inv.finished, output⟩
  have enough : n ≤ s.swappedLines.length := out.resolve_left (by simp [ended])
  have lines : s.swappedLines = linesOf (s.finished.flatMap Iteration.swapped) := by
    rw [swappedLines, iterations, idle, Option.toList_none, List.append_nil]
  rw [settled, ← lines, ← before.take_fitting, inv.fitting_split, List.take_append_of_le_length enough]
  exact List.take_prefix n _

/-- In a run in which `Stop` is called in time and no line before it is as long as a buffer, every line
appended before is kept. -/
theorem stop_keeps_lines (acts : List Action) (timely : Run.Meets step StopTimely start acts) :
    Safe (fun s => s.owner = .stopped → s.KeptLines) (Run.exec step start acts) := by
  have both (s : AsyncLogging) (a : Action) (inv : s.Inv ∧ s.Stopping) (timely : s.StopTimely a) :
      Safe (fun s' => s'.Inv ∧ s'.Stopping) (s.step a) :=
    (step_inv a inv.1).and (step_stopping a timely inv.1 inv.2).yields
  refine (Run.exec_safe both start acts ⟨inv_start, stopping_start⟩ timely).mono ?_
  exact fun s inv stopped => inv.2.kept inv.1 stopped

/-- `Stop` while the back end waits for its buffers. -/
def stopsWaiting : List Action :=
  [.start, .backEnd "", .started, .append [65], .backEnd "", .append [66], .stop, .append [67]] ++
    List.replicate 8 (.backEnd "") ++ [.joined]

theorem stop_keeps_lines_waiting : Run.Meets step StopTimely start stopsWaiting ∧
    ∃ s, Run.exec step start stopsWaiting = .ok s ∧ s.KeptLines ∧ s.atStop = some 2 := by
  have timely : Run.Meets step StopTimely start stopsWaiting := by decide +kernel
  have last : (Run.exec step start stopsWaiting).toOption.map (fun s => (s.owner, s.atStop)) =
      some (.stopped, some 2) := by decide +kernel
  obtain ⟨s, reached, ended⟩ := returned_of_map last
  obtain ⟨stopped, marked⟩ := Prod.mk.inj ended
  exact ⟨timely, s, reached, (stop_keeps_lines stopsWaiting timely).result reached stopped, marked⟩

/-- A line appended after the swap, and `Stop` before the next one. -/
def stopsWriting : List Action :=
  [.start, .backEnd "", .started, .backEnd "", .backEnd "", .append [65], .stop] ++
    List.replicate 7 (.backEnd "") ++ [.joined]

/-- A line appended before the first test of the loop, and `Stop` before it too. -/
def stopsAtOnce : List Action :=
  [.start, .backEnd "", .started, .append [65], .stop, .backEnd "", .backEnd "", .joined]

/-- What a run shows in which the one line appended before `Stop` was never swapped out. -/
theorem loses_line {acts : List Action} (line : Line) (last : (Run.exec step start acts).toOption.map (fun s =>
    ((s.owner, s.atStop), s.appended, linesOf (s.finished.flatMap fun it => it.written ++ it.dropped))) =
      some ((.stopped, some 1), [line], [])) :
    ∃ s, Run.exec step start acts = .ok s ∧ s.owner = .stopped ∧ ¬ s.KeptLines := by
  obtain ⟨s, reached, ended⟩ := returned_of_map last
  obtain ⟨owners, rest⟩ := Prod.mk.inj ended
  obtain ⟨stopped, marked⟩ := Prod.mk.inj owners
  obtain ⟨appended, lines⟩ := Prod.mk.inj rest
  refine ⟨s, reached, stopped, ?_⟩
  rintro ⟨n, marked', kept, _⟩
  rw [marked, Option.some.injEq] at marked'
  rw [lines, appended, ← marked'] at kept
  simp at kept

/-- A line is appended, and `Stop` called while the back end waits for its buffers. -/
def stopsAfter (line : Line) : List Action :=
  [.start, .backEnd "", .started, .append line] ++ (.backEnd "" :: .stop :: List.replicate 9 (.backEnd "") ++ [.joined])

/-- A line as long as a buffer is in neither of the two buffers that are swapped out. -/
theorem stop_loses_long {line : Line} (long : File.kLargeSize ≤ line.length) :
    ∃ s, Run.exec step start (stopsAfter line) = .ok s ∧ s.owner = .stopped ∧ ¬ s.KeptLines := by
  have full : ¬ line.length < LogBuffer.new.avail := Nat.not_lt_of_le long
  -- the state is written out, since a run with a line of any length cannot be evaluated
  let started : AsyncLogging := { start with
    running := true, latch := true, newBuffer1 := some .new, newBuffer2 := some .new, backEnd := .test
    owner := .started }
  have opened : Run.exec step start [.start, .backEnd "", .started] = .ok started := rfl
  have appended : started.step (.append line) = .ok { started with
      appended := [line], buffers := [.new], currentBuffer := some .new, nextBuffer := none } := by
    rw [step_append_full (b := .new) rfl full]
    change _ = Except.ok _
    congr 2
    exact congrArg some (LogBuffer.append_full _ _ full)
  have first : Run.exec step start [.start, .backEnd "", .started, .append line] = .ok { started with
      appended := [line], buffers := [.new], currentBuffer := some .new, nextBuffer := none } := by
    rw [show ([.start, .backEnd "", .started, .append line] : List Action) =
      [.start, .backEnd "", .started] ++ [.append line] from rfl, Run.exec_append, opened]
    exact Run.exec_cons appended []
  apply loses_line line
  rw [stopsAfter, Run.exec_append, first]
  rfl

theorem stop_loses_lines :
    (∃ s, Run.exec step start stopsWriting = .ok s ∧ s.owner = .stopped ∧ ¬ s.KeptLines) ∧
    (∃ s, Run.exec step start stopsAtOnce = .ok s ∧ s.owner = .stopped ∧ ¬ s.KeptLines) ∧
    ∃ s, Run.exec step start (stopsAfter (List.replicate 1024000 65)) = .ok s ∧ s.owner = .stopped ∧
      ¬ s.KeptLines := by
  refine ⟨loses_line [65] (by decide +kernel), loses_line [65] (by decide +kernel), ?_⟩
  apply stop_loses_long
  rw [List.length_replicate]
  exact Nat.le_refl _

end Rnet.Log.AsyncLogging
