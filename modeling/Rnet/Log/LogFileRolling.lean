import Rnet.Log.LogFile

/-!
# When a log file is rolled

A file is left when it has become longer than `rollSize`, and when the day has changed. The day is looked at
only at every `checkEveryN`-th line, and RollFile does nothing in the second in which it has opened a file.
So the bounds are: a file is longer than `rollSize` only in the second it was opened in, but for the line that
made it so; and at most `checkEveryN` lines of a later day are written to it.

A line is appended at some time, whether the clock is read for it or not. `watch` writes down the times of the
lines each file gets.
-/
namespace Rnet.Log

open Check

/-- What is written down of a file: when it was opened, and its lines with the times they were appended at. -/
structure Tenure where
  opened : Int
  lines : List (Int × Line)
  deriving DecidableEq, Repr

namespace Tenure

def day (time : Int) : Int := time / kRollPerSeconds

def add (tenure : Tenure) (time : Int) (logline : Line) : Tenure :=
  { tenure with lines := tenure.lines ++ [(time, logline)] }

def content (tenure : Tenure) : Line := (tenure.lines.map Prod.snd).flatten

/-- How many lines were appended on a later day than that of the opening. -/
def late (tenure : Tenure) : Nat := tenure.lines.countP fun line => day tenure.opened < day line.1

theorem day_mono {t u : Int} (le : t ≤ u) : day t ≤ day u := Int.ediv_le_ediv (by decide) le

/-- Times of one period are of one day. -/
theorem day_of_period {t u : Int} (first : 0 < t) (second : 0 < u) (same : LogFile.period t = LogFile.period u) :
    day t = day u := by
  unfold LogFile.period at same
  rw [Int.tdiv_eq_ediv_of_nonneg (by omega), Int.tdiv_eq_ediv_of_nonneg (by omega)] at same
  exact Int.eq_of_mul_eq_mul_right (by decide) same

@[simp] theorem content_add (tenure : Tenure) (time : Int) (logline : Line) :
    (tenure.add time logline).content = tenure.content ++ logline := by
  simp [add, content]

theorem late_add (tenure : Tenure) (time : Int) (logline : Line) :
    (tenure.add time logline).late = tenure.late + if day tenure.opened < day time then 1 else 0 := by
  refine List.countP_append.trans (congrArg (tenure.late + ·) ?_)
  by_cases later : day tenure.opened < day time
  · simp [add, later]
  · simp [add, later]

theorem late_eq_zero {tenure : Tenure} (early : ∀ line ∈ tenure.lines, day line.1 ≤ day tenure.opened) :
    tenure.late = 0 := by
  refine List.countP_eq_zero.mpr fun line member => ?_
  have early := early line member
  simpa using early

end Tenure

/-- A call, with the time at which a line is appended. -/
inductive TimedAction where
  | append (time : Int) (logline : Line)
  | rollFile
  | flush
  deriving DecidableEq, Repr

def TimedAction.plain : TimedAction → LogFile.Action
  | .append _ logline => .append logline
  | .rollFile => .rollFile
  | .flush => .flush

/-- A log file with the tenures of its closed files and of the present one. -/
structure WatchedLog where
  log : LogFile
  past : List Tenure
  now : Tenure
  deriving DecidableEq, Repr

namespace WatchedLog

variable (cfg : LogFileConfig) (clock : Nat → Int)

/-- A file was opened if one more is closed. -/
def note (w : WatchedLog) (log : LogFile) : WatchedLog :=
  if log.closed.length = w.log.closed.length then
    { w with log := log }
  else
    ⟨log, w.past ++ [w.now], ⟨log.lastRoll, []⟩⟩

/-- The line goes to the present file, also if the file is left afterwards. -/
def receive (w : WatchedLog) : TimedAction → WatchedLog
  | .append time logline => { w with now := w.now.add time logline }
  | .rollFile => w
  | .flush => w

def watch (w : WatchedLog) (act : TimedAction) : Comp LogFileFault WatchedLog := do
  let log ← w.log.step cfg clock act.plain
  return (w.receive act).note log

def start : Comp LogFileFault WatchedLog := do
  let l ← LogFile.new cfg clock
  return ⟨l, [], ⟨l.lastRoll, []⟩⟩

/-- The clock shows the time of a line or a later one when it is read next. -/
def Timely (w : WatchedLog) : TimedAction → Prop
  | .append time _ => time ≤ clock w.log.readings
  | .rollFile => True
  | .flush => True

instance : ∀ w act, Decidable (Timely clock w act)
  | w, .append time _ => inferInstanceAs (Decidable (time ≤ clock w.log.readings))
  | _, .rollFile => inferInstanceAs (Decidable True)
  | _, .flush => inferInstanceAs (Decidable True)

/-- What is to hold around each call. -/
structure Policy (w : WatchedLog) (act : TimedAction) (after : WatchedLog) : Prop where
  /-- A file that is too long was opened in the second that the clock shows to this call. -/
  size : ∀ time logline, act = .append time logline →
    (∃ f, after.log.file = some f ∧ cfg.rollSize < f.writtenBytes) →
    after.log.readings = w.log.readings + 1 ∧ clock w.log.readings = after.log.lastRoll
  day : ∀ tenure ∈ after.past ++ [after.now], (tenure.late : Int) ≤ cfg.checkEveryN

/-! ### Watching changes nothing -/

variable {cfg clock} {w : WatchedLog}

@[simp] theorem note_log (w : WatchedLog) (log : LogFile) : (w.note log).log = log := by
  rw [note]
  split <;> rfl

variable (cfg clock) in
theorem watch_log (w : WatchedLog) (act : TimedAction) :
    (w.watch cfg clock act).map log = w.log.step cfg clock act.plain := by
  rw [watch]
  cases w.log.step cfg clock act.plain with
  | error halt => rfl
  | ok l => exact congrArg Except.ok (note_log _ l)

/-- The log file of a watched run is that of the run. -/
theorem exec_watch_log (w : WatchedLog) (acts : List TimedAction) :
    (Run.exec (watch cfg clock) w acts).map log =
      Run.exec (LogFile.step cfg clock) w.log (acts.map TimedAction.plain) := by
  induction acts generalizing w with
  | nil => rfl
  | cons act rest ih =>
    rw [List.map_cons, Run.exec, Run.exec, ← watch_log cfg clock w act]
    cases w.watch cfg clock act with
    | error halt => rfl
    | ok after => exact ih after

/-! ### The invariant -/

/-- The tenures are those of the files, and the clock has gone past all that is written down. -/
structure Inv (cfg : LogFileConfig) (clock : Nat → Int) (w : WatchedLog) : Prop where
  file : ∃ f, w.log.file = some f ∧ f.content = w.now.content
  closed : w.log.closed.map AppendFile.content = w.past.map Tenure.content
  opened : w.now.opened = w.log.lastRoll
  period : w.log.startOfPeriod = LogFile.period w.log.lastRoll
  positive : 0 < w.log.lastRoll
  rolled : ∀ i, w.log.readings ≤ i → w.log.lastRoll ≤ clock i
  timely : ∀ line ∈ w.now.lines, ∀ i, w.log.readings ≤ i → line.1 ≤ clock i
  past : ∀ tenure ∈ w.past, (tenure.late : Int) ≤ cfg.checkEveryN

/-- The lines of a later day are among those that were counted. -/
structure Counted (cfg : LogFileConfig) (w : WatchedLog) : Prop where
  late : (w.now.late : Int) ≤ w.log.count
  below : w.log.count < cfg.checkEveryN

theorem Inv.tick (inv : Inv cfg clock w) (count : Int) {readings : Nat} (later : w.log.readings ≤ readings) :
    Inv cfg clock { w with log := { w.log with count := count, readings := readings } } :=
  { inv with
    rolled := fun i le => inv.rolled i (Nat.le_trans later le)
    timely := fun line member i le => inv.timely line member i (Nat.le_trans later le) }

theorem Inv.flush (inv : Inv cfg clock w) {f : AppendFile} (file : w.log.file = some f) (lastFlush : Int) :
    Inv cfg clock { w with log := { w.log with file := some f.flush, lastFlush := lastFlush } } := by
  obtain ⟨g, same, content⟩ := inv.file
  obtain rfl : f = g := Option.some.inj (file.symm.trans same)
  exact { inv with file := ⟨f.flush, rfl, by rw [AppendFile.content_flush, content]⟩ }

theorem Inv.write (mono : ∀ i j, i ≤ j → clock i ≤ clock j) (inv : Inv cfg clock w) {f : AppendFile}
    (file : w.log.file = some f) {time : Int} (timely : time ≤ clock w.log.readings) (logline : Line) :
    Inv cfg clock ⟨{ w.log with file := some (f.append logline) }, w.past, w.now.add time logline⟩ := by
  obtain ⟨g, same, content⟩ := inv.file
  obtain rfl : f = g := Option.some.inj (file.symm.trans same)
  refine { inv with file := ⟨f.append logline, rfl, ?_⟩, timely := ?_ }
  · rw [AppendFile.content_append, Tenure.content_add, content]
  · intro line member i later
    rcases List.mem_append.mp member with before | last
    · exact inv.timely line before i later
    · rw [List.mem_singleton.mp last]
      exact Int.le_trans timely (mono _ _ later)

/-- What `RollFile` does: the clock is read once, and it shows the time of the last opening afterwards, be it an earlier
one or a new one. -/
structure Rolls (cfg : LogFileConfig) (clock : Nat → Int) (w after : WatchedLog) : Prop where
  inv : Inv cfg clock after
  count : after.log.count = w.log.count
  readings : after.log.readings = w.log.readings + 1
  lastRoll : clock w.log.readings = after.log.lastRoll
  outcome : (after.now = ⟨clock w.log.readings, []⟩ ∧ ∃ name, after.log.file = some (.new name)) ∨
    (clock w.log.readings = w.log.lastRoll ∧ after.now = w.now)

theorem Inv.roll (mono : ∀ i j, i ≤ j → clock i ≤ clock j) (inv : Inv cfg clock w)
    (few : (w.now.late : Int) ≤ cfg.checkEveryN) : Rolls cfg clock w (w.note (w.log.rollFile cfg clock)) := by
  obtain ⟨f, file, content⟩ := inv.file
  have reached := inv.rolled w.log.readings (Nat.le_refl _)
  by_cases later : w.log.lastRoll < clock w.log.readings
  · -- a new file; nothing is late in it
    have opens : w.log.rollFile cfg clock =
        { w.log with
          readings := w.log.readings + 1, lastRoll := clock w.log.readings, lastFlush := clock w.log.readings
          startOfPeriod := LogFile.period (clock w.log.readings)
          file := some (.new (LogFile.getLogFileName cfg (clock w.log.readings)))
          closed := w.log.closed ++ [f.close] } := by
      simp [LogFile.rollFile, later, LogFile.reset, file]
    rw [note, opens, if_neg (by simp)]
    refine ⟨?_, rfl, rfl, rfl, Or.inl ⟨rfl, _, rfl⟩⟩
    constructor
    · exact ⟨_, rfl, rfl⟩
    · have closing : f.close.content = w.now.content := (AppendFile.content_flush f).trans content
      simp [inv.closed, closing]
    · rfl
    · rfl
    · exact Int.lt_trans inv.positive later
    · intro i le
      exact mono _ _ (Nat.le_of_succ_le le)
    · simp
    · intro tenure member
      rcases List.mem_append.mp member with before | last
      · exact inv.past tenure before
      · rw [List.mem_singleton.mp last]
        exact few
  · have refused : w.note (w.log.rollFile cfg clock) =
        { w with log := { w.log with count := w.log.count, readings := w.log.readings + 1 } } := by
      simp [note, LogFile.rollFile, later]
    have same : clock w.log.readings = w.log.lastRoll := by omega
    rw [refused]
    exact ⟨inv.tick w.log.count (Nat.le_succ _), rfl, rfl, same, Or.inr ⟨same, rfl⟩⟩

/-- While the clock shows the day of the opening, no line is late. -/
theorem Inv.none_late (inv : Inv cfg clock w) (today : Tenure.day (clock w.log.readings) ≤ Tenure.day w.log.lastRoll) :
    w.now.late = 0 := by
  refine Tenure.late_eq_zero fun line member => ?_
  have before := Tenure.day_mono (inv.timely line member w.log.readings (Nat.le_refl _))
  rw [inv.opened]
  omega

/-- No line is late after `RollFile`: the file is a new one, or it was opened in the second the clock shows. -/
theorem Rolls.counted {after : WatchedLog} (rolls : Rolls cfg clock w after) (inv : Inv cfg clock w)
    (nonneg : 0 ≤ w.log.count) (below : w.log.count < cfg.checkEveryN) : Counted cfg after := by
  rw [← rolls.count] at nonneg below
  refine ⟨?_, below⟩
  rcases rolls.outcome with ⟨fresh, _⟩ | ⟨same, kept⟩
  · rw [fresh]
    exact nonneg
  · have punctual := inv.none_late (Int.le_of_eq (congrArg Tenure.day same))
    rw [kept, punctual]
    exact nonneg

/-- What a call that appends a line keeps, `w` being the state after the line is written. -/
structure Checks (cfg : LogFileConfig) (clock : Nat → Int) (w after : WatchedLog) : Prop where
  inv : Inv cfg clock after
  counted : Counted cfg after
  size : (∃ f, after.log.file = some f ∧ cfg.rollSize < f.writtenBytes) →
    after.log.readings = w.log.readings + 1 ∧ clock w.log.readings = after.log.lastRoll

/-- The file is too long. -/
theorem Inv.checks_size (mono : ∀ i j, i ≤ j → clock i ≤ clock j) (inv : Inv cfg clock w) (nonneg : 0 ≤ w.log.count)
    (below : w.log.count < cfg.checkEveryN) (room : (w.now.late : Int) ≤ w.log.count + 1) :
    Checks cfg clock w (w.note (w.log.rollFile cfg clock)) := by
  have rolls := inv.roll mono (by omega)
  exact ⟨rolls.inv, rolls.counted inv nonneg below, fun _ => ⟨rolls.readings, rolls.lastRoll⟩⟩

/-- The day has changed. The clock was read as `now`, and `RollFile` reads it again. -/
theorem Inv.checks_day (mono : ∀ i j, i ≤ j → clock i ≤ clock j) (every : 1 ≤ cfg.checkEveryN)
    (inv : Inv cfg clock w) (zero : w.log.count = 0) (few : (w.now.late : Int) ≤ cfg.checkEveryN) {now : Int}
    (read : w.log.lastRoll ≤ now) (before : now ≤ clock w.log.readings)
    (changed : LogFile.period now ≠ w.log.startOfPeriod) :
    Inv cfg clock (w.note (w.log.rollFile cfg clock)) ∧ Counted cfg (w.note (w.log.rollFile cfg clock)) ∧
      ∃ name, (w.note (w.log.rollFile cfg clock)).log.file = some (.new name) := by
  have rolls := inv.roll mono few
  rcases rolls.outcome with ⟨_, new⟩ | ⟨same, _⟩
  · exact ⟨rolls.inv, rolls.counted inv (Int.le_of_eq zero.symm) (by omega), new⟩
  · -- RollFile does not refuse: the second of the last opening is of its day
    have opening : now = w.log.lastRoll := by omega
    rw [opening, inv.period] at changed
    exact absurd rfl changed

/-- The file stays, and is not too long. -/
theorem checks_kept {log : LogFile} {g : AppendFile} (closed : log.closed = w.log.closed) (file : log.file = some g)
    (fits : ¬ cfg.rollSize < g.writtenBytes) (inv : Inv cfg clock { w with log := log })
    (counted : Counted cfg { w with log := log }) : Checks cfg clock w (w.note log) := by
  have kept : w.note log = { w with log := log } := if_pos (by rw [closed])
  rw [kept]
  refine ⟨inv, counted, ?_⟩
  rintro ⟨g', current, long⟩
  obtain rfl : g = g' := Option.some.inj (file.symm.trans current)
  exact absurd long fits

-- The cases are the branches of `AppendUnlocked` after the write, in their order.
theorem Inv.checks (mono : ∀ i j, i ≤ j → clock i ≤ clock j) (positive : ∀ i, 0 < clock i)
    (every : 1 ≤ cfg.checkEveryN) (inv : Inv cfg clock w) {f : AppendFile} (file : w.log.file = some f)
    (nonneg : 0 ≤ w.log.count) (below : w.log.count < cfg.checkEveryN)
    (room : (w.now.late : Int) ≤ w.log.count + 1) :
    Checks cfg clock w (w.note (w.log.checkRoll cfg clock f)) := by
  have few : (w.now.late : Int) ≤ cfg.checkEveryN := by omega
  have ticked := inv.tick 0 (Nat.le_succ w.log.readings)
  simp only [LogFile.checkRoll]
  split
  next => exact inv.checks_size mono nonneg below room
  next fits =>
    split
    next due =>
      split
      next changed =>
        have reached := inv.rolled w.log.readings (Nat.le_refl _)
        obtain ⟨inv', counted, name, new⟩ :=
          ticked.checks_day mono every rfl few reached (mono _ _ (Nat.le_succ _)) changed
        refine ⟨inv', counted, ?_⟩
        -- the new file is empty, and so too long only where the one before it was
        rintro ⟨g, current, long⟩
        obtain rfl : AppendFile.new name = g := Option.some.inj (new.symm.trans current)
        have empty : ((AppendFile.new name).writtenBytes : Int) = 0 := rfl
        omega
      next today =>
        have punctual : w.now.late = 0 := by
          have period := (not_not.mp today).trans inv.period
          exact inv.none_late (Int.le_of_eq (Tenure.day_of_period (positive _) inv.positive period))
        have counted : (w.now.late : Int) ≤ 0 := by omega
        split
        next =>
          exact checks_kept rfl rfl fits (ticked.flush file _) ⟨counted, every⟩
        next =>
          exact checks_kept rfl file fits ticked ⟨counted, every⟩
    next early =>
      exact checks_kept rfl file fits (inv.tick _ (Nat.le_refl _)) ⟨room, Int.not_le.mp early⟩

/-! ### Whole runs -/

theorem Inv.day (inv : Inv cfg clock w) (counted : Counted cfg w) :
    ∀ tenure ∈ w.past ++ [w.now], (tenure.late : Int) ≤ cfg.checkEveryN := by
  intro tenure member
  rcases List.mem_append.mp member with before | last
  · exact inv.past tenure before
  · rw [List.mem_singleton.mp last]
    exact Int.le_of_lt (Int.lt_of_le_of_lt counted.late counted.below)

theorem watch_keeps (mono : ∀ i j, i ≤ j → clock i ≤ clock j) (positive : ∀ i, 0 < clock i)
    (every : 1 ≤ cfg.checkEveryN) (w : WatchedLog) (act : TimedAction) (kept : Inv cfg clock w ∧ Counted cfg w)
    (timely : Timely clock w act) :
    Returns (fun after => (Inv cfg clock after ∧ Counted cfg after) ∧ Policy cfg clock w act after)
      (w.watch cfg clock act) := by
  obtain ⟨inv, counted⟩ := kept
  obtain ⟨f, file, _⟩ := inv.file
  have nonneg : 0 ≤ w.log.count := Int.le_trans (Int.natCast_nonneg _) counted.late
  have few := Int.le_of_lt (Int.lt_of_le_of_lt counted.late counted.below)
  cases act with
  | append time logline =>
    simp only [watch, TimedAction.plain, LogFile.step, LogFile.append, file, demand, returns_bind, returns_ok,
      returns_pure]
    have room : ((w.now.add time logline).late : Int) ≤ w.log.count + 1 := by
      have late := counted.late
      rw [Tenure.late_add]
      split <;> omega
    have checks := (inv.write mono file timely logline).checks mono positive every rfl nonneg counted.below room
    exact ⟨⟨checks.inv, checks.counted⟩, fun _ _ _ => checks.size, checks.inv.day checks.counted⟩
  | rollFile =>
    simp only [watch, TimedAction.plain, LogFile.step, returns_bind, returns_pure]
    have rolls := inv.roll mono few
    have counted' := rolls.counted inv nonneg counted.below
    exact ⟨⟨rolls.inv, counted'⟩, by simp, rolls.inv.day counted'⟩
  | flush =>
    simp only [watch, TimedAction.plain, LogFile.step, LogFile.flush, file, demand, returns_bind, returns_ok,
      returns_pure]
    have flushed := inv.flush file w.log.lastFlush
    have same : w.note { w.log with file := some f.flush } = { w with log := { w.log with file := some f.flush } } :=
      if_pos rfl
    rw [receive, same]
    exact ⟨⟨flushed, counted.late, counted.below⟩, by simp, flushed.day ⟨counted.late, counted.below⟩⟩

theorem start_keeps (mono : ∀ i j, i ≤ j → clock i ≤ clock j) (positive : ∀ i, 0 < clock i)
    (every : 1 ≤ cfg.checkEveryN) (plain : '/' ∉ cfg.basename.toList) :
    Returns (fun w => Inv cfg clock w ∧ Counted cfg w) (start cfg clock) := by
  simp only [start, LogFile.new, returns_bind, returns_ensure, returns_pure]
  refine ⟨plain, ?_⟩
  simp only [LogFile.rollFile, positive 0, if_true]
  refine ⟨?_, Int.le_refl 0, every⟩
  constructor
  · exact ⟨_, rfl, rfl⟩
  · rfl
  · rfl
  · rfl
  · exact positive 0
  · exact fun i _ => mono 0 i (Nat.zero_le i)
  · simp
  · simp

/-- For every clock that does not go back and every sequence of calls: every call returns and keeps to the policy. -/
theorem rolling_policy (cfg : LogFileConfig) (clock : Nat → Int) (acts : List TimedAction)
    (plain : '/' ∉ cfg.basename.toList) (positive : ∀ i, 0 < clock i) (mono : ∀ i j, i ≤ j → clock i ≤ clock j)
    (every : 1 ≤ cfg.checkEveryN) :
    Returns (fun w => Run.Meets (watch cfg clock) (Timely clock) w acts →
      Run.Each (watch cfg clock) (Policy cfg clock) w acts) (start cfg clock) := by
  refine (start_keeps mono positive every plain).mono fun w kept timely => ?_
  exact Run.each_of_step (watch_keeps mono positive every) w acts kept timely

def twoLinesConfig : LogFileConfig := ⟨"server", 3, 3, 2, "host", 42, fun t => toString t⟩

/-- After the first file is opened it is the next day. -/
def nextDayClock (i : Nat) : Int := if i = 0 then 100 else 86500

/-- The first file gets a line of the next day; the second one becomes too long in its first second. -/
theorem rolling_policy_nextDayClock :
    ∃ w, start twoLinesConfig nextDayClock = .ok w ∧
      Run.Each (watch twoLinesConfig nextDayClock) (Policy twoLinesConfig nextDayClock) w
        [.append 100 [1], .append 86450 [2], .append 86500 [3, 4, 5, 6], .rollFile, .append 86500 [7]] := by
  have positive : ∀ i, 0 < nextDayClock i := by
    intro i
    unfold nextDayClock
    split <;> decide
  have mono : ∀ i j, i ≤ j → nextDayClock i ≤ nextDayClock j := by
    intro i j le
    unfold nextDayClock
    split <;> split <;> omega
  obtain ⟨w, started, policy⟩ := (rolling_policy twoLinesConfig nextDayClock
    [.append 100 [1], .append 86450 [2], .append 86500 [3, 4, 5, 6], .rollFile, .append 86500 [7]]
    (by decide) positive mono (by decide)).exists
  have timely : (start twoLinesConfig nextDayClock).toOption.map (fun w =>
      decide (Run.Meets (watch twoLinesConfig nextDayClock) (Timely nextDayClock) w
        [.append 100 [1], .append 86450 [2], .append 86500 [3, 4, 5, 6], .rollFile, .append 86500 [7]])) =
      some true := by
    decide +kernel
  rw [started] at timely
  exact ⟨w, started, policy (of_decide_eq_true (Option.some.inj timely))⟩

end WatchedLog

end Rnet.Log
