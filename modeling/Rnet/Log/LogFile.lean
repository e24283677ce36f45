import Rnet.File.AppendFile
import Rnet.Log.AsyncLogging

/-!
# Rolling log files

`rnet::log::LogFile` over `rnet::file::AppendFile`. A new file is opened when the present one has
become too long, when the day has changed, or on demand; and only if the clock has gone past the
last opening, since the name of a file is made from the second in which it is opened.

`time(2)` may return anything: `clock i` is the answer to its `i`-th call. `fopen` succeeds, and
`fwrite` takes all it is given, so that the loop of `AppendFile::Append` is passed at most once.
-/
namespace Rnet.Log

open Check
open File (Byte)

/-- `rnet::file::AppendFile`. -/
structure AppendFile where
  filename : String
  /-- What stdio has passed on. -/
  disk : List Byte
  /-- What stdio still holds. -/
  buffered : List Byte
  writtenBytes : Nat
  deriving DecidableEq, Repr

namespace AppendFile

def new (filename : String) : AppendFile := ⟨filename, [], [], 0⟩

def append (f : AppendFile) (logline : Line) : AppendFile :=
  { f with buffered := f.buffered ++ logline, writtenBytes := f.writtenBytes + logline.length }

def flush (f : AppendFile) : AppendFile := { f with disk := f.disk ++ f.buffered, buffered := [] }

/-- The destructor: `fclose` passes on what is left. -/
def close (f : AppendFile) : AppendFile := f.flush

/-- All that was written to the file. -/
def content (f : AppendFile) : List Byte := f.disk ++ f.buffered

@[simp] theorem content_append (f : AppendFile) (logline : Line) :
    (f.append logline).content = f.content ++ logline := by
  simp [append, content]

@[simp] theorem content_flush (f : AppendFile) : f.flush.content = f.content := by
  simp [flush, content]

/-- The file is what a stream has accepted. -/
def Models (f : AppendFile) (g : File.AppendFile) : Prop :=
  f.content = g.fp.accepted ∧ f.writtenBytes = g.writtenBytes

/-- This is `rnet::file::AppendFile` over a stream that accepts all it is given. -/
theorem append_models {io : File.Stdio} (all : ∀ i n, io.accepts i n = n) {f : AppendFile} {g : File.AppendFile}
    (models : f.Models g) (logline : Line) : (f.append logline).Models (g.append io logline) := by
  obtain ⟨fp, loop, accepted⟩ := File.AppendFile.appendLoop_all all g.fp logline
  rw [Models, File.AppendFile.append, loop]
  constructor
  · rw [content_append, accepted, models.1]
  · exact congrArg (· + logline.length) models.2

theorem flush_models {f : AppendFile} {g : File.AppendFile} (models : f.Models g) (sets : Int) :
    f.flush.Models (g.flush sets) := by
  rw [Models, content_flush, File.AppendFile.flush, File.Stream.setError_accepted]
  exact models

end AppendFile

inductive LogFileFault where
  /-- The `assert` of the constructor: the base name has a slash. -/
  | basename
  /-- `file_` is null. -/
  | noFile
  deriving DecidableEq, Repr

/-- What does not change. `timeText` is what `gmtime_r` and `strftime` make of a time. -/
structure LogFileConfig where
  basename : String
  rollSize : Int
  flushInterval : Int
  checkEveryN : Int
  hostname : String
  pid : Int
  timeText : Int → String

def kRollPerSeconds : Int := 60 * 60 * 24

structure LogFile where
  count : Int
  startOfPeriod : Int
  lastRoll : Int
  lastFlush : Int
  file : Option AppendFile
  /-- How often `time(2)` was called. -/
  readings : Nat
  /-- History: the files that were closed, in their order. -/
  closed : List AppendFile
  deriving DecidableEq, Repr

namespace LogFile

variable (cfg : LogFileConfig) (clock : Nat → Int)

/-- The files in the order they were opened. -/
def files (l : LogFile) : List AppendFile := l.closed ++ l.file.toList

/-- The day of a time, by its first second. -/
def period (now : Int) : Int := now.tdiv kRollPerSeconds * kRollPerSeconds

def getLogFileName (now : Int) : String :=
  cfg.basename ++ cfg.timeText now ++ cfg.hostname ++ "." ++ toString cfg.pid ++ ".log"

/-- `file_.reset(..)`: the file before is closed. -/
def reset (l : LogFile) (f : AppendFile) : LogFile :=
  { l with file := some f, closed := l.closed ++ (l.file.map AppendFile.close).toList }

def rollFile (l : LogFile) : LogFile :=
  let now := clock l.readings
  let l := { l with readings := l.readings + 1 }
  -- a second roll within one second would open a file of the same name
  if l.lastRoll < now then
    { l with lastRoll := now, lastFlush := now, startOfPeriod := period now }.reset
      (.new (getLogFileName cfg now))
  else
    l

def new : Comp LogFileFault LogFile := do
  -- `basename.find('/')` finds nothing
  ensure .basename ('/' ∉ cfg.basename.toList)
  return rollFile cfg clock
    { count := 0, startOfPeriod := 0, lastRoll := 0, lastFlush := 0, file := none, readings := 0, closed := [] }

/-- The part of `AppendUnlocked` after the line is written. -/
def checkRoll (l : LogFile) (f : AppendFile) : LogFile :=
  if cfg.rollSize < f.writtenBytes then
    -- the count of lines goes on in the next file
    rollFile cfg clock l
  else
    let l := { l with count := l.count + 1 }
    if cfg.checkEveryN ≤ l.count then
      let now := clock l.readings
      let l := { l with count := 0, readings := l.readings + 1 }
      if period now ≠ l.startOfPeriod then
        rollFile cfg clock l
      else if cfg.flushInterval < now - l.lastFlush then
        { l with lastFlush := now, file := some f.flush }
      else
        l
    else
      l

def append (l : LogFile) (logline : Line) : Comp LogFileFault LogFile := do
  let f ← demand .noFile l.file
  let f := f.append logline
  return checkRoll cfg clock { l with file := some f } f

def flush (l : LogFile) : Comp LogFileFault LogFile := do
  let f ← demand .noFile l.file
  return { l with file := some f.flush }

inductive Action where
  | append (logline : Line)
  | rollFile
  | flush
  deriving DecidableEq, Repr

def step (l : LogFile) : Action → Comp LogFileFault LogFile
  | .append logline => l.append cfg clock logline
  | .rollFile => return l.rollFile cfg clock
  | .flush => l.flush

/-- Construct a log file and make the calls. -/
def session (acts : List Action) : Comp LogFileFault LogFile := do
  let l ← new cfg clock
  Run.exec (step cfg clock) l acts

/-- The lines appended, in order. -/
def lines (acts : List Action) : List Line :=
  acts.filterMap fun
    | .append logline => some logline
    | _ => none

/-! ### Where the lines are -/

/-- The lines of each closed file, the lines of the present one, and the times of the openings. -/
structure Account where
  file : AppendFile
  done : List (List Line)
  last : List Line
  times : List Int

/-- Every line is in one file, and the files were opened at later and later times. -/
structure Account.Fits (a : Account) (l : LogFile) (lines : List Line) : Prop where
  file : l.file = some a.file
  closed : l.closed.map AppendFile.content = a.done.map List.flatten
  current : a.file.content = a.last.flatten
  lines : a.done.flatten ++ a.last = lines
  names : l.files.map AppendFile.filename = a.times.map (getLogFileName cfg)
  ordered : a.times.Pairwise (· < ·)
  past : ∀ t ∈ a.times, 0 < t ∧ t ≤ l.lastRoll
  flushed : ∀ f ∈ l.closed, f.buffered = []

def Rolled (l : LogFile) (lines : List Line) : Prop := ∃ a : Account, a.Fits cfg l lines

variable {cfg clock} {l : LogFile} {a : Account} {lines : List Line}

/-- The file changes to one of the same name. -/
theorem Account.Fits.change (fits : a.Fits cfg l lines) (f : AppendFile) (added : List Line)
    (name : f.filename = a.file.filename) (content : f.content = a.file.content ++ added.flatten) :
    { a with file := f, last := a.last ++ added }.Fits cfg { l with file := some f } (lines ++ added) := by
  refine { fits with file := rfl, current := ?_, lines := ?_, names := ?_ }
  · rw [content, fits.current, List.flatten_append]
  · rw [← fits.lines, List.append_assoc]
  · have names := fits.names
    simp only [files, fits.file, Option.toList_some, List.map_append, List.map_cons, List.map_nil] at names ⊢
    rw [name]
    exact names

/-- The file is closed and another one opened, later than all before it. -/
theorem Account.Fits.reopen (fits : a.Fits cfg l lines) (now : Int) (later : l.lastRoll < now) (start : 0 < now) :
    Rolled cfg ({ l with lastRoll := now, lastFlush := now, startOfPeriod := period now }.reset
      (.new (getLogFileName cfg now))) lines := by
  refine ⟨⟨.new (getLogFileName cfg now), a.done ++ [a.last], [], a.times ++ [now]⟩, ?_⟩
  constructor
  · rfl
  · simp [reset, fits.file, fits.closed, AppendFile.close, fits.current]
  · rfl
  · simp [← fits.lines]
  · have names := fits.names
    simp only [files, fits.file, Option.toList_some, List.map_append, List.map_cons, List.map_nil] at names
    simp [files, reset, fits.file, ← names, AppendFile.close, AppendFile.flush, AppendFile.new]
  · refine List.pairwise_append.mpr ⟨fits.ordered, List.pairwise_singleton _ _, fun t member u last => ?_⟩
    have before := (fits.past t member).2
    have last := List.mem_singleton.mp last
    omega
  · intro t member
    rcases List.mem_append.mp member with before | last
    · exact ⟨(fits.past t before).1, Int.le_of_lt (Int.lt_of_le_of_lt (fits.past t before).2 later)⟩
    · rw [List.mem_singleton.mp last]
      exact ⟨start, Int.le_refl _⟩
  · intro f member
    simp only [reset, fits.file, Option.map_some, Option.toList_some, List.mem_append, List.mem_singleton] at member
    rcases member with before | rfl
    · exact fits.flushed f before
    · rfl

theorem Rolled.rollFile (rolled : Rolled cfg l lines) (positive : ∀ i, 0 < clock i) :
    Rolled cfg (l.rollFile cfg clock) lines := by
  obtain ⟨a, fits⟩ := rolled
  have counted : a.Fits cfg { l with readings := l.readings + 1 } lines := { fits with }
  simp only [LogFile.rollFile]
  split
  next later => exact counted.reopen (clock l.readings) later (positive _)
  next => exact ⟨a, counted⟩

/-- What `AppendUnlocked` does after the write moves no line. -/
theorem Rolled.checkRoll (fits : a.Fits cfg l lines) (positive : ∀ i, 0 < clock i) :
    Rolled cfg (l.checkRoll cfg clock a.file) lines := by
  have counted (count : Int) (readings : Nat) :
      a.Fits cfg { l with count := count, readings := readings } lines := { fits with }
  simp only [LogFile.checkRoll]
  split
  · exact Rolled.rollFile ⟨a, fits⟩ positive
  · split
    · split
      · exact Rolled.rollFile ⟨a, counted 0 (l.readings + 1)⟩ positive
      · split
        · have flushed := (counted 0 (l.readings + 1)).change a.file.flush [] rfl (by simp)
          simp only [List.append_nil] at flushed
          exact ⟨_, { flushed with }⟩
        · exact ⟨a, counted 0 (l.readings + 1)⟩
    · exact ⟨a, counted (l.count + 1) l.readings⟩

theorem step_rolled (positive : ∀ i, 0 < clock i) (rolled : Rolled cfg l lines) (act : Action) :
    Returns (fun after => Rolled cfg after (lines ++ LogFile.lines [act])) (l.step cfg clock act) := by
  obtain ⟨a, fits⟩ := rolled
  cases act with
  | append logline =>
    simp only [step, append, fits.file, demand, returns_bind, returns_ok, returns_pure]
    have written := fits.change (a.file.append logline) [logline] rfl (by simp)
    exact Rolled.checkRoll written positive
  | rollFile =>
    have same : lines ++ LogFile.lines [.rollFile] = lines := List.append_nil lines
    rw [same]
    exact Rolled.rollFile ⟨a, fits⟩ positive
  | flush =>
    simp only [step, flush, fits.file, demand, returns_bind, returns_ok, returns_pure]
    exact ⟨_, fits.change a.file.flush [] rfl (by simp)⟩

theorem lines_append (first second : List Action) :
    LogFile.lines (first ++ second) = LogFile.lines first ++ LogFile.lines second :=
  List.filterMap_append

theorem run_rolled (positive : ∀ i, 0 < clock i) (acts : List Action) (rolled : Rolled cfg l lines) :
    Returns (fun after => Rolled cfg after (lines ++ LogFile.lines acts)) (Run.exec (step cfg clock) l acts) := by
  induction acts generalizing l lines with
  | nil =>
    have same : lines ++ LogFile.lines [] = lines := List.append_nil lines
    rw [same]
    exact rolled
  | cons act acts ih =>
    refine (step_rolled positive rolled act).bind fun after kept => ?_
    have rest := ih kept
    rw [List.append_assoc, ← lines_append] at rest
    exact rest

/-- The constructor opens the first file. -/
theorem new_rolled (positive : ∀ i, 0 < clock i) (plain : '/' ∉ cfg.basename.toList) :
    Returns (fun l => Rolled cfg l []) (new cfg clock) := by
  simp only [new, returns_bind, returns_ensure, returns_pure]
  refine ⟨plain, ?_⟩
  simp only [rollFile, positive 0, if_true]
  refine ⟨⟨.new (getLogFileName cfg (clock 0)), [], [], [clock 0]⟩, ?_⟩
  constructor
  · rfl
  · rfl
  · rfl
  · rfl
  · rfl
  · exact List.pairwise_singleton _ _
  · intro t member
    rw [List.mem_singleton.mp member]
    exact ⟨positive 0, Int.le_refl _⟩
  · rintro _ ⟨⟩

/-- Files opened at different times have different names. -/
theorem Account.Fits.nodup (fits : a.Fits cfg l lines)
    (distinct : ∀ t u, 0 < t → 0 < u → cfg.timeText t = cfg.timeText u → t = u) :
    (l.files.map AppendFile.filename).Nodup := by
  rw [fits.names]
  apply List.Nodup.map_on
  · intro t first u second same
    apply distinct t u (fits.past t first).1 (fits.past u second).1
    simpa [getLogFileName] using same
  · exact fits.ordered.imp fun less => Int.ne_of_lt less

/-- For all positive readings of the clock and all calls: the contents of the files, in the order
they were opened, are the lines appended; each line is wholly in one file, all of which are on
disk but for the present one; and no two files have the same name. -/
theorem lines_rolled (cfg : LogFileConfig) (clock : Nat → Int) (acts : List Action)
    (plain : '/' ∉ cfg.basename.toList) (positive : ∀ i, 0 < clock i)
    (distinct : ∀ t u, 0 < t → 0 < u → cfg.timeText t = cfg.timeText u → t = u) :
    Returns (fun l =>
      l.files.flatMap AppendFile.content = (LogFile.lines acts).flatten ∧
      (∃ parts : List (List Line), parts.flatten = LogFile.lines acts ∧
        l.files.map AppendFile.content = parts.map List.flatten) ∧
      (∀ f ∈ l.closed, f.disk = f.content) ∧
      (l.files.map AppendFile.filename).Nodup) (session cfg clock acts) := by
  refine (new_rolled positive plain).bind fun l first => (run_rolled positive acts first).mono ?_
  rintro after ⟨a, fits⟩
  rw [List.nil_append] at fits
  have contents : after.files.map AppendFile.content = (a.done ++ [a.last]).map List.flatten := by
    simp [files, fits.file, fits.closed, fits.current]
  have whole : (a.done ++ [a.last]).flatten = LogFile.lines acts := by simp [fits.lines]
  refine ⟨?_, ⟨a.done ++ [a.last], whole, contents⟩, fun f member => ?_, fits.nodup distinct⟩
  · rw [List.flatMap_def, contents, ← whole, List.flatten_flatten]
  · simp [AppendFile.content, fits.flushed f member]

/-- The text of a time has a stroke for every second. -/
def strokesConfig : LogFileConfig :=
  ⟨"server", 3, 3, 1, "host", 42, fun t => String.ofList (List.replicate t.toNat '|')⟩

/-- A clock that stands still, goes back, and passes into the next day. -/
def backwardClock : Nat → Int
  | 0 => 100
  | 1 | 2 => 100
  | 3 => 50
  | _ => 86500

theorem lines_rolled_backwardClock :
    ∃ l, session strokesConfig backwardClock
        [.append [1], .rollFile, .append [2, 3], .append [4], .append [5, 6, 7], .append [8]] = .ok l ∧
      l.files.map AppendFile.content = [[1, 2, 3, 4], [5, 6, 7, 8]] ∧
      (l.files.map AppendFile.filename).Nodup := by
  have positive : ∀ i, 0 < backwardClock i := by
    intro i
    unfold backwardClock
    split <;> decide
  have distinct : ∀ t u, 0 < t → 0 < u → strokesConfig.timeText t = strokesConfig.timeText u → t = u := by
    intro t u first second same
    have strokes : t.toNat = u.toNat := by
      simpa [strokesConfig] using congrArg (fun text => text.toList.length) same
    omega
  obtain ⟨l, returned, _, _, _, nodup⟩ := (lines_rolled strokesConfig backwardClock
    [.append [1], .rollFile, .append [2, 3], .append [4], .append [5, 6, 7], .append [8]]
    (by decide) positive distinct).exists
  have last : (session strokesConfig backwardClock
      [.append [1], .rollFile, .append [2, 3], .append [4], .append [5, 6, 7], .append [8]]).toOption.map
        (fun l => l.files.map AppendFile.content) = some [[1, 2, 3, 4], [5, 6, 7, 8]] := by
    decide +kernel
  rw [returned] at last
  exact ⟨l, returned, Option.some.inj last, nodup⟩

end LogFile

end Rnet.Log
