import Rnet.Log.AsyncLoggingStream
import Rnet.Log.LogFile

/-!
# From the buffers to the files

`AsyncLogging::ThreadFunction` with the `LogFile` it constructs: what the back end takes out of the
buffers it appends to the file, which rolls and flushes by rules of its own, and at the end of
each iteration it flushes.

The two components were looked at apart: `AsyncLogging` up to its calls of `LogFile::Append`, and
`LogFile` from the lines it is given. Here the calls of the one are the lines of the other, and
the lines of the front ends are followed to the disk.
-/
namespace Rnet.Log

open Check
open File (Byte)

/-- The bytes of a string. -/
def textBytes (text : String) : List Byte := text.toList.flatMap String.utf8EncodeChar

def Chunk.bytes : Chunk → List Byte
  | .notice text => textBytes text
  | .buffer data => data

inductive PipelineFault where
  | logging (f : LogFault)
  | file (f : LogFileFault)
  deriving DecidableEq, Repr

structure LogPipeline where
  log : AsyncLogging
  /-- The `output` of `ThreadFunction`. -/
  output : Option LogFile

namespace AsyncLogging

/-- What the next part of `ThreadFunction` calls on `output`. -/
def calls (s : AsyncLogging) (time : String) : List LogFile.Action :=
  match s.backEnd with
  | .overload =>
    if 25 < s.buffersToWrite.length then [.append (textBytes (noticeText time (s.buffersToWrite.length - 2)))]
    else []
  | .write => s.buffersToWrite[s.passed]?.toList.map fun buffer => .append buffer.raw.data
  | .flush | .lastFlush => [.flush]
  | .notStarted | .entry | .test | .swap | .recycle | .done => []

end AsyncLogging

namespace LogPipeline

variable (cfg : LogFileConfig) (clock : Nat → Int)

def start : LogPipeline := ⟨.start, none⟩

/-- The files in the order they were opened. -/
def files (s : LogPipeline) : List AppendFile := s.output.toList.flatMap LogFile.files

/-- `output` is constructed at the entry of `ThreadFunction`. -/
def callOutput (s : LogPipeline) (time : String) : Comp LogFileFault LogFile :=
  if s.log.backEnd = .entry then LogFile.new cfg clock
  else do
    let output ← demand .noFile s.output
    Run.exec (LogFile.step cfg clock) output (s.log.calls time)

def step (s : LogPipeline) (act : AsyncLogging.Action) : Comp PipelineFault LogPipeline := do
  let log ← lift .logging (s.log.step act)
  match act with
  | .backEnd time => return ⟨log, some (← lift .file (s.callOutput cfg clock time))⟩
  | .append _ | .start | .started | .stop | .joined => return { s with log := log }

end LogPipeline

/-! ### What a part writes -/

/-- The back end has flushed all it has written. -/
def BackEnd.flushed : BackEnd → Bool
  | .test | .swap | .lastFlush | .done => true
  | .notStarted | .entry | .overload | .write | .recycle | .flush => false

/-- The back end is in its function. -/
def BackEnd.entered : BackEnd → Bool
  | .notStarted | .entry => false
  | .test | .swap | .overload | .write | .recycle | .flush | .lastFlush | .done => true

namespace AsyncLogging

variable {s t : AsyncLogging}

/-- What a part of the back end does, as far as the file is concerned. -/
structure Wrote (s : AsyncLogging) (time : String) (t : AsyncLogging) : Prop where
  /-- What it adds to the output is what it calls `Append` with. -/
  output : t.output.map Chunk.bytes = s.output.map Chunk.bytes ++ LogFile.lines (s.calls time)
  appended : t.appended = s.appended
  entered : t.backEnd.entered = true
  /-- If it leaves all flushed, it has flushed or has written nothing. -/
  flushed : t.backEnd.flushed = true →
    s.backEnd = .entry ∨ s.calls time = [.flush] ∨ s.backEnd.flushed = true ∧ s.calls time = []

/-- A part that calls nothing. -/
theorem Wrote.nothing {time : String} (calls : s.calls time = []) (output : t.output = s.output)
    (appended : t.appended = s.appended) (entered : t.backEnd.entered = true)
    (flushed : t.backEnd.flushed = true → s.backEnd = .entry ∨ s.backEnd.flushed = true) : s.Wrote time t where
  output := by
    rw [calls, output]
    exact (List.append_nil _).symm
  appended := appended
  entered := entered
  flushed after := (flushed after).imp_right fun before => Or.inr ⟨before, calls⟩

theorem threadStep_wrote {time : String} (taken : s.threadStep time = .ok t) : s.Wrote time t := by
  rw [threadStep] at taken
  cases part : s.backEnd with
  | notStarted | done =>
    rw [part] at taken
    cases taken
  | entry =>
    rw [part] at taken
    simp only [enterThread, bind_eq_ok] at taken
    obtain ⟨_, _, result⟩ := taken
    rw [← Except.ok.inj result]
    exact .nothing (by simp [calls, part]) rfl rfl rfl fun _ => Or.inl part
  | test =>
    rw [part] at taken
    have still : s.backEnd.flushed = true := by rw [part]; rfl
    simp only [loopTest] at taken
    split at taken
    · simp only [bind_eq_ok] at taken
      obtain ⟨_, _, _, _, _, _, _, _, _, _, result⟩ := taken
      rw [← Except.ok.inj result]
      exact .nothing (by simp [calls, part]) rfl rfl rfl fun _ => Or.inr still
    · rw [← Except.ok.inj taken]
      exact .nothing (by simp [calls, part]) rfl rfl rfl fun _ => Or.inr still
  | swap =>
    rw [part] at taken
    simp only [swapBuffers, bind_eq_ok] at taken
    obtain ⟨_, _, _, _, result⟩ := taken
    rw [← Except.ok.inj result]
    -- whichever way `nextBuffer_` was filled
    split <;> exact .nothing (by simp [calls, part]) rfl rfl rfl fun flushed => absurd flushed Bool.false_ne_true
  | overload =>
    rw [part] at taken
    rw [← Except.ok.inj taken, overload]
    split
    next many =>
      refine ⟨?_, rfl, rfl, fun flushed => absurd flushed Bool.false_ne_true⟩
      simp [calls, part, many, LogFile.lines, Chunk.bytes]
    next few =>
      exact .nothing (by simp [calls, part, few]) rfl rfl rfl fun flushed => absurd flushed Bool.false_ne_true
  | write =>
    rw [part] at taken
    rw [← Except.ok.inj taken, write]
    cases next : s.buffersToWrite[s.passed]? with
    | some buffer =>
      refine ⟨?_, rfl, by rw [part]; rfl, fun flushed => ?_⟩
      · simp [calls, part, next, LogFile.lines, Chunk.bytes]
      · rw [part] at flushed
        cases flushed
    | none =>
      exact .nothing (by simp [calls, part, next]) rfl rfl rfl fun flushed => absurd flushed Bool.false_ne_true
  | recycle =>
    rw [part] at taken
    simp only [recycle, bind_eq_ok] at taken
    obtain ⟨_, _, _, _, result⟩ := taken
    rw [← Except.ok.inj result]
    exact .nothing (by simp [calls, part]) rfl rfl rfl fun flushed => absurd flushed Bool.false_ne_true
  | flush | lastFlush =>
    rw [part] at taken
    rw [← Except.ok.inj taken]
    refine ⟨?_, rfl, rfl, fun _ => Or.inr (Or.inl (by simp [calls, part]))⟩
    simp [calls, part, LogFile.lines]

/-- The front ends and the owner leave the back end where it is, but for its start. -/
theorem step_output {act : Action} (other : ∀ time, act ≠ .backEnd time) (inv : s.Inv) (taken : s.step act = .ok t) :
    t.output = s.output ∧ (t.backEnd = s.backEnd ∨ s.backEnd.entered = false ∧ t.backEnd = .entry) := by
  cases act with
  | append line =>
    simp only [step, append, bind_eq_ok] at taken
    obtain ⟨_, _, result⟩ := taken
    split at result <;> rw [← Except.ok.inj result] <;> exact ⟨rfl, Or.inl rfl⟩
  | start =>
    simp only [step, bind_eq_ok] at taken
    obtain ⟨_, idle, result⟩ := taken
    rw [← Except.ok.inj result]
    refine ⟨rfl, Or.inr ⟨?_, rfl⟩⟩
    have owner : s.owner = .idle := by
      unfold require at idle
      split at idle
      · assumption
      · cases idle
    rw [inv.owners.idle owner]
    rfl
  | started | stop | joined =>
    simp only [step, bind_eq_ok] at taken
    obtain ⟨_, _, result⟩ := taken
    rw [← Except.ok.inj result]
    exact ⟨rfl, Or.inl rfl⟩
  | backEnd time => exact absurd rfl (other time)

end AsyncLogging

/-! ### The files follow the output -/

namespace LogFile

variable {cfg : LogFileConfig} {clock : Nat → Int} {l : LogFile} {lines : List Line}

/-- Nothing is left in the buffer of a file. -/
def Flushed (l : LogFile) : Prop := ∀ f ∈ l.files, f.buffered = []

theorem new_flushed : Yields Flushed (new cfg clock) := by
  simp only [new, rollFile, yields_bind, yields_ensure, yields_pure]
  intro _
  split
  · intro f member
    obtain rfl : f = .new (getLogFileName cfg (clock 0)) := by simpa [files, reset] using member
    rfl
  · intro f member
    simp [files] at member

theorem flush_flushed (rolled : Rolled cfg l lines) : Yields Flushed l.flush := by
  obtain ⟨a, fits⟩ := rolled
  simp only [flush, fits.file, demand, yields_bind, yields_ok, yields_pure]
  intro f member
  simp only [files, Option.toList_some, List.mem_append, List.mem_singleton] at member
  rcases member with closed | rfl
  · exact fits.flushed f closed
  · rfl

end LogFile

namespace LogPipeline

variable {cfg : LogFileConfig} {clock : Nat → Int} {s : LogPipeline}

/-- The file holds what `AsyncLogging` has written. -/
structure Linked (cfg : LogFileConfig) (s : LogPipeline) : Prop where
  inv : s.log.Inv
  before : s.log.backEnd.entered = false → s.output = none ∧ s.log.output = []
  after : s.log.backEnd.entered = true → ∃ l, s.output = some l ∧ l.Rolled cfg (s.log.output.map Chunk.bytes) ∧
    (s.log.backEnd.flushed = true → l.Flushed)

theorem start_linked : Linked cfg start :=
  ⟨AsyncLogging.inv_start, fun _ => ⟨rfl, rfl⟩, fun entered => absurd entered Bool.false_ne_true⟩

theorem Linked.quiet (linked : Linked cfg s) {act : AsyncLogging.Action} (other : ∀ time, act ≠ .backEnd time)
    {t : AsyncLogging} (taken : s.log.step act = .ok t) (inv : t.Inv) : Linked cfg { s with log := t } := by
  obtain ⟨output, same | ⟨out, entry⟩⟩ := AsyncLogging.step_output other linked.inv taken
  · refine ⟨inv, ?_, ?_⟩
    · simp only [same, output]
      exact linked.before
    · simp only [same, output]
      exact linked.after
  · -- `Start`: the thread exists, and has not opened its file
    refine ⟨inv, fun _ => ?_, fun entered => ?_⟩
    · simp only [output]
      exact linked.before out
    · simp only [entry] at entered
      cases entered

/-- A part of the back end, and its calls. -/
theorem Linked.callOutput (linked : Linked cfg s) (plain : '/' ∉ cfg.basename.toList) (positive : ∀ i, 0 < clock i)
    {time : String} {t : AsyncLogging} (taken : s.log.threadStep time = .ok t) :
    Returns (fun l => l.Rolled cfg (t.output.map Chunk.bytes) ∧ (t.backEnd.flushed = true → l.Flushed))
      (s.callOutput cfg clock time) := by
  have wrote := AsyncLogging.threadStep_wrote taken
  unfold LogPipeline.callOutput
  split
  next entry =>
    -- the file is opened, and nothing has been written
    have empty := (linked.before (by rw [entry]; rfl)).2
    have quiet : s.log.calls time = [] := by simp [AsyncLogging.calls, entry]
    obtain ⟨l, made, rolled⟩ := (LogFile.new_rolled positive plain).exists
    rw [wrote.output, empty, quiet, made]
    exact ⟨rolled, fun _ => LogFile.new_flushed l made⟩
  next running =>
    have entered : s.log.backEnd.entered = true := by
      cases part : s.log.backEnd with
      | notStarted =>
        rw [AsyncLogging.threadStep, part] at taken
        cases taken
      | entry => exact absurd part running
      | _ => rfl
    obtain ⟨l, output, rolled, flushed⟩ := linked.after entered
    obtain ⟨l', ran, rolled'⟩ := (LogFile.run_rolled positive (s.log.calls time) rolled).exists
    rw [output]
    simp only [demand, returns_bind, returns_ok, ran]
    rw [wrote.output]
    refine ⟨rolled', fun ended => ?_⟩
    -- the files are flushed because this part flushed them, or were before and it wrote nothing
    rcases wrote.flushed ended with entry | flush | ⟨before, quiet⟩
    · exact absurd entry running
    · rw [flush, Run.exec_single] at ran
      exact LogFile.flush_flushed rolled l' ran
    · rw [quiet] at ran
      obtain rfl : l = l' := Except.ok.inj ran
      exact flushed before

theorem Linked.step (linked : Linked cfg s) (plain : '/' ∉ cfg.basename.toList) (positive : ∀ i, 0 < clock i)
    (act : AsyncLogging.Action) : Safe (Linked cfg) (s.step cfg clock act) := by
  have safe := AsyncLogging.step_inv act linked.inv
  rw [LogPipeline.step, safe_bind, safe_lift]
  refine safe.of_result fun t taken => ?_
  have inv : t.Inv := safe.result taken
  cases act with
  | append line => exact linked.quiet (by simp) taken inv
  | start => exact linked.quiet (by simp) taken inv
  | started => exact linked.quiet (by simp) taken inv
  | stop => exact linked.quiet (by simp) taken inv
  | joined => exact linked.quiet (by simp) taken inv
  | backEnd time =>
    dsimp only
    rw [safe_bind, safe_lift]
    refine (linked.callOutput plain positive taken).safe.mono fun l facts => ?_
    have entered := (AsyncLogging.threadStep_wrote taken).entered
    refine ⟨inv, fun out => ?_, fun _ => ⟨l, rfl, facts⟩⟩
    simp only [entered] at out
    cases out

end LogPipeline

/-! ### Lines and notices -/

namespace Iteration

/-- The lines an iteration has written, its notice in front of them. -/
def records (it : Iteration) : List Line := it.notice.toList.map textBytes ++ linesOf it.written

/-- The records, chunk by chunk. -/
def pieces (it : Iteration) : List (List Line) :=
  it.notice.toList.map (fun text => [textBytes text]) ++ it.written.map LogBuffer.lines

theorem pieces_flatten (it : Iteration) : it.pieces.flatten = it.records := by
  have notices : (it.notice.toList.map fun text => [textBytes text]).flatten = it.notice.toList.map textBytes := by
    cases it.notice <;> rfl
  rw [pieces, records, List.flatten_append, notices, linesOf, List.flatMap_def]

/-- A buffer is its lines. -/
theorem chunks_bytes (it : Iteration) : it.chunks.map Chunk.bytes = it.pieces.map List.flatten := by
  have buffers : (it.written.map fun b => Chunk.buffer b.raw.data).map Chunk.bytes =
      (it.written.map LogBuffer.lines).map List.flatten := by
    rw [List.map_map, List.map_map]
    exact List.map_congr_left fun b _ => b.whole
  rw [chunks, pieces, List.map_append, List.map_append, buffers]
  cases it.notice <;> simp [Chunk.bytes]

end Iteration

/-- A list that is divided into parts is divided where its image is. -/
theorem exists_parts {α β : Type} (f : α → β) (parts : List (List β)) (l : List α) (same : parts.flatten = l.map f) :
    ∃ parts' : List (List α), parts'.flatten = l ∧ parts'.map (List.map f) = parts := by
  induction parts generalizing l with
  | nil =>
    obtain rfl : l = [] := by simpa using same.symm
    exact ⟨[], rfl, rfl⟩
  | cons part rest ih =>
    -- the first part is the image of a front of `l`
    rw [List.flatten_cons, eq_comm, List.map_eq_append_iff] at same
    obtain ⟨first, second, rfl, rfl, others⟩ := same
    obtain ⟨parts', whole, images⟩ := ih second others.symm
    exact ⟨first :: parts', by rw [List.flatten_cons, whole], by rw [List.map_cons, images]⟩

namespace AsyncLogging

variable {s : AsyncLogging}

/-- All that was written, line by line. -/
def records (s : AsyncLogging) : List Line := s.iterations.flatMap Iteration.records

/-- The lines that are still in a buffer. -/
def waiting (s : AsyncLogging) : List Line := linesOf (s.unwritten ++ s.buffers ++ s.currentBuffer.toList)

/-- No iteration has swapped out more buffers than it may write. -/
def NeverOverloaded (s : AsyncLogging) : Prop := ∀ it ∈ s.iterations, it.swapped.length ≤ 25

theorem Inv.output_pieces (inv : s.Inv) :
    s.output.map Chunk.bytes = (s.iterations.flatMap Iteration.pieces).map List.flatten := by
  rw [inv.output, List.map_flatMap, List.map_flatMap]
  exact List.flatMap_congr fun it _ => it.chunks_bytes

theorem pieces_records (s : AsyncLogging) : (s.iterations.flatMap Iteration.pieces).flatten = s.records := by
  rw [records, List.flatMap_def, List.flatMap_def, List.flatten_flatten, List.map_map]
  exact congrArg List.flatten (List.map_congr_left fun it _ => it.pieces_flatten)

theorem Checked.records {it : Iteration} (checked : it.Checked) (few : it.swapped.length ≤ 25) :
    it.dropped = [] ∧ it.records = linesOf it.written := by
  have dropped := checked.dropped
  have notice := checked.notice
  rw [if_neg (by omega)] at dropped notice
  refine ⟨dropped, ?_⟩
  rw [Iteration.records, notice]
  rfl

/-- Where nothing is dropped, the lines are those written and those that wait. -/
theorem Inv.nothing_lost (inv : s.Inv) (never : s.NeverOverloaded) : s.fitting = s.records ++ s.waiting := by
  have finished (it : Iteration) (member : it ∈ s.finished) : it.records = linesOf it.swapped := by
    have settled := inv.finished it member
    obtain ⟨dropped, records⟩ := Checked.records settled.toChecked (never it (List.mem_append_left _ member))
    rw [records, settled.swapped, dropped, List.append_nil]
  have running (it : Iteration) (present : s.iteration = some it) :
      it.dropped = [] ∧ it.records = linesOf it.written := by
    have member : it ∈ s.iterations := List.mem_append_right _ (by rw [present]; exact List.mem_singleton.mpr rfl)
    -- past the test of the length, or before it with nothing written
    rcases (inv.running it present).2 with checked | ⟨written, dropped, notice⟩
    · exact Checked.records checked (never it member)
    · refine ⟨dropped, ?_⟩
      rw [Iteration.records, notice, written]
      rfl
  have whole := inv.whole
  have done : s.finished.flatMap Iteration.records = linesOf (s.finished.flatMap Iteration.swapped) := by
    rw [linesOf, List.flatMap_assoc]
    exact List.flatMap_congr finished
  cases present : s.iteration with
  | none =>
    rw [retired, droppedNow, present] at whole
    rw [records, iterations, present, waiting, whole]
    simp [done, linesOf_append]
  | some it =>
    obtain ⟨dropped, last⟩ := running it present
    rw [retired, droppedNow, present] at whole
    rw [records, iterations, present, waiting, whole]
    simp [done, last, dropped, linesOf_append]

end AsyncLogging

namespace LogPipeline

variable {cfg : LogFileConfig} {s : LogPipeline}

/-- The contents of the files. -/
theorem Linked.contents (linked : Linked cfg s) :
    ∃ parts : List (List Line), parts.flatten = s.log.records ∧
      s.files.map AppendFile.content = parts.map List.flatten := by
  cases entered : s.log.backEnd.entered with
  | false =>
    obtain ⟨unopened, empty⟩ := linked.before entered
    have pieces := linked.inv.output_pieces
    rw [empty] at pieces
    refine ⟨[], ?_, by simp [files, unopened]⟩
    rw [← AsyncLogging.pieces_records, List.map_eq_nil_iff.mp pieces.symm]
  | true =>
    obtain ⟨l, output, ⟨a, fits⟩, _⟩ := linked.after entered
    -- the files divide the chunks, and the chunks divide into lines
    have contents : l.files.map AppendFile.content = (a.done ++ [a.last]).map List.flatten := by
      simp [LogFile.files, fits.file, fits.closed, fits.current]
    have chunks : (a.done ++ [a.last]).flatten = (s.log.iterations.flatMap Iteration.pieces).map List.flatten := by
      rw [← linked.inv.output_pieces, ← fits.lines]
      simp
    obtain ⟨parts, whole, images⟩ := exists_parts List.flatten _ _ chunks
    refine ⟨parts.map List.flatten, ?_, ?_⟩
    · rw [← AsyncLogging.pieces_records, ← whole, List.flatten_flatten]
    · rw [files, output]
      simp only [Option.toList_some, List.flatMap_cons, List.flatMap_nil, List.append_nil]
      rw [contents, ← images, List.map_map, List.map_map]
      exact List.map_congr_left fun part _ => List.flatten_flatten.symm

theorem Linked.on_disk (linked : Linked cfg s) (flushed : s.log.backEnd.flushed = true) :
    ∀ f ∈ s.files, f.disk = f.content := by
  cases entered : s.log.backEnd.entered with
  | false => cases part : s.log.backEnd <;> simp_all [BackEnd.flushed, BackEnd.entered]
  | true =>
    obtain ⟨l, output, _, all⟩ := linked.after entered
    intro f member
    have empty : f.buffered = [] := all flushed f (by simpa [files, output] using member)
    rw [AppendFile.content, empty, List.append_nil]

/-- For every run of front ends, owner and back end, and all positive readings of the clock: no
assert of `AsyncLogging` or `LogFile` fails. The contents of the files, in the order they were
opened, are the lines and notices written so far, each wholly in one file. Whenever the back end
waits for lines, and after it has returned, all of it is on disk. And as long as no iteration
was overloaded, the lines appended, up to those that are too long for a buffer, are those in the files
and those that still wait, in order. -/
theorem lines_reach_files (cfg : LogFileConfig) (clock : Nat → Int) (acts : List AsyncLogging.Action)
    (plain : '/' ∉ cfg.basename.toList) (positive : ∀ i, 0 < clock i) :
    Safe (fun s =>
      (∃ parts : List (List Line), parts.flatten = s.log.records ∧
        s.files.map AppendFile.content = parts.map List.flatten) ∧
      (s.log.backEnd.flushed = true → ∀ f ∈ s.files, f.disk = f.content) ∧
      (s.log.NeverOverloaded → s.log.fitting = s.log.records ++ s.log.waiting))
      (Run.exec (step cfg clock) start acts) := by
  refine (Run.exec_safe_all (fun s act (linked : Linked cfg s) => linked.step plain positive act) start acts
    start_linked).mono fun s linked => ?_
  exact ⟨linked.contents, linked.on_disk, linked.inv.nothing_lost⟩

/-- Four lines. The third one rolls the file, and the last one comes too late. -/
def fourLines : List AsyncLogging.Action :=
  [.append [65, 10], .start, .backEnd "", .started, .backEnd "", .append [66, 10], .backEnd "", .append [67, 10]] ++
    List.replicate 7 (.backEnd "") ++ [.stop, .append [68, 10]] ++ List.replicate 7 (.backEnd "") ++ [.joined]

theorem lines_reach_files_four :
    ∃ s, Run.exec (step LogFile.strokesConfig fun i => 100 + i) start fourLines = .ok s ∧ s.log.owner = .stopped ∧
      s.files.map AppendFile.content = [[65, 10, 66, 10], [67, 10]] ∧ ∀ f ∈ s.files, f.disk = f.content := by
  have last : (Run.exec (step LogFile.strokesConfig fun i => 100 + i) start fourLines).toOption.map (fun s =>
      (s.log.owner, s.log.backEnd.flushed, s.files.map AppendFile.content)) =
      some (.stopped, true, [[65, 10, 66, 10], [67, 10]]) := by
    decide +kernel
  obtain ⟨s, reached, ended⟩ := returned_of_map last
  simp only [Prod.mk.injEq] at ended
  obtain ⟨stopped, flushed, contents⟩ := ended
  have facts := (lines_reach_files LogFile.strokesConfig (fun i => 100 + i) fourLines (by decide)
    fun i => by omega).result reached
  exact ⟨s, reached, stopped, contents, facts.2.1 flushed⟩

end LogPipeline

end Rnet.Log
