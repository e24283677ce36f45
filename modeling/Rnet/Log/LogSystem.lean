import Rnet.Log.LogPipeline
import Rnet.Log.Logger

/-!
# From a log statement to the disk

Any number of threads execute log statements, each with a logger of its own, whose destructor
passes the record to `AsyncLogging::Append` as `globalOutput`. This is the whole way a message
goes: the stream of the logger, the buffers of the front end, the back end, the rolling files.

## Main result

`statements_recovered`: reading the files back line by line gives the texts of the statements, in
the order in which their threads got the mutex, up to those that are still in a buffer.
-/
namespace Rnet.Log

open Check
open File (Byte)

namespace Logger

/-- The text of a statement: its pieces as far as they fit into the stream, and a newline. -/
def recordOf (env : LogEnv) (tid : Nat) (st : LogStatement) : Line :=
  ((pieces env tid st ++ [Insertion.char kNewline]).foldl (insert env.format) []).flatten

end Logger

inductive LogSystemFault where
  | logger (f : LoggerFault)
  | pipeline (f : PipelineFault)
  deriving DecidableEq, Repr

structure LogSystem where
  threads : Nat → LogThread
  pipeline : LogPipeline
  /-- History: the statements executed, with their threads, in the order of their appends. -/
  logged : List (Nat × LogStatement)

namespace LogSystem

variable (env : LogEnv) (cfg : LogFileConfig) (clock : Nat → Int) (tids : Nat → Nat)

/-- No thread has logged anything yet. -/
def start : LogSystem := ⟨fun t => ⟨0, [], tids t⟩, .start, []⟩

inductive Action where
  /-- A thread executes a log statement. -/
  | statement (thread : Nat) (st : LogStatement)
  /-- A step of the owner or of the back end. -/
  | logging (act : AsyncLogging.Action)

/-- Lines are appended by log statements only. -/
def internal : AsyncLogging.Action → Bool
  | .append _ => false
  | .start | .started | .stop | .joined | .backEnd _ => true

def step (s : LogSystem) : Action → Comp LogSystemFault LogSystem
  | .statement t st => do
    let (th, out) ← lift .logger (Logger.log env (s.threads t) st)
    -- a fatal statement ends the process
    require (out.aborts = false)
    let pipeline ← lift .pipeline (s.pipeline.step cfg clock (.append out.record))
    return ⟨Function.update s.threads t th, pipeline, s.logged ++ [(t, st)]⟩
  | .logging act => do
    require (internal act = true)
    return { s with pipeline := ← lift .pipeline (s.pipeline.step cfg clock act) }

end LogSystem

/-! ### The lines of a step -/

/-- The line an action appends, if any. -/
def AsyncLogging.Action.line? : AsyncLogging.Action → Option Line
  | .append line => some line
  | .start | .started | .stop | .joined | .backEnd _ => none

theorem AsyncLogging.step_appended {s t : AsyncLogging} {act : AsyncLogging.Action} (taken : s.step act = .ok t) :
    t.appended = s.appended ++ act.line?.toList := by
  cases act with
  | append line =>
    simp only [step, append, bind_eq_ok] at taken
    obtain ⟨_, _, result⟩ := taken
    split at result <;> rw [← Except.ok.inj result] <;> rfl
  | start | started | stop | joined =>
    simp only [step, bind_eq_ok] at taken
    obtain ⟨_, _, result⟩ := taken
    rw [← Except.ok.inj result]
    exact (List.append_nil _).symm
  | backEnd time =>
    rw [(threadStep_wrote taken).appended]
    exact (List.append_nil _).symm

theorem LogPipeline.step_appended {cfg : LogFileConfig} {clock : Nat → Int} {s : LogPipeline}
    (act : AsyncLogging.Action) :
    Yields (fun t => t.log.appended = s.log.appended ++ act.line?.toList) (s.step cfg clock act) := by
  rw [LogPipeline.step, yields_bind, yields_lift]
  intro log taken
  have appended := AsyncLogging.step_appended taken
  cases act with
  | append line => exact (yields_pure ..).mpr appended
  | start | started | stop | joined => exact (yields_pure ..).mpr appended
  | backEnd time =>
    dsimp only
    rw [yields_bind, yields_lift]
    exact fun l _ => (yields_pure ..).mpr appended

/-! ### Every run -/

namespace LogSystem

variable {env : LogEnv} {cfg : LogFileConfig} {clock : Nat → Int} {tids : Nat → Nat} {s : LogSystem}

/-- The statements are executed after the first second of 1970, have no newline in their parts, and
leave room for their own. -/
def Proper (env : LogEnv) (tids : Nat → Nat) : Action → Prop
  | .statement t st => Logger.Valid env st ∧ Logger.fill env (tids t) st ≠ 4095
  | .logging _ => True

structure Inv (env : LogEnv) (cfg : LogFileConfig) (tids : Nat → Nat) (s : LogSystem) : Prop where
  linked : s.pipeline.Linked cfg
  cached : ∀ t, Logger.LogThread.Wf env (s.threads t)
  tid : ∀ t, (s.threads t).tid = tids t
  appended : s.pipeline.log.appended = s.logged.map fun p => Logger.recordOf env (tids p.1) p.2
  lines : ∀ line ∈ s.pipeline.log.appended, Logger.OneLine line

theorem start_inv : Inv env cfg tids (start tids) where
  linked := LogPipeline.start_linked
  cached _ second := absurd rfl second
  tid _ := rfl
  appended := rfl
  lines _ member := absurd member List.not_mem_nil

/-- A statement appends its text. -/
theorem log_record {th : LogThread} (wf : Logger.LogThread.Wf env th) {st : LogStatement}
    (valid : Logger.Valid env st) (room : Logger.fill env th.tid st ≠ 4095) :
    Returns (fun r => Logger.LogThread.Wf env r.1 ∧ r.1.tid = th.tid ∧ r.2.record = Logger.recordOf env th.tid st ∧
      Logger.OneLine r.2.record) (Logger.log env th st) := by
  obtain ⟨r, logged, wf', tid, out⟩ := (Logger.log_pieces wf valid.later).exists
  have line := (Logger.log_oneLine wf valid).safe.result logged
  rw [logged]
  exact ⟨wf', tid, by rw [out]; rfl, line.2.2.2.mpr room⟩

theorem Inv.step (inv : Inv env cfg tids s) (plain : '/' ∉ cfg.basename.toList) (positive : ∀ i, 0 < clock i)
    {act : Action} (proper : Proper env tids act) : Safe (Inv env cfg tids) (s.step env cfg clock act) := by
  cases act with
  | statement t st =>
    obtain ⟨valid, room⟩ := proper
    rw [LogSystem.step, safe_bind, safe_lift]
    refine (log_record (inv.cached t) valid (by rw [inv.tid]; exact room)).safe.mono fun r facts => ?_
    obtain ⟨th, out⟩ := r
    obtain ⟨wf, tid, record, line⟩ := facts
    rw [inv.tid] at tid record
    simp only [safe_bind, safe_require, safe_lift, safe_pure]
    intro _
    -- the record goes to the pipeline; only the thread that logged has another cache
    refine (inv.linked.step plain positive (.append out.record)).of_result fun p taken => ?_
    have appended : p.log.appended = s.pipeline.log.appended ++ [out.record] := LogPipeline.step_appended _ p taken
    refine ⟨(inv.linked.step plain positive (.append out.record)).result taken, fun u => ?_, fun u => ?_, ?_, ?_⟩
    · by_cases same : u = t
      · subst same
        simpa using wf
      · simpa [Function.update_of_ne same] using inv.cached u
    · by_cases same : u = t
      · subst same
        simpa using tid
      · simpa [Function.update_of_ne same] using inv.tid u
    · rw [appended, inv.appended, record, List.map_append]
      rfl
    · intro l member
      rw [appended] at member
      rcases List.mem_append.mp member with before | last
      · exact inv.lines l before
      · rw [List.mem_singleton.mp last]
        exact line
  | logging act =>
    simp only [LogSystem.step, safe_bind, safe_require, safe_lift, safe_pure]
    intro internal
    refine (inv.linked.step plain positive act).of_result fun p taken => ?_
    have appended : p.log.appended = s.pipeline.log.appended := by
      rw [LogPipeline.step_appended act p taken]
      cases act with
      | append line => cases internal
      | _ => exact List.append_nil _
    refine ⟨(inv.linked.step plain positive act).result taken, inv.cached, inv.tid, ?_, ?_⟩
    · rw [appended]
      exact inv.appended
    · rw [appended]
      exact inv.lines

/-- A record is no longer than a stream, which is much less than a buffer. -/
theorem Inv.shortLines (inv : Inv env cfg tids s) : s.pipeline.log.ShortLines := by
  intro line member
  rw [inv.appended] at member
  obtain ⟨p, -, rfl⟩ := List.mem_map.mp member
  exact Nat.lt_trans (Logger.foldl_insert_lt _) (by decide)

/-- For every interleaving of threads that log, the owner and the back end: no assert of the
logger, of `AsyncLogging` or of `LogFile` fails. As long as no iteration was overloaded, the files
read one after another and split at the newlines give the texts of the statements, in the order
in which their threads got the mutex; those that are missing at the end wait in a buffer. -/
theorem statements_recovered (env : LogEnv) (cfg : LogFileConfig) (clock : Nat → Int) (tids : Nat → Nat)
    (acts : List Action) (plain : '/' ∉ cfg.basename.toList) (positive : ∀ i, 0 < clock i)
    (proper : ∀ act ∈ acts, Proper env tids act) :
    Safe (fun s => s.pipeline.log.NeverOverloaded →
      Logger.splitLines (s.pipeline.files.flatMap AppendFile.content) ++ s.pipeline.log.waiting =
        s.logged.map fun p => Logger.recordOf env (tids p.1) p.2)
      (Run.exec (step env cfg clock) (start tids) acts) := by
  have meets : Run.Meets (step env cfg clock) (fun _ act => Proper env tids act) (start tids) acts :=
    Run.meets_of_forall _ acts fun _ => proper
  refine (Run.exec_safe (fun s act (inv : Inv env cfg tids s) allowed => inv.step plain positive allowed)
    (start tids) acts start_inv meets).mono fun s inv never => ?_
  have all := inv.linked.inv.nothing_lost never
  rw [inv.shortLines.fitting_eq] at all
  have written : ∀ line ∈ s.pipeline.log.records, Logger.OneLine line := by
    intro line member
    refine inv.lines line ?_
    rw [all]
    exact List.mem_append_left _ member
  obtain ⟨parts, whole, contents⟩ := inv.linked.contents
  have bytes : s.pipeline.files.flatMap AppendFile.content = s.pipeline.log.records.flatten := by
    rw [List.flatMap_def, contents, ← whole, List.flatten_flatten]
  -- where every record is one line, splitting the bytes gives the records back
  rw [bytes, Logger.splitLines_flatten written, ← all, inv.appended]

/-- Two threads log while the back end is at work; the third statement is not swapped out any more. -/
def threeStatements : List Action :=
  [.statement 0 (Logger.infoStatement [104, 105]), .logging .start, .logging (.backEnd ""), .logging .started,
    .logging (.backEnd ""), .statement 1 (Logger.infoStatement [106])] ++
    List.replicate 7 (.logging (.backEnd "")) ++ [.statement 0 (Logger.infoStatement [107])]

theorem statements_recovered_three :
    ∃ s, Run.exec (step Logger.stillEnv LogFile.strokesConfig fun i => 100 + i) (start fun t => 42 + t)
        threeStatements = .ok s ∧ s.logged.length = 3 ∧ s.pipeline.log.waiting.length = 1 ∧
      Logger.splitLines (s.pipeline.files.flatMap AppendFile.content) ++ s.pipeline.log.waiting =
        s.logged.map fun p => Logger.recordOf Logger.stillEnv (42 + p.1) p.2 := by
  have last : (Run.exec (step Logger.stillEnv LogFile.strokesConfig fun i => 100 + i) (start fun t => 42 + t)
      threeStatements).toOption.map (fun s =>
        (s.logged.length, s.pipeline.log.waiting.length,
          s.pipeline.log.iterations.all fun it => decide (it.swapped.length ≤ 25))) = some (3, 1, true) := by
    decide +kernel
  obtain ⟨s, reached, ended⟩ := returned_of_map last
  simp only [Prod.mk.injEq, List.all_eq_true, decide_eq_true_eq] at ended
  obtain ⟨three, one, never⟩ := ended
  have proper : ∀ act ∈ threeStatements, Proper Logger.stillEnv (fun t => 42 + t) act := by
    have each (t : Nat) (text : List Byte) (newlineFree : kNewline ∉ text)
        (room : Logger.fill Logger.stillEnv (42 + t) (Logger.infoStatement text) ≠ 4095) :
        Proper Logger.stillEnv (fun t => 42 + t) (.statement t (Logger.infoStatement text)) :=
      ⟨Logger.infoStatement_valid newlineFree, room⟩
    have first := each 0 [104, 105] (by decide) (by decide +kernel)
    have second := each 1 [106] (by decide) (by decide +kernel)
    have third := each 0 [107] (by decide) (by decide +kernel)
    intro act member
    simp only [threeStatements, List.mem_append, List.mem_cons, List.mem_replicate, List.not_mem_nil,
      or_false] at member
    rcases member with ((rfl | rfl | rfl | rfl | rfl | rfl) | ⟨_, rfl⟩) | rfl
    · exact first
    · trivial
    · trivial
    · trivial
    · trivial
    · exact second
    · trivial
    · exact third
  exact ⟨s, reached, three, one, (statements_recovered Logger.stillEnv LogFile.strokesConfig (fun i => 100 + i)
    (fun t => 42 + t) threeStatements (by decide) (fun i => by omega) proper).result reached never⟩

end LogSystem

end Rnet.Log
