import Rnet.Log.AsyncLogging

/-!
# No line is lost on its way through the buffers

Every line stands in one buffer, and the buffers of all iterations, the waiting ones and the
current one hold all lines in the order of the appends. What an iteration swaps out it writes,
up to the overload drop. A line that is as long as a buffer is in none: `SizedBuffer::Append` drops
it without a word.
-/
namespace Rnet.Log

open Check
open File (Byte SizedBuffer kLargeSize)

/-! ### Buffers -/

namespace LogBuffer

theorem append_lines (b : LogBuffer) (line : Line) (less : line.length < b.avail) :
    (b.append line).lines = b.lines ++ [line] := by
  rw [append, dif_pos less]

theorem append_full (b : LogBuffer) (line : Line) (full : ¬ line.length < b.avail) : b.append line = b := by
  obtain ⟨raw, lines, whole⟩ := b
  simp only [append, dif_neg full, SizedBuffer.append_full raw line full]

theorem avail_le (b : LogBuffer) : b.avail ≤ kLargeSize := Nat.sub_le _ _

@[simp] theorem new_avail : new.avail = kLargeSize := rfl

@[simp] theorem new_lines : new.lines = [] := rfl

@[simp] theorem new_length : new.length = 0 := rfl

@[simp] theorem reset_eq_new (b : LogBuffer) : b.reset = new := rfl

end LogBuffer

/-- The lines of several buffers, in order. -/
def linesOf (buffers : List LogBuffer) : List Line := buffers.flatMap LogBuffer.lines

/-- Their content. -/
def bytesOf (buffers : List LogBuffer) : List Byte := buffers.flatMap fun b => b.raw.data

@[simp] theorem linesOf_nil : linesOf [] = [] := rfl

@[simp] theorem linesOf_cons (b : LogBuffer) (bs : List LogBuffer) : linesOf (b :: bs) = b.lines ++ linesOf bs :=
  List.flatMap_cons

@[simp] theorem linesOf_append (bs cs : List LogBuffer) : linesOf (bs ++ cs) = linesOf bs ++ linesOf cs :=
  List.flatMap_append

@[simp] theorem bytesOf_append (bs cs : List LogBuffer) : bytesOf (bs ++ cs) = bytesOf bs ++ bytesOf cs :=
  List.flatMap_append

/-- No line straddles two buffers. -/
theorem linesOf_flatten (bs : List LogBuffer) : (linesOf bs).flatten = bytesOf bs := by
  induction bs with
  | nil => rfl
  | cons b bs ih =>
    rw [linesOf_cons, List.flatten_append, ih, ← b.whole]
    rfl

/-! ### Iterations -/

namespace Iteration

/-- What the iteration passes to `LogFile::Append`. -/
def chunks (it : Iteration) : List Chunk :=
  it.notice.toList.map .notice ++ it.written.map fun b => .buffer b.raw.data

/-- The overload check has been made. -/
structure Checked (it : Iteration) : Prop where
  dropped : it.dropped = if 25 < it.swapped.length then it.swapped.drop 2 else []
  notice : if 25 < it.swapped.length then ∃ time, it.notice = some (AsyncLogging.noticeText time it.dropped.length)
    else it.notice = none

/-- A finished iteration: what was not dropped is written. -/
structure Settled (it : Iteration) : Prop extends Checked it where
  swapped : it.swapped = it.written ++ it.dropped

end Iteration

namespace AsyncLogging

variable {s : AsyncLogging}

/-- All iterations, the running one last. -/
def iterations (s : AsyncLogging) : List Iteration := s.finished ++ s.iteration.toList

/-- The lines that fit into a buffer, in order. -/
def fitting (s : AsyncLogging) : List Line := s.appended.filter fun line => line.length < kLargeSize

/-- All lines so far fit into a buffer. -/
def ShortLines (s : AsyncLogging) : Prop := ∀ line ∈ s.appended, line.length < kLargeSize

instance (s : AsyncLogging) : Decidable s.ShortLines := inferInstanceAs (Decidable (∀ line ∈ _, _))

theorem ShortLines.fitting_eq (short : s.ShortLines) : s.fitting = s.appended :=
  List.filter_eq_self.mpr fun line member => decide_eq_true (short line member)

/-- All buffers that ever held a line, in the order of the lines. -/
def allBuffers (s : AsyncLogging) : List LogBuffer :=
  s.iterations.flatMap Iteration.swapped ++ s.buffers ++ s.currentBuffer.toList

/-- Inside an iteration: the buffers that were swapped out are those still in `buffersToWrite` and,
once the overload check has been made, those it dropped. -/
structure Working (s : AsyncLogging) (it : Iteration) : Prop where
  running : s.iteration = some it
  first : s.newBuffer1 = none
  second : s.newBuffer2 = some .new ∨ s.newBuffer2 = none ∧ 2 ≤ s.buffersToWrite.length
  nonempty : s.buffersToWrite ≠ []
  swapped : it.swapped = s.buffersToWrite ++ it.dropped
  written : it.written = s.buffersToWrite.take s.passed
  unchecked : s.backEnd = .overload → it.dropped = [] ∧ it.notice = none ∧ s.passed = 0
  checked : s.backEnd ≠ .overload → it.Checked
  passed : s.backEnd = .recycle → s.buffersToWrite.length ≤ s.passed

/-- What the back end holds, part by part. -/
inductive Stage (s : AsyncLogging) : Prop where
  | before (part : s.backEnd = .notStarted ∨ s.backEnd = .entry) (empty : s.buffersToWrite = [])
      (idle : s.iteration = none)
  | between (part : s.backEnd = .test ∨ s.backEnd = .swap ∨ s.backEnd = .flush)
      (first : s.newBuffer1 = some .new) (second : s.newBuffer2 = some .new) (empty : s.buffersToWrite = [])
      (idle : s.iteration = none)
  | working (part : s.backEnd = .overload ∨ s.backEnd = .write ∨ s.backEnd = .recycle) (it : Iteration)
      (working : s.Working it)
  | after (part : s.backEnd = .lastFlush ∨ s.backEnd = .done) (empty : s.buffersToWrite = [])
      (idle : s.iteration = none)

/-- `Start` returns after the back end has entered its function, and `Stop` comes after that. -/
structure Owners (s : AsyncLogging) : Prop where
  idle : s.owner = .idle → s.backEnd = .notStarted
  latched : s.latch = true → s.backEnd ≠ .notStarted ∧ s.backEnd ≠ .entry
  waited : s.owner = .started ∨ s.owner = .stopping ∨ s.owner = .stopped → s.latch = true
  running : s.backEnd = .entry → s.running = true

structure Inv (s : AsyncLogging) : Prop where
  current : ∃ b, s.currentBuffer = some b
  next : ∀ b, s.nextBuffer = some b → b = .new
  spare : s.nextBuffer = none → s.buffers ≠ []
  stage : s.Stage
  owners : s.Owners
  finished : ∀ it ∈ s.finished, it.Settled
  stream : s.fitting = linesOf s.allBuffers
  output : s.output = s.iterations.flatMap Iteration.chunks

theorem inv_start : start.Inv := by
  refine ⟨⟨_, rfl⟩, ?_, by simp [start], .before (Or.inl rfl) rfl rfl, ?_, by simp [start], rfl, rfl⟩
  · rintro b ⟨⟩
    rfl
  · constructor <;> simp [start]

theorem Stage.between_of (stage : s.Stage) (part : s.backEnd = .test ∨ s.backEnd = .swap ∨ s.backEnd = .flush) :
    s.newBuffer1 = some .new ∧ s.newBuffer2 = some .new ∧ s.buffersToWrite = [] ∧ s.iteration = none := by
  cases stage with
  | between _ first second empty idle => exact ⟨first, second, empty, idle⟩
  | before other => rcases part with part | part | part <;> simp [part] at other
  | working other => rcases part with part | part | part <;> simp [part] at other
  | after other => rcases part with part | part | part <;> simp [part] at other

theorem Stage.working_of (stage : s.Stage)
    (part : s.backEnd = .overload ∨ s.backEnd = .write ∨ s.backEnd = .recycle) : ∃ it, s.Working it := by
  cases stage with
  | working _ it working => exact ⟨it, working⟩
  | before other => rcases part with part | part | part <;> simp [part] at other
  | between other => rcases part with part | part | part <;> simp [part] at other
  | after other => rcases part with part | part | part <;> simp [part] at other

theorem Stage.before_of (stage : s.Stage) (part : s.backEnd = .notStarted ∨ s.backEnd = .entry) :
    s.buffersToWrite = [] ∧ s.iteration = none := by
  cases stage with
  | before _ empty idle => exact ⟨empty, idle⟩
  | between other => rcases part with part | part <;> simp [part] at other
  | working other => rcases part with part | part <;> simp [part] at other
  | after other => rcases part with part | part <;> simp [part] at other

theorem Stage.after_of (stage : s.Stage) (part : s.backEnd = .lastFlush ∨ s.backEnd = .done) :
    s.buffersToWrite = [] ∧ s.iteration = none := by
  cases stage with
  | after _ empty idle => exact ⟨empty, idle⟩
  | before other => rcases part with part | part <;> simp [part] at other
  | between other => rcases part with part | part <;> simp [part] at other
  | working other => rcases part with part | part <;> simp [part] at other

/-- Outside an iteration no buffer is left to write. -/
theorem Stage.idle_of (stage : s.Stage) (idle : s.iteration = none) : s.buffersToWrite = [] := by
  cases stage with
  | before _ empty _ => exact empty
  | between _ _ _ empty _ => exact empty
  | after _ empty _ => exact empty
  | working _ it working => rw [working.running] at idle; cases idle

theorem Stage.running_of {it : Iteration} (stage : s.Stage) (running : s.iteration = some it) : s.Working it := by
  cases stage with
  | before _ _ idle => rw [idle] at running; cases running
  | between _ _ _ _ idle => rw [idle] at running; cases running
  | after _ _ idle => rw [idle] at running; cases running
  | working _ it' working =>
    obtain rfl : it' = it := Option.some.inj (working.running.symm.trans running)
    exact working

/-- What other threads do leaves the back end where it is. -/
theorem Stage.congr {s' : AsyncLogging} (stage : s.Stage) (backEnd : s'.backEnd = s.backEnd)
    (first : s'.newBuffer1 = s.newBuffer1) (second : s'.newBuffer2 = s.newBuffer2)
    (toWrite : s'.buffersToWrite = s.buffersToWrite) (passed : s'.passed = s.passed)
    (iteration : s'.iteration = s.iteration) : s'.Stage := by
  cases stage with
  | before part empty idle => exact .before (backEnd ▸ part) (toWrite ▸ empty) (iteration ▸ idle)
  | between part one two empty idle =>
    exact .between (backEnd ▸ part) (first ▸ one) (second ▸ two) (toWrite ▸ empty) (iteration ▸ idle)
  | after part empty idle => exact .after (backEnd ▸ part) (toWrite ▸ empty) (iteration ▸ idle)
  | working part it working =>
    refine .working (backEnd ▸ part) it ⟨?_, ?_, ?_, ?_, ?_, ?_, ?_, ?_, ?_⟩
    · rw [iteration]; exact working.running
    · rw [first]; exact working.first
    · rw [second, toWrite]; exact working.second
    · rw [toWrite]; exact working.nonempty
    · rw [toWrite]; exact working.swapped
    · rw [toWrite, passed]; exact working.written
    · rw [backEnd, passed]; exact working.unchecked
    · rw [backEnd]; exact working.checked
    · rw [backEnd, toWrite, passed]; exact working.passed

/-- The back end moves on in its function. -/
theorem Owners.advance {s' : AsyncLogging} (owners : s.Owners) (entered : s.backEnd ≠ .notStarted)
    (past : s'.backEnd ≠ .notStarted ∧ s'.backEnd ≠ .entry) (owner : s'.owner = s.owner)
    (latch : s'.latch = s.latch) : s'.Owners := by
  refine ⟨fun notYet => ?_, fun _ => past, ?_, fun entry => absurd entry past.2⟩
  · exact absurd (owners.idle (owner ▸ notYet)) entered
  · rw [owner, latch]
    exact owners.waited

/-! ### The front end -/

/-- The buffer that follows a full one is empty, whether it was there or is constructed. -/
theorem Inv.fresh (inv : s.Inv) : s.nextBuffer.getD .new = .new := by
  cases next : s.nextBuffer with
  | none => rfl
  | some b => exact inv.next b next

/-- Where the line goes is the only question: into the current buffer, into a fresh one, or nowhere. -/
theorem append_inv (line : Line) (inv : s.Inv) : Safe Inv (s.append line) := by
  obtain ⟨current, found⟩ := inv.current
  have stream := inv.stream
  simp only [fitting, allBuffers, found, Option.toList_some, linesOf_append, linesOf_cons, linesOf_nil,
    List.append_nil] at stream
  simp only [append, found, demand, safe_bind, safe_ok]
  split
  next fits =>
    have short : line.length < kLargeSize := Nat.lt_of_lt_of_le fits current.avail_le
    refine ⟨⟨_, rfl⟩, inv.next, inv.spare, ?stage, ?owners, inv.finished, ?stream, inv.output⟩
    case stage => exact inv.stage.congr rfl rfl rfl rfl rfl rfl
    case owners => exact ⟨inv.owners.1, inv.owners.2, inv.owners.3, inv.owners.4⟩
    case stream =>
      simp [fitting, allBuffers, iterations, LogBuffer.append_lines current line fits, stream, short]
  next full =>
    refine ⟨⟨_, rfl⟩, by simp, fun _ => by simp, ?stage, ?owners, inv.finished, ?stream, inv.output⟩
    case stage => exact inv.stage.congr rfl rfl rfl rfl rfl rfl
    case owners => exact ⟨inv.owners.1, inv.owners.2, inv.owners.3, inv.owners.4⟩
    case stream =>
      -- the fresh buffer is empty, so the line is in it unless no buffer can take it
      rw [inv.fresh]
      by_cases short : line.length < kLargeSize
      · simp [fitting, allBuffers, iterations, LogBuffer.append_lines .new line short, stream, short]
      · simp [fitting, allBuffers, iterations, LogBuffer.append_full .new line short, stream, short]

/-! ### The back end -/

theorem enterThread_inv (part : s.backEnd = .entry) (inv : s.Inv) : Safe Inv s.enterThread := by
  simp only [enterThread, safe_bind, safe_ensure, safe_pure]
  have idle := (inv.stage.before_of (Or.inr part)).2
  refine ⟨inv.owners.running part, inv.current, inv.next, inv.spare, .between (Or.inl rfl) rfl rfl rfl idle,
    ?owners, inv.finished, inv.stream, inv.output⟩
  case owners =>
    refine ⟨fun notYet => ?_, fun _ => ⟨by simp, by simp⟩, fun _ => rfl, by simp⟩
    have before := inv.owners.idle notYet
    rw [part] at before
    cases before

theorem loopTest_inv (part : s.backEnd = .test) (inv : s.Inv) : Safe Inv s.loopTest := by
  have entered : s.backEnd ≠ .notStarted := by simp [part]
  obtain ⟨first, second, empty, idle⟩ := inv.stage.between_of (by simp [part])
  unfold loopTest
  split
  next =>
    simp only [safe_bind, safe_demand, safe_ensure, safe_pure]
    refine ⟨.new, first, rfl, .new, second, rfl, by rw [empty]; rfl, ?_⟩
    exact ⟨inv.current, inv.next, inv.spare, .between (Or.inr (Or.inl rfl)) first second empty idle,
      inv.owners.advance entered ⟨by simp, by simp⟩ rfl rfl, inv.finished, inv.stream, inv.output⟩
  next =>
    exact ⟨inv.current, inv.next, inv.spare, .after (Or.inl rfl) empty idle,
      inv.owners.advance entered ⟨by simp, by simp⟩ rfl rfl, inv.finished, inv.stream, inv.output⟩

/-- The state the critical section leaves, whichever way `nextBuffer_` was filled. -/
theorem swapped_inv {current : LogBuffer} {second : Option LogBuffer} (part : s.backEnd = .swap)
    (inv : s.Inv) (found : s.currentBuffer = some current) (idle : s.iteration = none)
    (pool : second = some .new ∨ second = none ∧ 2 ≤ (s.buffers ++ [current]).length) :
    { s with
      currentBuffer := some .new, nextBuffer := some .new, newBuffer1 := none, newBuffer2 := second
      buffersToWrite := s.buffers ++ [current], buffers := [], passed := 0
      iteration := some ⟨s.buffers ++ [current], [], [], none⟩
      backEnd := .overload : AsyncLogging }.Inv := by
  constructor
  case current => exact ⟨_, rfl⟩
  case next =>
    rintro b ⟨⟩
    rfl
  case spare => simp
  case stage =>
    refine .working (Or.inl rfl) _ ⟨rfl, rfl, pool, by simp, by simp, by simp, ?_, ?_, by simp⟩
    · exact fun _ => ⟨rfl, rfl, rfl⟩
    · exact fun other => absurd rfl other
  case owners => exact inv.owners.advance (by simp [part]) ⟨by simp, by simp⟩ rfl rfl
  case finished => exact inv.finished
  case stream =>
    have stream := inv.stream
    simp only [fitting, allBuffers, iterations, found, idle] at stream
    simp [fitting, allBuffers, iterations, stream]
  case output =>
    have output := inv.output
    simp only [iterations, idle] at output
    simp [iterations, output, Iteration.chunks]

theorem swapBuffers_inv (part : s.backEnd = .swap) (inv : s.Inv) : Safe Inv s.swapBuffers := by
  obtain ⟨current, found⟩ := inv.current
  obtain ⟨first, second, empty, idle⟩ := inv.stage.between_of (by simp [part])
  simp only [swapBuffers, safe_bind, safe_demand, safe_ensure, safe_pure, first, second, empty]
  refine ⟨current, found, ?_⟩
  cases next : s.nextBuffer with
  | none =>
    -- the second spare buffer is given away; a full one waits, so two are swapped out
    refine ⟨by simp, swapped_inv part inv found idle (Or.inr ⟨rfl, ?_⟩)⟩
    have waiting := List.length_pos_of_ne_nil (inv.spare next)
    rw [List.length_append, List.length_singleton]
    omega
  | some b =>
    obtain rfl := inv.next b next
    exact ⟨by simp, swapped_inv part inv found idle (Or.inl rfl)⟩

theorem overload_inv (time : String) (part : s.backEnd = .overload) (inv : s.Inv) : (s.overload time).Inv := by
  obtain ⟨it, working⟩ := inv.stage.working_of (by simp [part])
  obtain ⟨running, first, second, nonempty, swapped, written, unchecked, _, _⟩ := working
  obtain ⟨nothing, quiet, start⟩ := unchecked part
  rw [nothing, List.append_nil] at swapped
  rw [start, List.take_zero] at written
  have entered : s.backEnd ≠ .notStarted := by simp [part]
  have stream := inv.stream
  have output := inv.output
  simp only [fitting, allBuffers, iterations, running] at stream
  simp only [iterations, running] at output
  -- the two branches differ in what the iteration has dropped
  unfold overload
  split
  next many =>
    have dropped : (s.buffersToWrite.take 2 ++ s.buffersToWrite.drop 2) = s.buffersToWrite := List.take_append_drop 2 _
    constructor
    case current => exact inv.current
    case next => exact inv.next
    case spare => exact inv.spare
    case stage =>
      have two : 2 ≤ (s.buffersToWrite.take 2).length := by
        rw [List.length_take]
        omega
      refine .working (Or.inr (Or.inl rfl)) { it with
          dropped := s.buffersToWrite.drop 2
          notice := some (noticeText time (s.buffersToWrite.length - 2)) }
        ⟨by simp [running], first, ?_, ?_, ?_, ?_, by simp, fun _ => ⟨?_, ?_⟩, by simp⟩
      · exact second.imp_right fun missing => ⟨missing.1, two⟩
      · exact List.ne_nil_of_length_pos (Nat.lt_of_lt_of_le Nat.two_pos two)
      · rw [dropped, swapped]
      · rw [start, List.take_zero]
        exact written
      · rw [if_pos (swapped ▸ many), swapped]
      · rw [if_pos (swapped ▸ many)]
        exact ⟨time, by rw [List.length_drop]⟩
    case owners => exact inv.owners.advance entered ⟨by simp, by simp⟩ rfl rfl
    case finished => exact inv.finished
    case stream => simpa [fitting, allBuffers, iterations, running] using stream
    case output =>
      simp [iterations, running, output, Iteration.chunks, quiet, written]
  next few =>
    refine ⟨inv.current, inv.next, inv.spare, ?_, inv.owners.advance entered ⟨by simp, by simp⟩ rfl rfl,
      inv.finished, inv.stream, inv.output⟩
    refine .working (Or.inr (Or.inl rfl)) it
      ⟨running, first, second, nonempty, ?_, ?_, by simp, fun _ => ⟨?_, ?_⟩, by simp⟩
    · rw [nothing, List.append_nil, swapped]
    · rw [start, List.take_zero]
      exact written
    · rw [if_neg (swapped ▸ few), nothing]
    · rw [if_neg (swapped ▸ few)]
      exact quiet

/-- The loop over `buffersToWrite` passes one buffer, or ends. -/
theorem write_inv (part : s.backEnd = .write) (inv : s.Inv) : s.write.Inv := by
  obtain ⟨it, working⟩ := inv.stage.working_of (by simp [part])
  obtain ⟨running, first, second, nonempty, swapped, written, _, checked, _⟩ := working
  have entered : s.backEnd ≠ .notStarted := by simp [part]
  have isChecked : it.Checked := checked (by simp [part])
  unfold write
  split
  next buffer found =>
    -- one more buffer is written, which was the next one of `buffersToWrite`
    have stream := inv.stream
    have output := inv.output
    simp only [fitting, allBuffers, iterations, running] at stream
    simp only [iterations, running] at output
    refine ⟨inv.current, inv.next, inv.spare, ?_, inv.owners.advance entered (by simp [part]) rfl rfl,
      inv.finished, ?_, ?_⟩
    · refine .working (Or.inr (Or.inl part)) { it with written := it.written ++ [buffer] }
        ⟨by simp [running], first, second, nonempty, swapped, ?_, by simp [part], fun _ => ⟨isChecked.1, isChecked.2⟩,
          by simp [part]⟩
      rw [List.take_add_one, found, written]
      rfl
    · simpa [fitting, allBuffers, iterations, running] using stream
    · simp [iterations, running, output, Iteration.chunks]
  next ended =>
    refine ⟨inv.current, inv.next, inv.spare, ?_, inv.owners.advance entered ⟨by simp, by simp⟩ rfl rfl,
      inv.finished, inv.stream, inv.output⟩
    exact .working (Or.inr (Or.inr rfl)) it
      ⟨running, first, second, nonempty, swapped, written, by simp, fun _ => isChecked,
        fun _ => List.getElem?_eq_none_iff.mp ended⟩

theorem refill_safe (slot : Option LogBuffer) (pool : List LogBuffer) (spare : ∀ b, slot = some b → b = .new)
    (enough : slot = none → pool ≠ []) :
    Safe (fun r => r.1 = some .new ∧ (slot = none → r.2 = pool.dropLast)) (refill slot pool) := by
  unfold refill
  split
  next b => exact ⟨congrArg some (spare b rfl), by simp⟩
  next =>
    simp only [safe_bind, safe_demand, safe_pure]
    exact ⟨_, List.getLast?_eq_some_getLast (enough rfl), rfl, fun _ => trivial⟩

theorem recycle_inv (part : s.backEnd = .recycle) (inv : s.Inv) : Safe Inv s.recycle := by
  obtain ⟨it, working⟩ := inv.stage.working_of (by simp [part])
  obtain ⟨running, first, second, nonempty, swapped, written, _, checked, passed⟩ := working
  have entered : s.backEnd ≠ .notStarted := by simp [part]
  have isChecked : it.Checked := checked (by simp [part])
  have whole : it.written = s.buffersToWrite := by rw [written, List.take_of_length_le (passed part)]
  -- the buffers that are recycled: one at least, and two where two are missing
  generalize chosen : (if 2 < s.buffersToWrite.length then s.buffersToWrite.take 2 else s.buffersToWrite) = pool
  have nonempty : pool ≠ [] := by
    rw [← chosen]
    split
    · simpa using nonempty
    · exact nonempty
  have two (many : 2 ≤ s.buffersToWrite.length) : pool.length = 2 := by
    rw [← chosen]
    split
    · rw [List.length_take]
      omega
    · omega
  simp only [recycle, chosen, safe_bind]
  refine (refill_safe s.newBuffer1 pool (by simp [first]) fun _ => nonempty).mono ?_
  rintro ⟨newBuffer1, rest⟩ ⟨refilled, taken⟩
  have taken : rest = pool.dropLast := taken first
  refine (refill_safe s.newBuffer2 rest ?_ ?_).mono ?_
  · intro b found
    rcases second with spare | ⟨missing, _⟩
    · rw [spare] at found
      exact (Option.some.inj found).symm
    · rw [missing] at found
      cases found
  · intro missing
    rcases second with spare | ⟨_, many⟩
    · rw [spare] at missing
      cases missing
    · refine List.ne_nil_of_length_pos ?_
      rw [taken, List.length_dropLast, two many]
      decide
  · rintro ⟨newBuffer2, _⟩ ⟨refilled', _⟩
    have stream := inv.stream
    have output := inv.output
    simp only [fitting, allBuffers, iterations, running] at stream
    simp only [iterations, running] at output
    refine ⟨inv.current, inv.next, inv.spare, .between (Or.inr (Or.inr rfl)) refilled refilled' rfl rfl,
      inv.owners.advance entered ⟨by simp, by simp⟩ rfl rfl, ?_, ?_, ?_⟩
    · intro it' member
      rcases List.mem_append.mp member with old | new
      · exact inv.finished it' old
      · obtain rfl : it' = it := by simpa [running, eq_comm] using new
        exact ⟨isChecked, by rw [swapped, whole]⟩
    · simpa [fitting, allBuffers, iterations, running] using stream
    · simpa [iterations, running] using output

/-- Moving on without touching a buffer. -/
theorem flush_inv {b : BackEnd} (inv : s.Inv) (entered : s.backEnd ≠ .notStarted)
    (past : b ≠ .notStarted ∧ b ≠ .entry) (stage : { s with backEnd := b : AsyncLogging }.Stage) :
    { s with backEnd := b : AsyncLogging }.Inv :=
  ⟨inv.current, inv.next, inv.spare, stage, inv.owners.advance entered past rfl rfl, inv.finished, inv.stream,
    inv.output⟩

theorem threadStep_inv (time : String) (inv : s.Inv) : Safe Inv (s.threadStep time) := by
  rw [threadStep]
  cases part : s.backEnd with
  | notStarted | done => trivial
  | entry => exact enterThread_inv part inv
  | test => exact loopTest_inv part inv
  | swap => exact swapBuffers_inv part inv
  | overload => exact overload_inv time part inv
  | write => exact write_inv part inv
  | recycle => exact recycle_inv part inv
  | flush =>
    obtain ⟨first, second, empty, idle⟩ := inv.stage.between_of (Or.inr (Or.inr part))
    exact flush_inv inv (by simp [part]) ⟨by simp, by simp⟩ (.between (Or.inl rfl) first second empty idle)
  | lastFlush =>
    obtain ⟨empty, idle⟩ := inv.stage.after_of (Or.inl part)
    exact flush_inv inv (by simp [part]) ⟨by simp, by simp⟩ (.after (Or.inr rfl) empty idle)

theorem step_inv (a : Action) (inv : s.Inv) : Safe Inv (s.step a) := by
  cases a with
  | append line => exact append_inv line inv
  | start =>
    simp only [step, safe_bind, safe_require, safe_pure]
    intro idle
    have part := inv.owners.idle idle
    obtain ⟨empty, idle⟩ := inv.stage.before_of (Or.inl part)
    refine ⟨inv.current, inv.next, inv.spare, .before (Or.inr rfl) empty idle, ?_, inv.finished, inv.stream, inv.output⟩
    refine ⟨by simp, fun latched => absurd part (inv.owners.latched latched).1, ?_, fun _ => rfl⟩
    rintro (⟨⟨⟩⟩ | ⟨⟨⟩⟩ | ⟨⟨⟩⟩)
  | started =>
    simp only [step, safe_bind, safe_require, safe_pure]
    rintro ⟨_, latched⟩
    exact ⟨inv.current, inv.next, inv.spare, inv.stage.congr rfl rfl rfl rfl rfl rfl,
      ⟨by simp, inv.owners.latched, fun _ => latched, inv.owners.running⟩, inv.finished, inv.stream, inv.output⟩
  | stop =>
    simp only [step, safe_bind, safe_require, safe_pure]
    intro started
    have latched := inv.owners.waited (Or.inl started)
    exact ⟨inv.current, inv.next, inv.spare, inv.stage.congr rfl rfl rfl rfl rfl rfl,
      ⟨by simp, inv.owners.latched, fun _ => latched, fun entry => absurd entry (inv.owners.latched latched).2⟩,
      inv.finished, inv.stream, inv.output⟩
  | joined =>
    simp only [step, safe_bind, safe_require, safe_pure]
    rintro ⟨stopping, _⟩
    have latched := inv.owners.waited (Or.inr (Or.inl stopping))
    exact ⟨inv.current, inv.next, inv.spare, inv.stage.congr rfl rfl rfl rfl rfl rfl,
      ⟨by simp, inv.owners.latched, fun _ => latched, inv.owners.running⟩, inv.finished, inv.stream, inv.output⟩
  | backEnd time => exact threadStep_inv time inv

/-! ### Every run -/

/-- What was written or dropped: all of the finished iterations, and what the running one has
written. -/
def retired (s : AsyncLogging) : List LogBuffer :=
  s.finished.flatMap Iteration.swapped ++ s.iteration.toList.flatMap Iteration.written

/-- The part of `buffersToWrite` the loop has not passed. -/
def unwritten (s : AsyncLogging) : List LogBuffer := s.buffersToWrite.drop s.passed

/-- What the running iteration has dropped. -/
def droppedNow (s : AsyncLogging) : List LogBuffer := s.iteration.toList.flatMap Iteration.dropped

structure Intact (s : AsyncLogging) : Prop where
  /-- An overloaded iteration drops what comes after the two buffers it still has to write. -/
  stream : s.appended.flatten = bytesOf s.retired ++ bytesOf s.unwritten ++ bytesOf s.droppedNow ++
    bytesOf s.buffers ++ bytesOf s.currentBuffer.toList
  /-- Each line is a line of one buffer. -/
  whole : s.appended = linesOf (s.retired ++ s.unwritten ++ s.droppedNow ++ s.buffers ++ s.currentBuffer.toList)
  finished : ∀ it ∈ s.finished, it.Settled
  running : ∀ it, s.iteration = some it → it.swapped = it.written ++ s.unwritten ++ it.dropped ∧
    (it.Checked ∨ it.written = [] ∧ it.dropped = [] ∧ it.notice = none)
  output : s.output = s.iterations.flatMap Iteration.chunks

/-- The running iteration, split at the buffer to be written next. -/
theorem Working.split {it : Iteration} (working : s.Working it) :
    it.swapped = it.written ++ s.unwritten ++ it.dropped := by
  rw [working.swapped, working.written, unwritten, List.take_append_drop]

/-- Every line that fits into a buffer is a line of one buffer. -/
theorem Inv.whole (inv : s.Inv) :
    s.fitting = linesOf (s.retired ++ s.unwritten ++ s.droppedNow ++ s.buffers ++ s.currentBuffer.toList) := by
  have stream := inv.stream
  cases running : s.iteration with
  | none =>
    have empty := inv.stage.idle_of running
    simpa [allBuffers, iterations, running, retired, unwritten, droppedNow, empty] using stream
  | some it =>
    have split := (inv.stage.running_of running).split
    simpa [allBuffers, iterations, running, retired, droppedNow, split] using stream

theorem Inv.running (inv : s.Inv) (it : Iteration) (running : s.iteration = some it) :
    it.swapped = it.written ++ s.unwritten ++ it.dropped ∧
      (it.Checked ∨ it.written = [] ∧ it.dropped = [] ∧ it.notice = none) := by
  have working := inv.stage.running_of running
  refine ⟨working.split, ?_⟩
  by_cases part : s.backEnd = .overload
  · obtain ⟨dropped, notice, start⟩ := working.unchecked part
    exact Or.inr ⟨by rw [working.written, start, List.take_zero], dropped, notice⟩
  · exact Or.inl (working.checked part)

theorem Inv.intact (inv : s.Inv) (short : s.ShortLines) : s.Intact := by
  have whole := inv.whole
  rw [short.fitting_eq] at whole
  refine ⟨?_, whole, inv.finished, inv.running, inv.output⟩
  rw [whole, linesOf_flatten]
  simp only [bytesOf_append]

/-- No check of the back end fails, and in every state the buffers hold what was appended, where no
line is as long as a buffer. -/
theorem lines_intact (acts : List Action) : Safe (fun s => s.ShortLines → s.Intact) (Run.exec step start acts) :=
  (Run.exec_safe_all (fun _ a inv => step_inv a inv) start acts inv_start).mono fun _ inv => inv.intact

/-! ### The order inside an overloaded iteration -/

/-- Everything written or dropped so far stands before everything else. -/
def RetiredFirst (s : AsyncLogging) : Prop :=
  s.appended.flatten = bytesOf (s.retired ++ s.droppedNow) ++ bytesOf s.unwritten ++ bytesOf s.buffers ++
    bytesOf s.currentBuffer.toList

theorem step_append_full {b : LogBuffer} {line : Line} (found : s.currentBuffer = some b)
    (full : ¬ line.length < b.avail) :
    step s (.append line) = .ok { s with
      appended := s.appended ++ [line], buffers := s.buffers ++ [b]
      currentBuffer := some ((s.nextBuffer.getD .new).append line), nextBuffer := none } := by
  simp only [step, append, found, demand, bind, Except.bind]
  exact if_neg full

theorem step_append_first {line : Line} (short : line.length < kLargeSize) :
    step start (.append line) = .ok { start with
      appended := [line], currentBuffer := some (LogBuffer.new.append line) } := by
  simp only [step, append, start, demand, bind, Except.bind]
  exact if_pos short

/-- The buffer that holds this line only. -/
def filled (line : Line) : LogBuffer := LogBuffer.new.append line

/-- The longest lines there are: no other line fits beside one in a buffer. -/
def Full (line : Line) : Prop := line.length + 1 = kLargeSize

theorem Full.short {line : Line} (full : Full line) : line.length < kLargeSize := by
  unfold Full at full
  omega

theorem filled_data {line : Line} (full : Full line) : (filled line).raw.data = line := by
  rw [(filled line).whole, filled, LogBuffer.append_lines _ _ full.short]
  simp

/-- The next line needs a new buffer. -/
theorem filled_full {line next : Line} (full : Full line) (fullNext : Full next) :
    ¬ next.length < (filled line).avail := by
  have large : kLargeSize = 1024000 := rfl
  rw [LogBuffer.avail, SizedBuffer.avail, SizedBuffer.length, filled_data full]
  unfold Full at full fullNext
  omega

section Overload

variable {first line : Line}

/-- A line, then `n + 1` others, each in a buffer of its own, before the back end is started. -/
def backlog (first line : Line) (n : Nat) : AsyncLogging :=
  { start with
    appended := first :: List.replicate (n + 1) line
    buffers := filled first :: List.replicate n (filled line)
    currentBuffer := some (filled line)
    nextBuffer := none }

theorem backlog_zero (fullFirst : Full first) (full : Full line) :
    step { start with appended := [first], currentBuffer := some (filled first) } (.append line) =
      .ok (backlog first line 0) := by
  rw [step_append_full rfl (filled_full fullFirst full)]
  simp [backlog, start, filled]

theorem backlog_append (full : Full line) (n : Nat) :
    step (backlog first line n) (.append line) = .ok (backlog first line (n + 1)) := by
  rw [step_append_full rfl (filled_full full full)]
  simp [backlog, filled, List.replicate_succ']

theorem exec_backlog (fullFirst : Full first) (full : Full line) (n : Nat) :
    Run.exec step start (.append first :: List.replicate (n + 1) (.append line)) = .ok (backlog first line n) := by
  rw [Run.exec_cons (step_append_first fullFirst.short)]
  induction n with
  | zero => exact Run.exec_cons (backlog_zero fullFirst full) []
  | succ n ih =>
    rw [List.replicate_succ', Run.exec_append, ih]
    exact Run.exec_cons (backlog_append full n) []

/-- Twenty-six buffers are swapped out, and all but two of them dropped. -/
def overloaded (first line : Line) : List Action :=
  (.append first :: List.replicate 25 (.append line)) ++
    [.start, .backEnd "", .started, .backEnd "", .backEnd "", .backEnd ""]

/-- Before the two that are left are written. -/
def overloadedState (first line : Line) : AsyncLogging :=
  { backlog first line 24 with
    running := true, latch := true, owner := .started, currentBuffer := some .new, nextBuffer := some .new
    buffers := [], buffersToWrite := [filled first, filled line], backEnd := .write
    output := [.notice (noticeText "" 24)]
    iteration := some ⟨filled first :: List.replicate 25 (filled line), [], List.replicate 24 (filled line),
      some (noticeText "" 24)⟩ }

theorem exec_overloaded (fullFirst : Full first) (full : Full line) :
    Run.exec step start (overloaded first line) = .ok (overloadedState first line) := by
  rw [overloaded, Run.exec_append, exec_backlog fullFirst full 24]
  rfl

/-- The bytes dropped would have to come before those of the first line, which is still to be
written. -/
theorem overloadedState_order {a b : Byte} {as bs : List Byte} (full : Full (b :: bs)) (different : a ≠ b) :
    ¬ (overloadedState (a :: as) (b :: bs)).RetiredFirst := by
  intro retiredFirst
  have dropped : List.replicate 24 (filled (b :: bs)) = filled (b :: bs) :: List.replicate 23 (filled (b :: bs)) := rfl
  have heads := congrArg List.head? retiredFirst
  simp [overloadedState, backlog, start, retired, droppedNow, dropped, bytesOf, filled_data full] at heads
  exact different heads

end Overload

theorem overloadedState_short {first line : Line} (fullFirst : Full first) (full : Full line) :
    (overloadedState first line).ShortLines := by
  intro other member
  rcases List.mem_cons.mp member with rfl | later
  · exact fullFirst.short
  · rw [List.eq_of_mem_replicate later]
    exact full.short

/-- A line of zeros and twenty-five lines of ones. -/
theorem overload_not_retiredFirst :
    ∃ s, Run.exec step start (overloaded (0 :: List.replicate 1023998 0) (1 :: List.replicate 1023998 1)) = .ok s ∧
      s.ShortLines ∧ ¬ s.RetiredFirst := by
  have full (b : Byte) : Full (b :: List.replicate 1023998 b) := by
    rw [Full, List.length_cons, List.length_replicate]
    rfl
  exact ⟨_, exec_overloaded (full 0) (full 1), overloadedState_short (full 0) (full 1),
    overloadedState_order (full 1) (by decide)⟩

end AsyncLogging

end Rnet.Log
