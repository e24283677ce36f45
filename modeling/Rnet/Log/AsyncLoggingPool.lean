import Rnet.Log.AsyncLoggingStream

/-!
# The buffer pool of the logger

The front ends take a fresh buffer where one is full, and the back end puts two back in every
iteration. The pool never runs dry: a missing `nextBuffer_` means that one more full buffer is
about to be swapped out, so the back end always finds as many buffers to recycle as it has given
away. That does not depend on the lines: for one that is longer than a buffer `Append` moves on to the
next buffer as well, before it drops the line.
-/
namespace Rnet.Log

open Check
open File (Byte SizedBuffer kLargeSize)

namespace AsyncLogging

variable {s : AsyncLogging}

/-- How many buffers the back end has to take back at the end of its iteration. -/
def missing (s : AsyncLogging) : Nat :=
  (if s.newBuffer1.isNone then 1 else 0) + if s.newBuffer2.isNone then 1 else 0

/-- What holds outside the critical sections. -/
structure Stocked (s : AsyncLogging) : Prop where
  current : s.currentBuffer.isSome = true
  next : s.nextBuffer = none → s.buffers ≠ []
  spare : ∀ b, s.nextBuffer = some b → b.length = 0
  /-- At the head of an iteration. -/
  head : s.backEnd = .test →
    (∃ b, s.newBuffer1 = some b ∧ b.length = 0) ∧ (∃ b, s.newBuffer2 = some b ∧ b.length = 0) ∧
      s.buffersToWrite = []
  /-- Where buffers are taken back, also after the overload branch. -/
  enough : s.backEnd = .recycle → s.missing ≤ s.buffersToWrite.length

/-! ### Every run -/

theorem Working.enough {it : Iteration} (working : s.Working it) : s.missing ≤ s.buffersToWrite.length := by
  have positive := List.length_pos_iff.mpr working.nonempty
  -- `newBuffer2` is given away only where two buffers were swapped out
  rcases working.second with kept | ⟨given, two⟩
  · simp only [missing, working.first, kept]
    exact positive
  · simp only [missing, working.first, given]
    exact two

theorem Inv.stocked (inv : s.Inv) : s.Stocked := by
  constructor
  · obtain ⟨current, found⟩ := inv.current
    exact Option.isSome_iff_exists.mpr ⟨current, found⟩
  · exact inv.spare
  · intro b found
    rw [inv.next b found]
    rfl
  · intro head
    obtain ⟨first, second, empty, _⟩ := inv.stage.between_of (Or.inl head)
    exact ⟨⟨_, first, rfl⟩, ⟨_, second, rfl⟩, empty⟩
  · intro part
    obtain ⟨it, working⟩ := inv.stage.working_of (Or.inr (Or.inr part))
    exact working.enough

/-- In every run of front ends and back end, with lines of any length, no assert of the logger
fails, and outside the critical sections: there is a current buffer; the next one is empty, and
missing only where a full buffer waits; at the head of an iteration the back end has two empty
buffers and nothing to write; and where it takes buffers back there are as many as it lacks. -/
theorem pool_never_dry (acts : List Action) : Safe Stocked (Run.exec step start acts) :=
  (Run.exec_safe_all (fun _ a inv => step_inv a inv) start acts inv_start).mono fun _ inv => inv.stocked

end AsyncLogging

end Rnet.Log
