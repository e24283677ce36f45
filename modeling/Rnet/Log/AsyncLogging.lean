import Rnet.File.SizedBuffer
import Rnet.Lib.Run

/-!
# Asynchronous logging

`rnet::log::AsyncLogging`: any number of threads append lines to the current buffer under the
mutex; the back-end thread swaps the full buffers and the current one out, writes them to its
`LogFile` and recycles two of them. Each `Append` is one step, and so is each part of
`ThreadFunction` between which another thread can get in: the loop test, the locked swap, the
overload check, the write of each buffer, the recycling, the flush.
-/
namespace Rnet.Log

open Check
open File (Byte SizedBuffer kLargeSize)

/-- A line as a front end passes it to `Append`. -/
abbrev Line := List Byte

/-- A buffer, with the lines that were appended to it since it was empty. -/
structure LogBuffer where
  raw : SizedBuffer kLargeSize
  lines : List Line
  whole : raw.data = lines.flatten

namespace LogBuffer

def new : LogBuffer := ⟨.new, [], rfl⟩

def length (b : LogBuffer) : Nat := b.raw.length

def avail (b : LogBuffer) : Nat := b.raw.avail

def append (b : LogBuffer) (line : Line) : LogBuffer :=
  if less : line.length < b.avail then
    ⟨b.raw.append line, b.lines ++ [line], by
      rw [SizedBuffer.append_data b.raw line less, b.whole, List.flatten_append]
      simp⟩
  else ⟨b.raw.append line, b.lines, by rw [SizedBuffer.append_full b.raw line less]; exact b.whole⟩

def reset (b : LogBuffer) : LogBuffer := ⟨b.raw.reset, [], rfl⟩

end LogBuffer

/-- What `LogFile::Append` is called with. -/
inductive Chunk where
  | notice (text : String)
  | buffer (data : List Byte)

/-- One pass through the body of the loop, from the swap on. -/
structure Iteration where
  swapped : List LogBuffer
  written : List LogBuffer
  dropped : List LogBuffer
  notice : Option String

inductive LogFault where
  | notRunning
  | newBuffer1
  | newBuffer2
  | leftOver
  | nothingSwapped
  | nothingToRecycle
  | nullBuffer
  deriving DecidableEq, Repr

/-- Where the back end is in `ThreadFunction`. -/
inductive BackEnd where
  | notStarted
  | entry
  | test
  | swap
  | overload
  | write
  | recycle
  | flush
  | lastFlush
  | done
  deriving DecidableEq, Repr

/-- The thread that owns the object: `Start` waits for the latch, `Stop` for the thread. -/
inductive Owner where
  | idle
  | starting
  | started
  | stopping
  | stopped
  deriving DecidableEq, Repr

structure AsyncLogging where
  running : Bool
  latch : Bool
  currentBuffer : Option LogBuffer
  nextBuffer : Option LogBuffer
  buffers : List LogBuffer
  backEnd : BackEnd
  newBuffer1 : Option LogBuffer
  newBuffer2 : Option LogBuffer
  buffersToWrite : List LogBuffer
  /-- How many of `buffersToWrite` the loop over them has passed. -/
  passed : Nat
  output : List Chunk
  owner : Owner
  /-- All lines, in the order in which their `Append` had the mutex. -/
  appended : List Line
  /-- How many of them were appended when `Stop` was called. -/
  atStop : Option Nat
  finished : List Iteration
  iteration : Option Iteration

namespace AsyncLogging

def start : AsyncLogging :=
  { running := false, latch := false, currentBuffer := some .new, nextBuffer := some .new, buffers := []
    backEnd := .notStarted, newBuffer1 := none, newBuffer2 := none, buffersToWrite := [], passed := 0
    output := [], owner := .idle, appended := [], atStop := none, finished := [], iteration := none }

def append (s : AsyncLogging) (line : Line) : Comp LogFault AsyncLogging := do
  let s := { s with appended := s.appended ++ [line] }
  let currentBuffer ← demand .nullBuffer s.currentBuffer
  if line.length < currentBuffer.avail then
    return { s with currentBuffer := some (currentBuffer.append line) }
  else
    -- a full buffer is moved away even if the line is too long for an empty one
    let fresh := s.nextBuffer.getD .new
    return { s with
      buffers := s.buffers ++ [currentBuffer]
      currentBuffer := some (fresh.append line)
      nextBuffer := none }

/-! ### The parts of `ThreadFunction` -/

def enterThread (s : AsyncLogging) : Comp LogFault AsyncLogging := do
  ensure .notRunning (s.running = true)
  return { s with
    latch := true, newBuffer1 := some .new, newBuffer2 := some .new, buffersToWrite := [], passed := 0
    backEnd := .test }

def loopTest (s : AsyncLogging) : Comp LogFault AsyncLogging := do
  if s.running then
    let newBuffer1 ← demand .newBuffer1 s.newBuffer1
    ensure .newBuffer1 (newBuffer1.length = 0)
    let newBuffer2 ← demand .newBuffer2 s.newBuffer2
    ensure .newBuffer2 (newBuffer2.length = 0)
    ensure .leftOver (s.buffersToWrite.isEmpty = true)
    return { s with backEnd := .swap }
  else return { s with backEnd := .lastFlush }

/-- The critical section. The wait before it ends by a notification or by its timeout, so it may
come at any time. -/
def swapBuffers (s : AsyncLogging) : Comp LogFault AsyncLogging := do
  let currentBuffer ← demand .nullBuffer s.currentBuffer
  let swapped := s.buffers ++ [currentBuffer]
  -- the two vectors are swapped, and `buffersToWrite` was empty
  let s := { s with
    currentBuffer := s.newBuffer1, newBuffer1 := none, buffersToWrite := swapped
    buffers := s.buffersToWrite, passed := 0, iteration := some ⟨swapped, [], [], none⟩ }
  let s := if s.nextBuffer.isNone then { s with nextBuffer := s.newBuffer2, newBuffer2 := none } else s
  ensure .nothingSwapped (s.buffersToWrite.isEmpty = false)
  return { s with backEnd := .overload }

/-- `snprintf` into 256 characters. -/
def noticeText (time : String) (larger : Nat) : String :=
  let text := "Dropped log messages at " ++ time ++ ", " ++ toString larger ++ " larger buffers\n"
  String.ofList (text.toList.take 255)

def overload (s : AsyncLogging) (time : String) : AsyncLogging :=
  if 25 < s.buffersToWrite.length then
    let buf := noticeText time (s.buffersToWrite.length - 2)
    -- the first two are kept: they serve the pool again
    { s with
      output := s.output ++ [.notice buf]
      buffersToWrite := s.buffersToWrite.take 2
      iteration := s.iteration.map fun it =>
        { it with dropped := s.buffersToWrite.drop 2, notice := some buf }
      backEnd := .write }
  else { s with backEnd := .write }

/-- One turn of the loop over `buffersToWrite`. -/
def write (s : AsyncLogging) : AsyncLogging :=
  match s.buffersToWrite[s.passed]? with
  | some buffer =>
    { s with
      output := s.output ++ [.buffer buffer.raw.data]
      passed := s.passed + 1
      iteration := s.iteration.map fun it => { it with written := it.written ++ [buffer] } }
  | none => { s with backEnd := .recycle }

/-- A missing buffer is replaced by the last of those written. -/
def refill (slot : Option LogBuffer) (pool : List LogBuffer) :
    Comp LogFault (Option LogBuffer × List LogBuffer) :=
  match slot with
  | some buffer => pure (some buffer, pool)
  | none => do
    let last ← demand .nothingToRecycle pool.getLast?
    return (some last.reset, pool.dropLast)

def recycle (s : AsyncLogging) : Comp LogFault AsyncLogging := do
  let pool := if 2 < s.buffersToWrite.length then s.buffersToWrite.take 2 else s.buffersToWrite
  let (newBuffer1, pool) ← refill s.newBuffer1 pool
  let (newBuffer2, _) ← refill s.newBuffer2 pool
  return { s with
    newBuffer1 := newBuffer1, newBuffer2 := newBuffer2, buffersToWrite := [], passed := 0
    finished := s.finished ++ s.iteration.toList, iteration := none, backEnd := .flush }

/-! ### Steps -/

inductive Action where
  | append (line : Line)
  | start
  | started
  | stop
  | joined
  /-- The back end's next part; `time` is the text of the clock, should a notice need it. -/
  | backEnd (time : String)

def threadStep (s : AsyncLogging) (time : String) : Comp LogFault AsyncLogging :=
  match s.backEnd with
  | .notStarted => .error .disabled
  | .entry => s.enterThread
  | .test => s.loopTest
  | .swap => s.swapBuffers
  | .overload => pure (s.overload time)
  | .write => pure s.write
  | .recycle => s.recycle
  | .flush => pure { s with backEnd := .test }
  -- after the loop nothing is swapped out any more
  | .lastFlush => pure { s with backEnd := .done }
  | .done => .error .disabled

def step (s : AsyncLogging) : Action → Comp LogFault AsyncLogging
  | .append line => s.append line
  | .start => do
    require (s.owner = .idle)
    return { s with running := true, backEnd := .entry, owner := .starting }
  | .started => do
    require (s.owner = .starting ∧ s.latch = true)
    return { s with owner := .started }
  | .stop => do
    require (s.owner = .started)
    return { s with running := false, owner := .stopping, atStop := some s.appended.length }
  | .joined => do
    require (s.owner = .stopping ∧ s.backEnd = .done)
    return { s with owner := .stopped }
  | .backEnd time => s.threadStep time

end AsyncLogging

end Rnet.Log
