import Rnet.File.ConnBuffer

/-!
# Appending to a file

`rnet::file::AppendFile`: a line is passed to `fwrite_unlocked` again and again until all of it is
accepted or the stream reports an error. `stdio` is a parameter that may accept less than it is given.

What the call accepted that failed is in the file, and `writtenBytes_` does not have it.
-/
namespace Rnet.File

/-- A call of `fwrite_unlocked`, with what `ferror` returns after it. -/
structure WriteCall where
  requested : Nat
  accepted : Nat
  error : Int
  deriving DecidableEq, Repr

namespace WriteCall

/-- The call makes the loop stop. -/
def Failed (c : WriteCall) : Prop := c.accepted ≠ c.requested ∧ c.error ≠ 0

instance (c : WriteCall) : Decidable c.Failed := inferInstanceAs (Decidable (_ ∧ _))

/-- The bytes that the call accepted and `Append` does not count. -/
def lost (c : WriteCall) : Nat := if c.Failed then c.accepted else 0

end WriteCall

/-- What the C library does. The `i`-th call of `fwrite_unlocked`, for `n` bytes, accepts `accepts i n` of them,
and the error indicator is set to `sets i n` unless this is 0. -/
structure Stdio where
  accepts : Nat → Nat → Nat
  sets : Nat → Nat → Int
  /-- `strerror_r`. -/
  errnoMessage : Int → String
  accepts_le : ∀ i n, accepts i n ≤ n
  short : ∀ i n, accepts i n < n → sets i n ≠ 0 ∨ 0 < accepts i n

/-- A `FILE` that is open for appending. -/
structure Stream where
  error : Int
  /-- History: the bytes that were accepted. -/
  accepted : List Byte
  /-- History: the calls of `fwrite_unlocked`. -/
  calls : List WriteCall
  deriving DecidableEq, Repr

namespace Stream

/-- The error indicator stays until it is set again. -/
def setError (s : Stream) (error : Int) : Stream := if error ≠ 0 then { s with error := error } else s

@[simp] theorem setError_accepted (s : Stream) (error : Int) : (s.setError error).accepted = s.accepted := by
  rw [setError]
  split <;> rfl

@[simp] theorem setError_calls (s : Stream) (error : Int) : (s.setError error).calls = s.calls := by
  rw [setError]
  split <;> rfl

end Stream

structure AppendFile where
  fp : Stream
  writtenBytes : Nat
  /-- History: what went to `stderr`. -/
  stderr : List String
  deriving DecidableEq, Repr

namespace AppendFile

variable (io : Stdio)

def new : AppendFile := ⟨⟨0, [], []⟩, 0, []⟩

/-- `Write`: how many bytes `fwrite_unlocked` accepts, and the stream after it. -/
def write (fp : Stream) (logline : List Byte) : Nat × Stream :=
  let n := io.accepts fp.calls.length logline.length
  let fp' := fp.setError (io.sets fp.calls.length logline.length)
  (n, { fp' with
    accepted := fp.accepted ++ logline.take n
    calls := fp.calls ++ [⟨logline.length, n, fp'.error⟩] })

theorem write_le (fp : Stream) (logline : List Byte) : (write io fp logline).1 ≤ logline.length :=
  io.accepts_le _ _

/-- A call that does not make the loop stop has accepted something. -/
theorem write_pos (fp : Stream) {logline : List Byte} (nonempty : 0 < logline.length)
    (goes : ¬ ((write io fp logline).1 ≠ logline.length ∧ (write io fp logline).2.error ≠ 0)) :
    0 < (write io fp logline).1 := by
  by_contra stuck
  have zero : io.accepts fp.calls.length logline.length = 0 := Nat.eq_zero_of_not_pos stuck
  rcases io.short fp.calls.length logline.length (by omega) with set | positive
  · have error : (write io fp logline).2.error = io.sets fp.calls.length logline.length := by
      simp only [write, Stream.setError, if_pos set]
    refine goes ⟨?_, ?_⟩
    · have same : (write io fp logline).1 = io.accepts fp.calls.length logline.length := rfl
      omega
    · rw [error]
      exact set
  · exact stuck positive

/-- The end of the loop of `Append`, with the error that made it stop. -/
structure Appended where
  fp : Stream
  written : Nat
  failed : Option Int

/-- The loop of `Append`. -/
def appendLoop (logline : List Byte) (fp : Stream) (written : Nat) (inside : written ≤ logline.length) : Appended :=
  if _more : written ≠ logline.length then
    let rest := logline.drop written
    let n := (write io fp rest).1
    let fp' := (write io fp rest).2
    if _short : n ≠ rest.length ∧ fp'.error ≠ 0 then
      -- the `break` stands in front of `written += n`
      ⟨fp', written, some fp'.error⟩
    else
      appendLoop logline fp' (written + n) (by
        have le : n ≤ rest.length := write_le io fp rest
        rw [List.length_drop] at le
        omega)
  else
    ⟨fp, written, none⟩
termination_by logline.length - written
decreasing_by
  have left : (logline.drop written).length = logline.length - written := List.length_drop
  have pos : 0 < (write io fp (logline.drop written)).1 := write_pos io fp (by omega) _short
  omega

def failure (err : Int) : String := "AppendFile::append() failed " ++ io.errnoMessage err ++ "\n"

def append (f : AppendFile) (logline : List Byte) : AppendFile :=
  let r := appendLoop io logline f.fp 0 (Nat.zero_le _)
  ⟨r.fp, f.writtenBytes + r.written, f.stderr ++ (r.failed.map (failure io)).toList⟩

/-- `Flush`; `fflush` may set the error indicator too. -/
def flush (f : AppendFile) (sets : Int) : AppendFile := { f with fp := f.fp.setError sets }

inductive Action where
  | append (logline : List Byte)
  | flush (sets : Int)
  deriving DecidableEq, Repr

def step (f : AppendFile) : Action → AppendFile
  | .append logline => f.append io logline
  | .flush sets => f.flush sets

def run (acts : List Action) : AppendFile := acts.foldl (step io) new

/-! ### One line -/

/-- The bytes that the failed calls have accepted. -/
def lost (calls : List WriteCall) : Nat := (calls.map WriteCall.lost).sum

@[simp] theorem lost_append (first second : List WriteCall) : lost (first ++ second) = lost first + lost second := by
  simp [lost]

theorem lost_eq_zero (calls : List WriteCall) : lost calls = 0 ↔ ∀ c ∈ calls, c.Failed → c.accepted = 0 := by
  induction calls with
  | nil => simp [lost]
  | cons c rest ih =>
    have both : lost (c :: rest) = c.lost + lost rest := rfl
    rw [both, Nat.add_eq_zero_iff, ih, List.forall_mem_cons, WriteCall.lost, ite_eq_right_iff]

variable {logline : List Byte} {fp : Stream} {written : Nat}

/-- What the loop does from `written` on: `k` more bytes are accepted, those of the call that failed included. -/
structure LoopSpec (logline : List Byte) (fp : Stream) (written : Nat) (r : Appended) (k : Nat)
    (more : List WriteCall) : Prop where
  inside : written + k ≤ logline.length
  accepted : r.fp.accepted = fp.accepted ++ (logline.drop written).take k
  calls : r.fp.calls = fp.calls ++ more
  few : more.length ≤ logline.length - written
  counted : r.written + lost more = written + k
  whole : r.failed = none → written + k = logline.length
  failed : r.failed ≠ none → r.fp.error ≠ 0

/-- One more round in front of the loop. -/
theorem LoopSpec.round {fp' : Stream} {r : Appended} {n k : Nat} {more : List WriteCall} {c : WriteCall}
    (rest : LoopSpec logline fp' (written + n) r k more) (pos : 0 < n)
    (accepted : fp'.accepted = fp.accepted ++ (logline.drop written).take n) (called : fp'.calls = fp.calls ++ [c])
    (fine : c.lost = 0) : LoopSpec logline fp written r (n + k) (c :: more) where
  inside := by
    have inside := rest.inside
    omega
  accepted := by
    rw [rest.accepted, accepted, List.append_assoc, ← List.drop_drop, ← List.take_add]
  calls := by rw [rest.calls, called, List.append_assoc, List.singleton_append]
  few := by
    have few := rest.few
    have inside := rest.inside
    rw [List.length_cons]
    omega
  counted := by
    have counted := rest.counted
    have one : lost (c :: more) = lost more := by simp [lost, fine]
    omega
  whole := fun unfailed => by
    have whole := rest.whole unfailed
    omega
  failed := rest.failed

-- The induction is on the rounds: the round that fails is the last one, and only it loses bytes.
theorem appendLoop_spec (io : Stdio) (logline : List Byte) (fp : Stream) (written : Nat)
    (inside : written ≤ logline.length) :
    ∃ k more, LoopSpec logline fp written (appendLoop io logline fp written inside) k more := by
  induction fp, written, inside using appendLoop.induct io logline with
  | case1 fp written inside more rest n fp' failed =>
    rw [appendLoop, dif_pos more, dif_pos failed]
    have left : rest.length = logline.length - written := List.length_drop
    have le : n ≤ rest.length := write_le io fp rest
    refine ⟨n, [⟨rest.length, n, fp'.error⟩], ?_⟩
    constructor
    · omega
    · rfl
    · rfl
    · rw [List.length_singleton]
      omega
    · have all : lost [⟨rest.length, n, fp'.error⟩] = n := by simp [lost, WriteCall.lost, WriteCall.Failed, failed]
      exact congrArg (written + ·) all
    · intro unfailed
      contradiction
    · intro _
      exact failed.2
  | case2 fp written inside more rest n fp' fine ih =>
    rw [appendLoop, dif_pos more, dif_neg fine]
    obtain ⟨k, calls, spec⟩ := ih
    have left : rest.length = logline.length - written := List.length_drop
    refine ⟨n + k, ⟨rest.length, n, fp'.error⟩ :: calls, spec.round (write_pos io fp (by omega) fine) rfl rfl ?_⟩
    exact if_neg fine
  | case3 fp written inside done =>
    rw [appendLoop, dif_neg done]
    have all : written = logline.length := not_not.mp done
    refine ⟨0, [], ?_⟩
    constructor
    · exact inside
    · rw [List.take_zero, List.append_nil]
    · rw [List.append_nil]
    · exact Nat.zero_le _
    · rfl
    · intro _
      exact all
    · intro failed
      exact absurd rfl failed

theorem appendLoop_done (io : Stdio) (fp : Stream) (inside : written ≤ logline.length)
    (done : written = logline.length) :
    appendLoop io logline fp written inside = ⟨fp, written, none⟩ := by
  rw [appendLoop, dif_neg (not_not.mpr done)]

/-- Where all is accepted there is one call at most. -/
theorem appendLoop_all {io : Stdio} (all : ∀ i n, io.accepts i n = n) (fp : Stream) (logline : List Byte) :
    ∃ fp', appendLoop io logline fp 0 (Nat.zero_le _) = ⟨fp', logline.length, none⟩ ∧
      fp'.accepted = fp.accepted ++ logline := by
  by_cases empty : 0 = logline.length
  · obtain rfl : logline = [] := List.eq_nil_of_length_eq_zero empty.symm
    exact ⟨fp, appendLoop_done io fp (Nat.zero_le _) empty, (List.append_nil _).symm⟩
  · have taken : (write io fp (logline.drop 0)).1 = (logline.drop 0).length := all _ _
    have fine : ¬ ((write io fp (logline.drop 0)).1 ≠ (logline.drop 0).length ∧
        (write io fp (logline.drop 0)).2.error ≠ 0) := fun failed => failed.1 taken
    have done : 0 + (write io fp (logline.drop 0)).1 = logline.length := by
      rw [taken, List.drop_zero, Nat.zero_add]
    rw [appendLoop, dif_pos empty, dif_neg fine, appendLoop_done io _ _ done, done]
    refine ⟨_, rfl, ?_⟩
    have accepted : (write io fp (logline.drop 0)).2.accepted =
        fp.accepted ++ (logline.drop 0).take (write io fp (logline.drop 0)).1 := rfl
    rw [accepted, taken, List.take_length, List.drop_zero]

/-- What one `Append` does, but for the count: a first part of the line is accepted, and all of it unless the call
reports an error; there are not more calls of `fwrite_unlocked` than bytes. -/
structure Writes (logline : List Byte) (f after : AppendFile) : Prop where
  beginning : ∃ k ≤ logline.length, after.fp.accepted = f.fp.accepted ++ logline.take k
  whole : after.fp.error = 0 ∨ after.stderr = f.stderr → after.fp.accepted = f.fp.accepted ++ logline
  ends : after.fp.calls.length ≤ f.fp.calls.length + logline.length

theorem append_writes (io : Stdio) (f : AppendFile) (logline : List Byte) : Writes logline f (f.append io logline) := by
  obtain ⟨k, more, spec⟩ := appendLoop_spec io logline f.fp 0 (Nat.zero_le _)
  have accepted : (f.append io logline).fp.accepted = f.fp.accepted ++ logline.take k := spec.accepted
  constructor
  · have inside := spec.inside
    exact ⟨k, by omega, accepted⟩
  · intro fine
    have unfailed : (appendLoop io logline f.fp 0 (Nat.zero_le _)).failed = none := by
      by_contra stopped
      rcases fine with clear | silent
      · exact spec.failed stopped clear
      · obtain ⟨err, failed⟩ := Option.ne_none_iff_exists'.mp stopped
        simp [append, failed] at silent
    have whole := spec.whole unfailed
    rw [accepted, List.take_of_length_le (by omega)]
  · have few := spec.few
    have calls : (f.append io logline).fp.calls = f.fp.calls ++ more := spec.calls
    rw [calls, List.length_append]
    omega

/-! ### Whole runs -/

/-- What is not counted is what the failed calls have accepted. -/
def Counts (f : AppendFile) : Prop := f.writtenBytes + lost f.fp.calls = f.fp.accepted.length

theorem append_counts (io : Stdio) {f : AppendFile} (counts : f.Counts) (logline : List Byte) :
    (f.append io logline).Counts := by
  obtain ⟨k, more, spec⟩ := appendLoop_spec io logline f.fp 0 (Nat.zero_le _)
  have inside := spec.inside
  have counted := spec.counted
  rw [Counts] at counts ⊢
  simp only [append, spec.calls, spec.accepted, lost_append, List.length_append, List.length_take, List.drop_zero]
  omega

theorem step_counts (io : Stdio) {f : AppendFile} (counts : f.Counts) (act : Action) : (f.step io act).Counts := by
  cases act with
  | append logline => exact append_counts io counts logline
  | flush sets =>
    rw [Counts] at counts ⊢
    simpa only [step, flush, Stream.setError_calls, Stream.setError_accepted] using counts

theorem run_counts (io : Stdio) (acts : List Action) : (run io acts).Counts := by
  suffices every : ∀ f : AppendFile, f.Counts → (acts.foldl (step io) f).Counts from every new rfl
  induction acts with
  | nil => exact fun f counts => counts
  | cons act rest ih => exact fun f counts => ih (f.step io act) (step_counts io counts act)

theorem run_snoc (io : Stdio) (acts : List Action) (act : Action) :
    run io (acts ++ [act]) = (run io acts).step io act := by
  rw [run, List.foldl_append]
  rfl

theorem step_calls (io : Stdio) (f : AppendFile) (act : Action) : f.fp.calls <+: (f.step io act).fp.calls := by
  cases act with
  | append logline =>
    obtain ⟨k, calls, spec⟩ := appendLoop_spec io logline f.fp 0 (Nat.zero_le _)
    exact ⟨calls, spec.calls.symm⟩
  | flush sets => exact ⟨[], (List.append_nil _).trans (Stream.setError_calls f.fp sets).symm⟩

/-- The calls that were made are not forgotten. -/
theorem run_calls (io : Stdio) (acts more : List Action) :
    (run io acts).fp.calls <+: (run io (acts ++ more)).fp.calls := by
  rw [run, run, List.foldl_append]
  generalize acts.foldl (step io) new = f
  induction more generalizing f with
  | nil => exact List.prefix_rfl
  | cons act rest ih => exact (step_calls io f act).trans (ih (f.step io act))

/-- Every `Append` of the run is as it should be, and at no time is a byte missing in `writtenBytes_`. -/
structure EveryByte (io : Stdio) (acts : List Action) : Prop where
  writes : ∀ first logline rest, acts = first ++ .append logline :: rest →
    Writes logline (run io first) (run io (first ++ [.append logline]))
  counted : ∀ first rest, acts = first ++ rest → (run io first).writtenBytes = (run io first).fp.accepted.length

/-- Only the bytes of failed calls are not counted. -/
theorem everyByte_iff (io : Stdio) (acts : List Action) :
    EveryByte io acts ↔ ∀ c ∈ (run io acts).fp.calls, c.Failed → c.accepted = 0 := by
  rw [← lost_eq_zero]
  constructor
  · intro every
    have counted := every.counted acts [] (List.append_nil acts).symm
    have counts := run_counts io acts
    rw [Counts] at counts
    omega
  · intro lossless
    constructor
    · intro first logline rest _
      rw [run_snoc]
      exact append_writes io _ logline
    · rintro first rest rfl
      obtain ⟨later, calls⟩ := run_calls io first rest
      have counts := run_counts io first
      rw [← calls, lost_append] at lossless
      rw [Counts] at counts
      omega

/-- The disk is full after three bytes. -/
def diskFull : Stdio where
  accepts i n := if i = 0 then min n 3 else 0
  sets i n := if i = 0 ∧ n ≤ 3 then 0 else 28
  errnoMessage _ := "No space left on device"
  accepts_le i n := by
    split <;> omega
  short i n less := by
    split at less
    all_goals
      simp only [ne_eq, ite_eq_left_iff]
      omega

/-- Three bytes of the line are in the file, and none is counted. -/
theorem diskFull_uncounted :
    (run diskFull [.append [1, 2, 3, 4, 5]]).fp.accepted = [1, 2, 3] ∧
      (run diskFull [.append [1, 2, 3, 4, 5]]).writtenBytes = 0 := by
  decide +kernel

end AppendFile

end Rnet.File
