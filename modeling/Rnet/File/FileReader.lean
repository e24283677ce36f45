import Rnet.Lib.Check
import Rnet.Lib.Memory
import Rnet.File.ConnBuffer

/-!
# Reading a file

`rnet::file::FileReader`. `ReadToString` collects what `read(2)` delivers, which may be less than was
asked for, until it has as much as is allowed or the file is at its end. `GetFileContent` has a loop too, but
nothing of what the loop condition looks at changes in it.
-/
namespace Rnet.File

open Check Memory

/-! ### What the kernel does -/

inductive ReadAnswer where
  | bytes (n : Nat)
  | fails (errno : Int)
  deriving DecidableEq, Repr

inductive FileKind where
  | regular
  | directory
  | other
  deriving DecidableEq, Repr

structure Stat where
  kind : FileKind
  size : Nat
  mtime : Int
  ctime : Int
  deriving DecidableEq, Repr

/-- `read i n left` is the answer to the `i`-th `read(2)`, of `n` bytes where `left` are left in the file. -/
structure Kernel where
  read : Nat → Nat → Nat → ReadAnswer
  fstat : Except Int Stat
  read_bytes : ∀ {i n left k}, read i n left = .bytes k → 0 < n → k ≤ n ∧ k ≤ left ∧ (0 < left → 0 < k)
  read_fails : ∀ {i n left errno}, read i n left = .fails errno → errno ≠ 0
  fstat_fails : ∀ {errno}, fstat = .error errno → errno ≠ 0

/-- A `read(2)`: how many bytes were asked for and how many came. -/
structure ReadCall where
  asked : Nat
  got : Nat
  deriving DecidableEq, Repr

structure OpenFile where
  bytes : List Byte
  offset : Nat
  /-- History: the calls of `read(2)`. -/
  calls : List ReadCall
  deriving DecidableEq, Repr

namespace OpenFile

/-- What was not read yet. -/
def rest (file : OpenFile) : List Byte := file.bytes.drop file.offset

def advance (file : OpenFile) (asked got : Nat) : OpenFile :=
  ⟨file.bytes, file.offset + got, file.calls ++ [⟨asked, got⟩]⟩

theorem advance_rest (file : OpenFile) (asked got : Nat) : (file.advance asked got).rest = file.rest.drop got := by
  rw [rest, rest, List.drop_drop]
  rfl

end OpenFile

/-! ### The reader -/

namespace FileReader

def kBufferSize : Nat := 16 * 1024

end FileReader

/-- `buf_`. -/
def ReaderBuffer : Type := { cells : List Byte // cells.length = FileReader.kBufferSize }

namespace ReaderBuffer

def fill (buf : ReaderBuffer) (data : List Byte) : ReaderBuffer :=
  ⟨store buf.1 0 data, by rw [store_length, buf.2]⟩

theorem slice_fill (buf : ReaderBuffer) (data : List Byte) (fits : data.length ≤ FileReader.kBufferSize) :
    slice (buf.fill data).1 0 data.length = data := by
  have stored := slice_store buf.1 0 data (by rw [buf.2]; omega)
  rw [Nat.zero_add] at stored
  exact stored

end ReaderBuffer

structure FileReader where
  fd : Option OpenFile
  err : Int
  buf : ReaderBuffer

/-- The pointers that may be null, with what they point to. -/
structure Outputs where
  fileSize : Option Int
  modifyTime : Option Int
  createTime : Option Int
  deriving DecidableEq, Repr

structure ReadResult where
  err : Int
  content : List Byte
  outs : Outputs
  reader : FileReader

inductive ReaderFault where
  /-- `reserve` throws `std::length_error`. -/
  | length
  /-- `GetFileContent` throws. -/
  | notOpen
  deriving DecidableEq, Repr

def EISDIR : Int := 21

namespace FileReader

variable (k : Kernel)

/-- The constructor, with what `open(2)` answers. -/
def new (opened : Except Int (List Byte)) (buf : ReaderBuffer) : FileReader :=
  match opened with
  | .ok bytes => ⟨some ⟨bytes, 0, []⟩, 0, buf.fill [0]⟩
  | .error errno => ⟨none, errno, buf.fill [0]⟩

/-- `implicit_cast<size_t>`. -/
def toSize (n : Int) : Nat := (n % 2 ^ 64).toNat

/-- What is done with the kind of the file. -/
def statKind (st : Stat) (maxSize : Int) (err : Int) (outs : Outputs) : Comp ReaderFault (Int × Outputs) :=
  match st.kind with
  | .regular => do
    ensure .length (0 ≤ min maxSize st.size)
    return (err, { outs with fileSize := some (st.size : Int) })
  | .directory => return (EISDIR, outs)
  | .other => return (err, outs)

/-- The part of `ReadToString` in front of the loop, with `err` after it. -/
def statFile (maxSize : Int) (err : Int) (outs : Outputs) : Comp ReaderFault (Int × Outputs) :=
  match outs.fileSize, k.fstat with
  | none, _ => return (err, outs)
  | some _, .ok st => do
    let (err, outs) ← statKind st maxSize err outs
    return (err, { outs with
      modifyTime := outs.modifyTime.map fun _ => st.mtime
      createTime := outs.createTime.map fun _ => st.ctime })
  | some _, .error errno => return (errno, outs)

/-- The size of the next request, `toRead`. -/
theorem request_bounds {limit size : Nat} (room : size < limit) :
    0 < min (limit - size) kBufferSize ∧ min (limit - size) kBufferSize ≤ kBufferSize ∧
      size + min (limit - size) kBufferSize ≤ limit := by
  have positive : 0 < kBufferSize := by decide
  omega

/-- The bytes that are appended are those that come next in the file. -/
theorem slice_delivered {i left n toRead : Nat} {data : List Byte} (buf : ReaderBuffer) (positive : 0 < toRead)
    (small : toRead ≤ kBufferSize) (answer : k.read i toRead left = .bytes n) (here : left = data.length) :
    n ≤ toRead ∧ n ≤ data.length ∧ slice (buf.fill (data.take n)).1 0 n = data.take n := by
  obtain ⟨asked, present, _⟩ := k.read_bytes answer positive
  have length : (data.take n).length = n := by
    rw [List.length_take]
    omega
  have stored := buf.slice_fill (data.take n) (by omega)
  rw [length] at stored
  exact ⟨asked, by omega, stored⟩

structure LoopEnd where
  file : OpenFile
  buf : ReaderBuffer
  content : List Byte
  err : Int

/-- The loop of `ReadToString`. -/
def readLoop (limit : Nat) (file : OpenFile) (buf : ReaderBuffer) (content : List Byte) (err : Int) : LoopEnd :=
  if _room : content.length < limit then
    let toRead := min (limit - content.length) kBufferSize
    match _answer : k.read file.calls.length toRead file.rest.length with
    | .bytes n =>
      let buf' := buf.fill (file.rest.take n)
      if _some : 0 < n then
        readLoop limit (file.advance toRead n) buf' (content ++ slice buf'.1 0 n) err
      else
        ⟨file.advance toRead n, buf', content, err⟩
    | .fails errno => ⟨file.advance toRead 0, buf, content, errno⟩
  else
    ⟨file, buf, content, err⟩
termination_by limit - content.length
decreasing_by
  obtain ⟨asked, small, _⟩ := request_bounds _room
  obtain ⟨_, present, delivered⟩ := slice_delivered k buf asked small _answer rfl
  rw [List.length_append, delivered, List.length_take]
  omega

def readToString (r : FileReader) (maxSize : Int) (content : List Byte) (outs : Outputs) :
    Comp ReaderFault ReadResult :=
  match r.fd with
  | none => return ⟨r.err, content, outs, r⟩
  | some file => do
    let (err, outs) ← statFile k maxSize r.err outs
    let loop := readLoop k (toSize maxSize) file r.buf [] err
    return ⟨loop.err, loop.content, outs, { r with fd := some loop.file, buf := loop.buf }⟩

/-- `ReadFile`. -/
def readFile (opened : Except Int (List Byte)) (buf : ReaderBuffer) (maxSize : Int) (content : List Byte)
    (outs : Outputs) : Comp ReaderFault ReadResult :=
  (new opened buf).readToString k maxSize content outs

variable {k}

/-! ### `ReadToString` -/

/-- The calls of `read(2)` while `size` bytes and more are in the string: none asks for more than fits into `buf_`, or
for more than may still be added. -/
def Allowed (limit : Nat) : Nat → List ReadCall → Prop
  | _, [] => True
  | size, call :: rest => call.asked ≤ kBufferSize ∧ size + call.asked ≤ limit ∧ Allowed limit (size + call.got) rest

instance Allowed.decidable (limit : Nat) : ∀ size calls, Decidable (Allowed limit size calls)
  | _, [] => inferInstanceAs (Decidable True)
  | size, call :: rest =>
    have := Allowed.decidable limit (size + call.got) rest
    inferInstanceAs (Decidable (_ ∧ _ ∧ _))

/-- What the loop does: `n` bytes more come into the string, and there are none left if it has not stopped for its
limit or for an error. -/
structure LoopSpec (limit : Nat) (file : OpenFile) (content : List Byte) (r : LoopEnd) (n : Nat)
    (more : List ReadCall) : Prop where
  grown : r.content = content ++ file.rest.take n
  present : n ≤ file.rest.length
  bounded : content.length ≤ limit → content.length + n ≤ limit
  whole : r.err = 0 → limit ≤ content.length + n ∨ n = file.rest.length
  calls : r.file.calls = file.calls ++ more
  allowed : Allowed limit content.length more

/-- One more round in front of the loop. -/
theorem LoopSpec.round {limit n m asked : Nat} {file : OpenFile} {content : List Byte} {r : LoopEnd}
    {more : List ReadCall} (present : n ≤ file.rest.length) (small : asked ≤ kBufferSize)
    (room : content.length + asked ≤ limit) (fits : n ≤ asked)
    (rest : LoopSpec limit (file.advance asked n) (content ++ file.rest.take n) r m more) :
    LoopSpec limit file content r (n + m) (⟨asked, n⟩ :: more) := by
  obtain ⟨grown, left, bounded, whole, calls, allowed⟩ := rest
  have length : (content ++ file.rest.take n).length = content.length + n := by
    rw [List.length_append, List.length_take]
    omega
  rw [file.advance_rest, List.length_drop] at left whole
  rw [length] at bounded whole allowed
  constructor
  · rw [grown, file.advance_rest, List.append_assoc, ← List.take_add]
  · omega
  · omega
  · intro fine
    have whole := whole fine
    omega
  · rw [calls, OpenFile.advance, List.append_assoc, List.singleton_append]
  · exact ⟨small, room, allowed⟩

/-- A round that brings nothing is the last one. -/
theorem LoopSpec.last {limit asked got : Nat} {file : OpenFile} {buf : ReaderBuffer} {content : List Byte} {err : Int}
    (small : asked ≤ kBufferSize) (room : content.length + asked ≤ limit) (ended : err = 0 → file.rest.length = 0) :
    LoopSpec limit file content ⟨file.advance asked got, buf, content, err⟩ 0 [⟨asked, got⟩] := by
  constructor
  · rw [List.take_zero, List.append_nil]
  · exact Nat.zero_le _
  · omega
  · intro fine
    exact Or.inr (ended fine).symm
  · rfl
  · exact ⟨small, room, trivial⟩

-- The cases are the ends of a round: bytes, the end of the file, an error, and the limit reached before the read.
theorem readLoop_spec (k : Kernel) (limit : Nat) (file : OpenFile) (buf : ReaderBuffer) (content : List Byte)
    (err : Int) :
    ∃ n more, LoopSpec limit file content (readLoop k limit file buf content err) n more := by
  fun_induction readLoop k limit file buf content err with
  | case1 file buf content room toRead n answer buf' positive ih =>
    obtain ⟨asked, small, inside⟩ := request_bounds room
    obtain ⟨fits, present, delivered⟩ := slice_delivered k buf asked small answer rfl
    rw [delivered] at ih ⊢
    obtain ⟨m, more, spec⟩ := ih
    exact ⟨n + m, ⟨toRead, n⟩ :: more, .round present small inside fits spec⟩
  | case2 file buf content room toRead n answer buf' nothing =>
    obtain ⟨asked, small, inside⟩ := request_bounds room
    have empty := (k.read_bytes answer asked).2.2
    exact ⟨0, [⟨toRead, n⟩], .last small inside fun _ => by omega⟩
  | case3 file buf content room toRead errno answer =>
    obtain ⟨asked, small, inside⟩ := request_bounds room
    exact ⟨0, [⟨toRead, 0⟩], .last small inside fun zero => absurd zero (k.read_fails answer)⟩
  | case4 file buf content full =>
    refine ⟨0, [], ?_⟩
    constructor
    · rw [List.take_zero, List.append_nil]
    · exact Nat.zero_le _
    · omega
    · intro _
      omega
    · rw [List.append_nil]
    · trivial

/-- What `ReadToString` gives where `bytes` are to be read and `calls` were made before. -/
structure Reads (bytes : List Byte) (calls : List ReadCall) (maxSize : Nat) (out : ReadResult) : Prop where
  beginning : out.content <+: bytes
  bounded : out.content.length ≤ maxSize
  whole : out.err = 0 → out.content = bytes.take (min maxSize bytes.length)
  requests : ∃ file more, out.reader.fd = some file ∧ file.calls = calls ++ more ∧ Allowed maxSize 0 more

theorem LoopSpec.reads {limit n : Nat} {file : OpenFile} {r : LoopEnd} {more : List ReadCall} (r' : FileReader)
    (outs : Outputs) (spec : LoopSpec limit file [] r n more) :
    Reads file.rest file.calls limit ⟨r.err, r.content, outs, { r' with fd := some r.file, buf := r.buf }⟩ := by
  obtain ⟨grown, present, bounded, whole, calls, allowed⟩ := spec
  rw [List.nil_append] at grown
  rw [List.length_nil] at bounded whole allowed
  have bounded := bounded (Nat.zero_le _)
  constructor
  · rw [grown]
    exact List.take_prefix n file.rest
  · rw [grown, List.length_take]
    omega
  · intro fine
    have exactly : n = min limit file.rest.length := by
      rcases whole fine with full | ended
      · omega
      · omega
    rw [grown, exactly]
  · exact ⟨r.file, more, rfl, calls, allowed⟩

theorem statFile_returns (k : Kernel) {maxSize : Int} (nonneg : 0 ≤ maxSize) (err : Int) (outs : Outputs) :
    ∃ r, statFile k maxSize err outs = .ok r := by
  rw [statFile]
  split
  · exact ⟨_, rfl⟩
  · next st _ _ =>
    have fits : 0 ≤ min maxSize st.size := by omega
    suffices kind : ∃ r, statKind st maxSize err outs = .ok r by
      obtain ⟨r, returned⟩ := kind
      simp only [returned]
      exact ⟨_, rfl⟩
    rw [statKind]
    cases st.kind with
    | regular =>
      simp only [ensure, if_pos fits]
      exact ⟨_, rfl⟩
    | directory => exact ⟨_, rfl⟩
    | other => exact ⟨_, rfl⟩
  · exact ⟨_, rfl⟩

theorem readToString_rest (k : Kernel) (r : FileReader) {file : OpenFile} (opened : r.fd = some file) {maxSize : Int}
    (nonneg : 0 ≤ maxSize) (int : maxSize < 2 ^ 31) (outs : Outputs) :
    ∃ out, (∀ content, r.readToString k maxSize content outs = .ok out) ∧
      Reads file.rest file.calls maxSize.toNat out := by
  have size : toSize maxSize = maxSize.toNat := by
    unfold toSize
    omega
  obtain ⟨⟨err, outs'⟩, answered⟩ := statFile_returns k nonneg r.err outs
  obtain ⟨n, more, spec⟩ := readLoop_spec k maxSize.toNat file r.buf [] err
  refine ⟨_, fun content => ?_, spec.reads r outs'⟩
  rw [readToString, opened]
  simp only [answered, size]
  rfl

/-- `ReadFile` of a file that can be opened. -/
theorem readFile_reads (k : Kernel) (bytes : List Byte) (buf : ReaderBuffer) {maxSize : Int} (nonneg : 0 ≤ maxSize)
    (int : maxSize < 2 ^ 31) (content : List Byte) (outs : Outputs) :
    Returns (Reads bytes [] maxSize.toNat) (readFile k (.ok bytes) buf maxSize content outs) := by
  obtain ⟨out, returned, reads⟩ := readToString_rest k (new (.ok bytes) buf) rfl nonneg int outs
  rw [readFile, returned content]
  exact reads

/-- Whatever was in the string, `ReadToString` leaves the bytes of an open file in it, from where the file stands. -/
theorem readToString_reads (k : Kernel) (r : FileReader) {file : OpenFile} (opened : r.fd = some file) {maxSize : Int}
    (nonneg : 0 ≤ maxSize) (int : maxSize < 2 ^ 31) (outs : Outputs) :
    ∃ out, (∀ content, r.readToString k maxSize content outs = .ok out) ∧
      Reads file.rest file.calls maxSize.toNat out ∧
      (file.offset = 0 → Reads file.bytes file.calls maxSize.toNat out) := by
  obtain ⟨out, returned, reads⟩ := readToString_rest k r opened nonneg int outs
  refine ⟨out, returned, reads, fun start => ?_⟩
  rw [OpenFile.rest, start, List.drop_zero] at reads
  exact reads

/-- A kernel that delivers at most two bytes at a time. -/
def twoByTwo : Kernel where
  read _ n left := .bytes (min 2 (min n left))
  fstat := .ok ⟨.regular, 3, 0, 0⟩
  read_bytes := by
    rintro _ n left k answer positive
    injection answer with same
    omega
  read_fails := nofun
  fstat_fails := nofun

theorem readToString_reads_twoByTwo :
    ∃ out, (∀ content, (new (.ok [97, 98, 99]) ⟨List.replicate kBufferSize 0, List.length_replicate⟩).readToString
          twoByTwo 5 content ⟨some 0, none, none⟩ = .ok out) ∧
      Reads [97, 98, 99] [] 5 out ∧ ((0 : Nat) = 0 → Reads [97, 98, 99] [] 5 out) :=
  readToString_reads twoByTwo (new (.ok [97, 98, 99]) ⟨List.replicate kBufferSize 0, List.length_replicate⟩) rfl
    (by decide) (by decide) ⟨some 0, none, none⟩

/-! ### `GetFileContent` -/

def kReadBufSize : Nat := 1024 * 5

/-- `std::ifstream`. -/
structure Ifstream where
  bytes : List Byte
  pos : Nat
  good : Bool
  deriving DecidableEq, Repr

/-- `read`: all that was asked for while it is available. -/
def Ifstream.read (f : Ifstream) (n : Nat) : List Byte × Ifstream :=
  if f.good then
    let got := (f.bytes.drop f.pos).take n
    (got, { f with pos := f.pos + got.length, good := got.length = n })
  else
    ([], f)

/-- The loop of `GetFileContent`; `none` if it has not ended after `fuel` rounds. -/
def contentLoop (readNum cur : Nat) : Nat → Ifstream → List Byte → Option (List Byte)
  | 0, _, _ => none
  | fuel + 1, f, content =>
    if 0 < readNum then
      let (got, f) := f.read readNum
      contentLoop readNum cur fuel f (store content cur got)
    else
      some content

/-- `GetFileContent` of a file with these bytes, or of one that cannot be opened. -/
def getFileContent (fuel : Nat) (file : Option (List Byte)) : Comp ReaderFault (Option (List Byte)) := do
  let bytes ← demand .notOpen file
  let fileSize := bytes.length
  -- the character `0`, not a null
  let content := List.replicate fileSize 48
  let cur := 0
  let readNum := (fileSize - cur) / kReadBufSize
  return contentLoop readNum cur fuel ⟨bytes, 0, true⟩ content

/-- `readNum` is never changed. -/
theorem contentLoop_endless {readNum : Nat} (positive : 0 < readNum) (cur fuel : Nat) (f : Ifstream)
    (content : List Byte) :
    contentLoop readNum cur fuel f content = none := by
  induction fuel generalizing f content with
  | zero => rfl
  | succ fuel ih =>
    rw [contentLoop, if_pos positive]
    exact ih (f.read readNum).2 (store content cur (f.read readNum).1)

theorem getFileContent_opened (fuel : Nat) (bytes : List Byte) :
    getFileContent fuel (some bytes) =
      .ok (contentLoop (bytes.length / kReadBufSize) 0 fuel ⟨bytes, 0, true⟩ (List.replicate bytes.length 48)) :=
  rfl

theorem getFileContent_large {bytes : List Byte} (large : kReadBufSize ≤ bytes.length) (fuel : Nat) :
    getFileContent fuel (some bytes) = .ok none := by
  rw [getFileContent_opened, contentLoop_endless (Nat.div_pos large (by decide))]

theorem getFileContent_small {bytes : List Byte} (small : bytes.length < kReadBufSize) (fuel : Nat) :
    getFileContent (fuel + 1) (some bytes) = .ok (some (List.replicate bytes.length 48)) := by
  rw [getFileContent_opened, Nat.div_eq_of_lt small]
  rfl

/-- Nothing of a small file is read, and a larger one is read for ever. -/
theorem getFileContent_iff (bytes : List Byte) :
    (∃ fuel, getFileContent fuel (some bytes) = .ok (some bytes)) ↔
      bytes.length < kReadBufSize ∧ ∀ b ∈ bytes, b = 48 := by
  constructor
  · rintro ⟨fuel, returned⟩
    have small : bytes.length < kReadBufSize := by
      by_contra large
      rw [getFileContent_large (Nat.le_of_not_lt large)] at returned
      cases returned
    refine ⟨small, ?_⟩
    cases fuel with
    | zero => cases returned
    | succ fuel =>
      rw [getFileContent_small small] at returned
      injection returned with same
      injection same with same
      exact (List.eq_replicate_iff.mp same.symm).2
  · rintro ⟨small, zeros⟩
    refine ⟨1, ?_⟩
    rw [getFileContent_small small, ← List.eq_replicate_of_mem zeros]

/-- The file `a` comes back as `0`, and no fuel is enough for 5120 bytes. -/
theorem getFileContent_wrong :
    getFileContent 1 (some [97]) = .ok (some [48]) ∧
      ∀ fuel, getFileContent fuel (some (List.replicate 5120 97)) = .ok none := by
  refine ⟨rfl, fun fuel => getFileContent_large ?_ fuel⟩
  rw [List.length_replicate]
  exact Nat.le_refl _

end FileReader

end Rnet.File
