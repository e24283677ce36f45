import Rnet.Lib.Cut
import Rnet.File.BufferRefinement

/-!
# Lines in a buffer

`FindCrlf` and `FindEol` look for a line end between the reader and the writer index, from the
start of the content or from a pointer into it. The bytes behind the writer index are stale, and
a line end that begins in the content and ends there is none. On every buffer that calls within
the asserts can reach, the line end found is the first one, and `RetrieveUntil` behind it takes
away the line and nothing else.

`std::search` has to tell "not found" from "found at the end", which it returns in both cases; a
line end is not empty, so the second does not occur.
-/
namespace Rnet.File

open Check Run Memory Cut

/-- The asserts of the searches that get a pointer. -/
inductive SearchAssert where
  | findCrlfPeek
  | findCrlfBeginWrite
  | findEolPeek
  | findEolBeginWrite
  deriving DecidableEq, Repr

namespace Buffer

variable {b : Buffer} {content : List Byte} {m : Mark Byte}

def kCRLF : Mark Byte := .pair 13 10 (by decide)

/-- The `'\n'` of `FindEol`. -/
def kLF : Mark Byte := .single 10

/-- `std::search` from `start` to `BeginWrite()`, which is what it returns if there is nothing. -/
def search (b : Buffer) (m : Mark Byte) (start : Nat) : Nat :=
  match m.find? (slice b.buffer start b.beginWrite) with
  | some i => start + i
  | none => b.beginWrite

/-- `memchr` from `start` to `BeginWrite()`. -/
def memchr (b : Buffer) (m : Mark Byte) (start : Nat) : Option Nat :=
  (m.find? (slice b.buffer start b.beginWrite)).map (start + ·)

def findCrlf (b : Buffer) : Option Nat :=
  let crlf := b.search kCRLF b.peek
  if crlf = b.beginWrite then none else some crlf

def findCrlfFrom (b : Buffer) (start : Nat) : Comp SearchAssert (Option Nat) := do
  ensure .findCrlfPeek (b.peek ≤ start)
  ensure .findCrlfBeginWrite (start ≤ b.beginWrite)
  let crlf := b.search kCRLF start
  return if crlf = b.beginWrite then none else some crlf

def findEol (b : Buffer) : Option Nat := b.memchr kLF b.peek

def findEolFrom (b : Buffer) (start : Nat) : Comp SearchAssert (Option Nat) := do
  ensure .findEolPeek (b.peek ≤ start)
  ensure .findEolBeginWrite (start ≤ b.beginWrite)
  return b.memchr kLF start

/-! ### The searches over the content -/

/-- The pointer to position `i` of the content. -/
def pointer (b : Buffer) (i : Nat) : Nat := b.peek + i

/-- What is left of the content from a pointer on. -/
theorem Represents.slice (r : b.Represents content) (k : Nat) :
    Memory.slice b.buffer (b.pointer k) b.beginWrite = content.drop k := by
  rw [← r.content_eq, readable, slice_drop]
  rfl

theorem Represents.memchr_eq (r : b.Represents content) (k : Nat) :
    b.memchr m (b.pointer k) = (m.findFrom? content k).map b.pointer := by
  rw [memchr, r.slice, Mark.findFrom?, Option.map_map]
  congr 1
  funext i
  exact Nat.add_assoc b.peek k i

/-- A line end that is found lies before `BeginWrite()`, so that the comparison is right. -/
theorem Represents.search_eq (r : b.Represents content) {k : Nat} (within : k ≤ content.length) :
    (if b.search m (b.pointer k) = b.beginWrite then none else some (b.search m (b.pointer k))) =
      (m.findFrom? content k).map b.pointer := by
  rw [search, ← r.memchr_eq k, memchr, r.slice]
  cases found : m.find? (content.drop k) with
  | none => simp
  | some i =>
    -- the mark is not empty, so it begins before the end of what was searched
    have bound := find?_bound found
    have mark := length_pos m
    have size := r.length
    rw [List.length_drop] at bound
    have before : b.pointer k + i ≠ b.beginWrite := by
      simp only [pointer, peek, beginWrite, readableBytes] at *
      omega
    simp [before]

theorem Represents.start_within (r : b.Represents content) {k : Nat} (within : k ≤ content.length) :
    b.peek ≤ b.pointer k ∧ b.pointer k ≤ b.beginWrite := by
  have size := r.length
  have order := r.order
  simp only [pointer, peek, beginWrite, readableBytes] at *
  omega

theorem Represents.findCrlfFrom_eq (r : b.Represents content) {k : Nat} (within : k ≤ content.length) :
    b.findCrlfFrom (b.pointer k) = .ok ((kCRLF.findFrom? content k).map b.pointer) := by
  obtain ⟨low, high⟩ := r.start_within within
  simp only [findCrlfFrom, ensure, low, high, ite_true, r.search_eq within]
  rfl

theorem Represents.findEolFrom_eq (r : b.Represents content) {k : Nat} (within : k ≤ content.length) :
    b.findEolFrom (b.pointer k) = .ok ((kLF.findFrom? content k).map b.pointer) := by
  obtain ⟨low, high⟩ := r.start_within within
  simp only [findEolFrom, ensure, low, high, ite_true, r.memchr_eq]
  rfl

theorem findFrom?_zero (l : List Byte) : m.findFrom? l 0 = m.find? l := by
  simp [Mark.findFrom?]

theorem Represents.findCrlf_eq (r : b.Represents content) : b.findCrlf = (kCRLF.find? content).map b.pointer := by
  have searched := r.search_eq (m := kCRLF) (Nat.zero_le _)
  rw [findFrom?_zero] at searched
  exact searched

theorem Represents.findEol_eq (r : b.Represents content) : b.findEol = (kLF.find? content).map b.pointer := by
  have searched := r.memchr_eq (m := kLF) 0
  rw [findFrom?_zero] at searched
  exact searched

/-! ### The first line -/

/-- What the result of a search says about the content, and what can be done with it. -/
structure FirstLine (m : Mark Byte) (b : Buffer) (found : Option Nat) : Prop where
  absent : found = none ↔ Free m b.readable
  line : ∀ p, found = some p → ∃ line rest, Free m line ∧ b.readable = line ++ (m.text ++ rest) ∧
    p = b.peek + line.length ∧ Returns (fun after => after.readable = rest) (b.retrieveUntil (p + m.text.length))

theorem Represents.firstLine (r : b.Represents content) :
    FirstLine m b ((m.find? content).map b.pointer) := by
  have same := r.content_eq
  rcases free_or_line m content with free | ⟨line, rest, free, rfl⟩
  · rw [find?_free free]
    refine ⟨iff_of_true rfl (same ▸ free), fun p found => ?_⟩
    cases found
  · -- the search stops at the first mark, and `RetrieveUntil` behind it drops the line
    rw [find?_line free]
    constructor
    · refine iff_of_false (by simp) (same ▸ fun absent => absent ?_)
      exact ⟨line, rest, by rw [List.append_assoc]⟩
    · rintro p found
      obtain rfl : b.pointer line.length = p := Option.some.inj found
      have size := r.length
      have order := r.order
      have low : b.peek ≤ b.pointer line.length + m.text.length := by
        simp only [pointer]
        omega
      have high : b.pointer line.length + m.text.length ≤ b.beginWrite := by
        simp only [List.length_append, pointer, peek, beginWrite, readableBytes] at *
        omega
      refine ⟨line, rest, free, same, rfl, (retrieveUntil_returns r _ low high).mono fun after spec => ?_⟩
      have taken : b.pointer line.length + m.text.length - b.peek = (line ++ m.text).length := by
        rw [List.length_append, pointer]
        omega
      rw [spec.1.content_eq, taken, ← List.append_assoc, List.drop_left]

end Buffer

/-- In every session, `FindCrlf` and `FindEol` find the first line end of the content, and none
only if there is none; `RetrieveUntil` behind it is within its asserts and leaves what follows. -/
theorem lines_found (initialSize : Nat) (ops : List BufferOp)
    (allowed : ∀ b, Buffer.new initialSize = .ok b →
      Meets Session.step (fun s op => op.Allowed s) ⟨b, []⟩ ops) :
    Returns (fun s => Buffer.FirstLine Buffer.kCRLF s.buffer s.buffer.findCrlf ∧
      Buffer.FirstLine Buffer.kLF s.buffer s.buffer.findEol) (session initialSize ops) := by
  refine (session_simulates initialSize ops allowed).mono fun s sim => ?_
  rw [sim.represents.findCrlf_eq, sim.represents.findEol_eq]
  exact ⟨sim.represents.firstLine, sim.represents.firstLine⟩

/-- A line end that comes in two parts, in a buffer that has to grow for the second. -/
def cutLine : List BufferOp := [.append [65, 66, 13], .retrieve 1, .append [10, 67, 13, 10]]

theorem cutLine_allowed (n : Nat) (few : n ≤ 3) : ∀ b, Buffer.new 4 = .ok b →
    Meets Session.step (fun s op => op.Allowed s) ⟨b, []⟩ (cutLine.take n) := by
  intro b constructed
  cases constructed
  interval_cases n <;> decide +kernel

theorem lines_found_cutLine :
    ∃ s, session 4 cutLine = .ok s ∧ s.buffer.findCrlf = some (s.buffer.peek + 1) ∧
      Buffer.FirstLine Buffer.kCRLF s.buffer s.buffer.findCrlf := by
  have last : (session 4 cutLine).toOption.map (fun s => (s.buffer.findCrlf, s.buffer.peek)) =
      some (some 10, 9) := by decide +kernel
  obtain ⟨s, reached, ended⟩ := returned_of_map last
  simp only [Prod.mk.injEq] at ended
  have found := Safe.result (Returns.safe (lines_found 4 cutLine (cutLine_allowed 3 (Nat.le_refl 3)))) reached
  exact ⟨s, reached, by rw [ended.1, ended.2], found.1⟩

/-! ### Searching again -/

/-- A search that found nothing need not be repeated from the start when more bytes have come,
wherever `Append` has moved the content: `FindCrlf` may go on at the last byte it saw, which may
be half a line end, and `FindEol` behind it. -/
theorem searches_resume (initialSize : Nat) (ops : List BufferOp) (data : List Byte)
    (allowed : ∀ b, Buffer.new initialSize = .ok b →
      Meets Session.step (fun s op => op.Allowed s) ⟨b, []⟩ ops) :
    Returns (fun s => Returns (fun b =>
        (s.buffer.findCrlf = none →
          b.findCrlfFrom (b.peek + (s.buffer.readableBytes - 1)) = .ok b.findCrlf) ∧
        (s.buffer.findEol = none → b.findEolFrom (b.peek + s.buffer.readableBytes) = .ok b.findEol))
      (s.buffer.append data)) (session initialSize ops) := by
  refine (session_simulates initialSize ops allowed).mono fun s sim => ?_
  have before := sim.represents
  refine (Buffer.append_returns before data).mono fun b spec => ?_
  have after := spec.1
  rw [after.findCrlf_eq, after.findEol_eq, before.findCrlf_eq, before.findEol_eq, ← before.length]
  have longer (k : Nat) : (ops.foldl Text.step Text.empty).content.length - k ≤
      ((ops.foldl Text.step Text.empty).content ++ data).length := by
    rw [List.length_append]
    omega
  -- no line end begins in the part that is skipped: it would lie in the content searched before
  constructor
  · intro missing
    have free := find?_eq_none.mp (Option.map_eq_none_iff.mp missing)
    refine (after.findCrlfFrom_eq (longer 1)).trans ?_
    rw [← find?_resumed free data]
    rfl
  · intro missing
    have free := find?_eq_none.mp (Option.map_eq_none_iff.mp missing)
    refine (after.findEolFrom_eq (longer 0)).trans ?_
    rw [← find?_resumed free data]
    rfl

/-- The carriage return was the last byte of the first search. -/
theorem searches_resume_cutLine :
    ∃ s b, session 4 (cutLine.take 2) = .ok s ∧ s.buffer.findCrlf = none ∧ s.buffer.readableBytes = 2 ∧
      s.buffer.append [10] = .ok b ∧ b.findCrlf = some (b.peek + 1) ∧
      b.findCrlfFrom (b.peek + (2 - 1)) = .ok b.findCrlf := by
  have first : (session 4 (cutLine.take 2)).toOption.map (fun s => (s.buffer.findCrlf, s.buffer.readableBytes)) =
      some (none, 2) := by decide +kernel
  have second : (session 4 (cutLine.take 2) >>= fun s => s.buffer.append [10]).toOption.map
      (fun b => (b.findCrlf, b.peek)) = some (some 10, 9) := by decide +kernel
  obtain ⟨s, reached, absent⟩ := returned_of_map first
  simp only [Prod.mk.injEq] at absent
  obtain ⟨b, grown, found⟩ := returned_of_map second
  simp only [Prod.mk.injEq] at found
  rw [reached] at grown
  have appended : s.buffer.append [10] = .ok b := grown
  have resumes := Safe.result (Returns.safe (searches_resume 4 (cutLine.take 2) [10]
    (cutLine_allowed 2 (by decide)))) reached
  have resumed := (Safe.result (Returns.safe resumes) appended).1 absent.1
  rw [absent.2] at resumed
  exact ⟨s, b, reached, absent.1, absent.2, appended, by rw [found.1, found.2], resumed⟩

end Rnet.File
