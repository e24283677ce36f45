import Rnet.Lib.Run
import Rnet.Http.SplitStringView

/-!
# The request parser

`http::HttpParser` and the part of `http::HttpRequest` it fills. `parse` is called with the bytes of one
read. It looks for the line ends in them, passes each line to `parseOneLine`, and carries what lies
behind the last line end over to the next call in `temp_line_`.

An index into the pieces of a line is checked here, and so is every range of the bytes that is appended
to `temp_line_`: the source does not check them.
-/
namespace Rnet.Http

open Check Cut Memory
open File (Byte)

def kCr : Byte := 13
def kLf : Byte := 10
def kSpace : Byte := 32
def kColon : Byte := 58

/-- `"\r\n"`. -/
def crlf : Mark Byte := .pair kCr kLf (by decide)

structure HttpRequest where
  version : List Byte
  method : List Byte
  uri : List Byte
  readBuffer : List Byte
  headers : List (List Byte × List Byte)
  deriving DecidableEq, Repr

namespace HttpRequest

def new : HttpRequest := ⟨[], [], [], [], []⟩

def getHeader (req : HttpRequest) (key : List Byte) : Option (List Byte) := req.headers.lookup key

/-- `unordered_map::insert`, which leaves a key that is there as it is. -/
def addHeader (req : HttpRequest) (header : List Byte × List Byte) : HttpRequest :=
  if (req.getHeader header.1).isSome then req else { req with headers := req.headers ++ [header] }

def addBuffer (req : HttpRequest) (buffer : List Byte) : HttpRequest :=
  { req with readBuffer := req.readBuffer ++ buffer }

end HttpRequest

inductive ParseFault where
  /-- `str_vec[ i ]` with `i` not below the number of pieces. -/
  | piece
  /-- A range outside of `[ begin, end ]`, or one that ends before it starts. -/
  | range
  deriving DecidableEq, Repr

inductive Result where
  | intermidiate
  | finish
  | error
  deriving DecidableEq, Repr

inductive ParseState where
  | start
  | lineOpen
  deriving DecidableEq, Repr

/-- The parser with the request it is called with, and the lines it has completed so far. -/
structure HttpParser where
  tempLine : List Byte
  state : ParseState
  request : HttpRequest
  lines : List (List Byte)
  deriving DecidableEq, Repr

/-- What `parse` returns; the iterator is a position in the bytes of the call. -/
structure Parsed where
  result : Result
  itr : Nat
  parser : HttpParser
  deriving DecidableEq, Repr

/-- The bytes of `[ first, last )`. -/
def range (view : List Byte) (first last : Nat) : Comp ParseFault (List Byte) := do
  ensure .range (first ≤ last ∧ last ≤ view.length)
  return slice view first last

namespace HttpParser

def new : HttpParser := ⟨[], .start, .new, []⟩

def parseOneLine (p : HttpParser) (line : List Byte) : Comp ParseFault (Result × HttpParser) :=
  match p.state with
  | .start => do
    let strVec := splitStringView line kSpace
    let method ← demand .piece strVec[0]?
    let uri ← demand .piece strVec[1]?
    let version ← demand .piece strVec[2]?
    return (.intermidiate, { p with
      state := .lineOpen, request := { p.request with method := method, uri := uri, version := version } })
  | .lineOpen =>
    if line = [] then
      return (.finish, p)
    else do
      let strVec := splitStringView line kColon
      let name ← demand .piece strVec[0]?
      let value ← demand .piece strVec[1]?
      return (.intermidiate, { p with request := p.request.addHeader (name, value) })

/-- The loop of `parse` and what comes after it. -/
def parseLoop (p : HttpParser) (view : List Byte) (lastPos : Nat) : Comp ParseFault Parsed :=
  match _found : if lastPos < view.length then crlf.findFrom? view lastPos else none with
  | some pos => do
    let piece ← range view lastPos pos
    let line := p.tempLine ++ piece
    let (parseResult, p) ← p.parseOneLine line
    let p := { p with tempLine := [], lines := p.lines ++ [line] }
    match parseResult with
    | .intermidiate => parseLoop p view (pos + 2)
    -- the iterator is at the line end of the empty line
    | .finish => return ⟨.finish, pos, p⟩
    | .error => return ⟨.error, view.length, p⟩
  | none => do
    -- `last_pos` is never `npos`, so that two bytes are left out in every case
    let rest ← range view (lastPos + 2) view.length
    return ⟨.intermidiate, view.length, { p with tempLine := p.tempLine ++ rest }⟩
termination_by view.length - lastPos
decreasing_by
  split at _found
  · have bound : lastPos ≤ pos ∧ pos + 2 ≤ view.length := findFrom?_bound _found
    omega
  · cases _found

def parse (p : HttpParser) (view : List Byte) : Comp ParseFault Parsed := p.parseLoop view 0

/-! ### The loop, line by line -/

/-- What the loop makes of the bytes from `pos` on, given by their lines and what follows the last one. -/
def readLines (p : HttpParser) (tail : List Byte) (pos : Nat) : List (List Byte) → Comp ParseFault Parsed
  | [] => do
    ensure .range (2 ≤ tail.length)
    return ⟨.intermidiate, pos + tail.length, { p with tempLine := p.tempLine ++ tail.drop 2 }⟩
  | body :: bodies => do
    let line := p.tempLine ++ body
    let (parseResult, p) ← p.parseOneLine line
    let p := { p with tempLine := [], lines := p.lines ++ [line] }
    match parseResult with
    | .intermidiate => p.readLines tail (pos + body.length + 2) bodies
    | .finish => return ⟨.finish, pos + body.length, p⟩
    | .error => return ⟨.error, pos + (marked crlf (body :: bodies)).length + tail.length, p⟩

theorem range_between (front cells rest : List Byte) :
    range (front ++ (cells ++ rest)) front.length (front.length + cells.length) = .ok cells := by
  have inside : front.length ≤ front.length + cells.length ∧
      front.length + cells.length ≤ (front ++ (cells ++ rest)).length := by
    simp only [List.length_append]
    omega
  rw [range, ensure, if_pos inside, slice_between]
  rfl

theorem range_behind (front tail : List Byte) :
    range (front ++ tail) (front.length + 2) (front ++ tail).length = do
      ensure .range (2 ≤ tail.length)
      return tail.drop 2 := by
  have same : front.length + 2 ≤ (front ++ tail).length ∧ (front ++ tail).length ≤ (front ++ tail).length ↔
      2 ≤ tail.length := by
    rw [List.length_append]
    omega
  have behind : slice (front ++ tail) (front.length + 2) (front ++ tail).length = tail.drop 2 := by
    rw [← slice_drop, slice_end]
  simp only [range, ensure, same, behind]

theorem findFrom?_guarded (view : List Byte) (lastPos : Nat) :
    (if lastPos < view.length then crlf.findFrom? view lastPos else none) = crlf.findFrom? view lastPos := by
  split
  · rfl
  next outside =>
    rw [Mark.findFrom?, List.drop_eq_nil_of_le (by omega)]
    rfl

theorem parseLoop_eq {rest : List Byte} {bodies : List (List Byte)} {tail : List Byte}
    (cut : IsCut crlf rest bodies tail) (p : HttpParser) (front : List Byte) :
    p.parseLoop (front ++ rest) front.length = p.readLines tail front.length bodies := by
  induction bodies generalizing p front rest with
  | nil =>
    obtain rfl : tail = rest := cut.whole
    rw [parseLoop]
    split
    next pos found =>
      rw [findFrom?_guarded, findFrom?_free front cut.tail_free] at found
      cases found
    next =>
      rw [range_behind, readLines, List.length_append]
      simp only [bind_assoc, pure_bind]
  | cons body bodies ih =>
    obtain ⟨behind, free, rfl⟩ := cut.rest
    have nearest := findFrom?_line front free (marked crlf bodies ++ tail)
    have reached : front.length + body.length + 2 = (front ++ (body ++ crlf.text)).length := by
      have two : crlf.text.length = 2 := rfl
      simp only [List.length_append, two]
      omega
    rw [parseLoop]
    split
    next pos found =>
      rw [findFrom?_guarded] at found
      obtain rfl : front.length + body.length = pos := Option.some.inj (nearest.symm.trans found)
      rw [range_between, readLines]
      change (p.parseOneLine (p.tempLine ++ body) >>= _) = _
      refine congrArg _ (funext fun answer => ?_)
      obtain ⟨parseResult, q⟩ := answer
      cases parseResult with
      | intermidiate =>
        have later := ih behind { q with tempLine := [], lines := q.lines ++ [p.tempLine ++ body] }
          (front ++ (body ++ crlf.text))
        simp only [List.append_assoc] at later
        rw [← reached] at later
        exact later
      | finish => rfl
      | error =>
        simp only [marked_cons, List.length_append]
        congr 2
        omega
    next found =>
      rw [findFrom?_guarded, nearest] at found
      cases found

/-- `parse` reads the lines that end in its bytes. -/
theorem parse_eq {view : List Byte} {bodies : List (List Byte)} {tail : List Byte}
    (cut : IsCut crlf view bodies tail) (p : HttpParser) : p.parse view = p.readLines tail 0 bodies :=
  parseLoop_eq cut p []

/-! ### One line -/

end HttpParser

/-- The line has as many pieces as the parser looks at. -/
def Takes : ParseState → List Byte → Prop
  | .start, line => 2 ≤ line.count kSpace
  | .lineOpen, line => line = [] ∨ kColon ∈ line

instance Takes.decidable : ∀ state line, Decidable (Takes state line)
  | .start, line => inferInstanceAs (Decidable (2 ≤ line.count kSpace))
  | .lineOpen, line => inferInstanceAs (Decidable (line = [] ∨ kColon ∈ line))

/-- The `i`-th piece of a line that has it. -/
def pieceAt (line : List Byte) (delimeter : Byte) (i : Nat) : List Byte := (splitStringView line delimeter).getD i []

/-- The empty line behind the headers. -/
def verdict (state : ParseState) (line : List Byte) : Result :=
  if state = .lineOpen ∧ line = [] then .finish else .intermidiate

theorem length_splitStringView {line : List Byte} (nonempty : line ≠ []) (d : Byte) :
    (splitStringView line d).length = line.count d + 1 := by
  have cut := isCut_cut (.single d) line
  rw [splitStringView_eq nonempty cut, List.length_append, List.length_singleton, count_eq cut]

theorem ne_nil_of_count {line : List Byte} {d : Byte} (occurs : 0 < line.count d) : line ≠ [] := by
  rintro rfl
  cases occurs

theorem piece_present {line : List Byte} {d : Byte} {i : Nat} (nonempty : line ≠ []) (enough : i ≤ line.count d) :
    demand ParseFault.piece (splitStringView line d)[i]? = .ok (pieceAt line d i) := by
  have inside : i < (splitStringView line d).length := by
    rw [length_splitStringView nonempty]
    omega
  rw [pieceAt, List.getD_eq_getElem?_getD, List.getElem?_eq_getElem inside]
  rfl

theorem piece_absent {line : List Byte} {d : Byte} {i : Nat} (few : line.count d < i) :
    demand ParseFault.piece (splitStringView line d)[i]? = .error (.fault .piece) := by
  have outside : (splitStringView line d).length ≤ i := by
    by_cases nonempty : line = []
    · rw [nonempty, splitStringView, if_pos rfl]
      exact Nat.zero_le i
    · rw [length_splitStringView nonempty]
      omega
  rw [List.getElem?_eq_none outside]
  rfl

namespace HttpParser

variable {p : HttpParser}

/-- The parser after a line that it takes. -/
def fill (p : HttpParser) (line : List Byte) : HttpParser :=
  match p.state with
  | .start => { p with
      state := .lineOpen
      request := { p.request with
        method := pieceAt line kSpace 0, uri := pieceAt line kSpace 1, version := pieceAt line kSpace 2 } }
  | .lineOpen =>
    if line = [] then p
    else { p with request := p.request.addHeader (pieceAt line kColon 0, pieceAt line kColon 1) }

theorem parseOneLine_takes {line : List Byte} (takes : Takes p.state line) :
    p.parseOneLine line = .ok (verdict p.state line, p.fill line) := by
  rw [parseOneLine, fill]
  cases state : p.state with
  | start =>
    rw [state] at takes
    have two : 2 ≤ line.count kSpace := takes
    have one : 1 ≤ line.count kSpace := by omega
    have nonempty : line ≠ [] := ne_nil_of_count one
    simp only [piece_present nonempty (Nat.zero_le _), piece_present nonempty one, piece_present nonempty two]
    rfl
  | lineOpen =>
    rw [state] at takes
    by_cases last : line = []
    · simp only [last, if_true, verdict]
      rfl
    · have colon : 1 ≤ line.count kColon := List.count_pos_iff.mpr (takes.resolve_left last)
      simp only [piece_present last (Nat.zero_le _), piece_present last colon, verdict, last, and_false, if_false]
      rfl

theorem parseOneLine_fault {line : List Byte} (refuses : ¬ Takes p.state line) :
    p.parseOneLine line = .error (.fault .piece) := by
  rw [parseOneLine]
  cases state : p.state with
  | start =>
    rw [state] at refuses
    have few : line.count kSpace < 2 := Nat.lt_of_not_le refuses
    -- the pieces in front of the missing one may be there or not
    simp only [piece_absent few]
    cases (splitStringView line kSpace)[0]? with
    | none => rfl
    | some method =>
      cases (splitStringView line kSpace)[1]? with
      | none => rfl
      | some uri => rfl
  | lineOpen =>
    rw [state] at refuses
    have full : line ≠ [] := fun last => refuses (Or.inl last)
    have missing : line.count kColon < 1 := by
      rw [Nat.lt_one_iff, List.count_eq_zero]
      exact fun colon => refuses (Or.inr colon)
    simp only [if_neg full, piece_present full (Nat.zero_le _), piece_absent missing]
    rfl

/-- The parser after a line that it takes, with the line recorded and nothing carried over. -/
def accept (p : HttpParser) (line : List Byte) : HttpParser :=
  { p.fill line with tempLine := [], lines := p.lines ++ [line] }

@[simp] theorem accept_tempLine (p : HttpParser) (line : List Byte) : (p.accept line).tempLine = [] := rfl

@[simp] theorem accept_lines (p : HttpParser) (line : List Byte) : (p.accept line).lines = p.lines ++ [line] := rfl

@[simp] theorem accept_state (p : HttpParser) (line : List Byte) : (p.accept line).state = .lineOpen := by
  simp only [accept, fill]
  cases state : p.state with
  | start => rfl
  | lineOpen =>
    simp only
    split
    · exact state
    · rfl

theorem fill_lines (p : HttpParser) (line : List Byte) : (p.fill line).lines = p.lines := by
  rw [fill]
  cases p.state with
  | start => rfl
  | lineOpen =>
    simp only
    split <;> rfl

variable {tail body : List Byte} {bodies : List (List Byte)} {pos : Nat}

theorem readLines_finish (takes : Takes p.state (p.tempLine ++ body))
    (last : verdict p.state (p.tempLine ++ body) = .finish) :
    p.readLines tail pos (body :: bodies) = .ok ⟨.finish, pos + body.length, p.accept (p.tempLine ++ body)⟩ := by
  rw [readLines, parseOneLine_takes takes, last, accept, ← fill_lines p (p.tempLine ++ body)]
  rfl

theorem readLines_intermidiate (takes : Takes p.state (p.tempLine ++ body))
    (more : verdict p.state (p.tempLine ++ body) = .intermidiate) :
    p.readLines tail pos (body :: bodies) =
      (p.accept (p.tempLine ++ body)).readLines tail (pos + body.length + 2) bodies := by
  rw [readLines, parseOneLine_takes takes, more, accept, ← fill_lines p (p.tempLine ++ body)]
  rfl

theorem readLines_fault (refuses : ¬ Takes p.state (p.tempLine ++ body)) :
    p.readLines tail pos (body :: bodies) = .error (.fault .piece) := by
  rw [readLines, parseOneLine_fault refuses]
  rfl

end HttpParser

theorem verdict_cases (state : ParseState) (line : List Byte) :
    verdict state line = .finish ∨ verdict state line = .intermidiate := by
  rw [verdict]
  split
  · exact Or.inl rfl
  · exact Or.inr rfl

end Rnet.Http
