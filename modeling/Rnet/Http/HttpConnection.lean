import Rnet.Lib.Numeral
import Rnet.Http.RequestHead

/-!
# A connection of the HTTP server

`http::HttpConnection`: the handler of `async_read_some` is a `switch` over the state of the connection
whose cases fall through to the next one. So the code for the body is also run after a call of the parser
that has not found the end of the head, and the request is handled at the end of every read.

The parser is a parameter, with `HttpParser` as one instance of it.
-/
namespace Rnet.Http

open Check Cut Memory
open File (Byte)

/-- What `request_parser_.parse` does: the result, the iterator, the parser and the request. -/
structure Parser (σ : Type) where
  init : σ
  parse : σ → HttpRequest → List Byte → Comp ParseFault (Result × Nat × σ × HttpRequest)

def httpParser : Parser HttpParser where
  init := .new
  parse p req view := do
    let r ← HttpParser.parse { p with request := req } view
    return (r.result, r.itr, r.parser, r.parser.request)

inductive ConnState where
  | parse
  | readBuffer
  | readFinish
  | error
  deriving DecidableEq, Repr

inductive ConnFault where
  | parser (f : ParseFault)
  /-- `std::stoi` throws. -/
  | stoi
  /-- A view that reaches behind what it is of. -/
  | range
  /-- `need_read_` leaves `int32_t`. -/
  | overflow
  deriving DecidableEq, Repr

/-! ### `std::stoi` -/

def isSpace (c : Byte) : Bool := c = 32 ∨ (9 ≤ c ∧ c ≤ 13)

def isDigit (c : Byte) : Bool := 48 ≤ c ∧ c ≤ 57

def stoi (text : List Byte) : Option Int :=
  let rest := text.dropWhile isSpace
  let (negative, rest) := match rest with
    | 45 :: rest => (true, rest)
    | 43 :: rest => (false, rest)
    | rest => (false, rest)
  let digits := rest.takeWhile isDigit
  let value : Int := Numeral.read 10 (digits.map fun c => c.toNat - 48)
  let value := if negative then -value else value
  if digits ≠ [] ∧ -2 ^ 31 ≤ value ∧ value < 2 ^ 31 then some value else none

/-! ### The connection -/

def kBufferSize : Nat := 1024 * 8

structure HttpConnection (σ : Type) where
  connState : ConnState
  needRead : Int
  rbuffer : List Byte
  request : HttpRequest
  requestParser : σ
  response : HttpResponse
  /-- The reads whose handler has not run yet. -/
  pendingReads : Nat
  /-- History: how often `handleRequest` was called. -/
  handled : Nat
  /-- History: the buffers of every `async_write_some`. -/
  writes : List (List (List Byte))
  stopped : Bool

inductive Completion where
  | read (data : List Byte)
  | failed (aborted : Bool)
  deriving DecidableEq, Repr

/-- `decodeUri` leaves `out` as it is. -/
def decodeUri (_uri out : List Byte) : Bool × List Byte := (true, out)

def isValidatePath (path : List Byte) : Bool := ¬ (path.head? ≠ some 47 ∨ [46, 46] <:+: path)

namespace HttpConnection

variable {σ : Type} (P : Parser σ) (serve : List Byte → HttpResponse → HttpResponse)

def read (c : HttpConnection σ) : HttpConnection σ := { c with pendingReads := c.pendingReads + 1 }

/-- The connection after `start`. -/
def start : HttpConnection σ :=
  read ⟨.parse, 0, List.replicate kBufferSize 0, .new, P.init, .new, 0, 0, [], false⟩

def write (c : HttpConnection σ) : HttpConnection σ :=
  let (response, buffers) := c.response.toBuffers
  { c with response := response, writes := c.writes ++ [buffers] }

/-- `serve` is what comes after the test of the path. -/
def handleRequest (c : HttpConnection σ) : HttpConnection σ :=
  let (decoded, path) := decodeUri c.request.uri []
  let response := if !decoded || !isValidatePath path then .buildResponse .badRequest else serve path c.response
  { c with response := response, handled := c.handled + 1 }

/-- The view of `len` bytes from `rbuffer_.begin() + first` on. -/
def bytes (c : HttpConnection σ) (first len : Nat) : Comp ConnFault (List Byte) := do
  ensure .range (first + len ≤ c.rbuffer.length)
  return slice c.rbuffer first (first + len)

/-- `case PARSE`, with `content_offset` after it. -/
def caseParse (c : HttpConnection σ) (readBytes : Nat) : Comp ConnFault (HttpConnection σ × Nat) := do
  let view ← c.bytes 0 readBytes
  let (result, itr, requestParser, request) ← lift .parser (P.parse c.requestParser c.request view)
  let c := { c with requestParser := requestParser, request := request }
  match result with
  | .finish =>
    match c.request.getHeader kContentLength with
    | none => return ({ c with connState := .error, response := .buildResponse .badRequest }.write, 0)
    | some contentLen => do
      let needRead ← demand .stoi (stoi contentLen)
      ensure .range (itr ≤ readBytes)
      let body ← c.bytes itr (readBytes - itr)
      return ({ c with
        needRead := needRead, request := c.request.addBuffer body, connState := .readBuffer }, itr)
  | .intermidiate => return (c.read, 0)
  | .error => return ({ c with response := .buildResponse .badRequest, connState := .error }.write, 0)

def caseReadBuffer (c : HttpConnection σ) (readBytes contentOffset : Nat) : Comp ConnFault (HttpConnection σ) := do
  let needRead := c.needRead - (readBytes - contentOffset : Nat)
  ensure .overflow (-2 ^ 31 ≤ needRead)
  -- the length is that of the whole read, also where the view starts behind the head
  let body ← c.bytes contentOffset readBytes
  return { c with
    needRead := needRead
    request := c.request.addBuffer body
    connState := if needRead = 0 then .readFinish else c.connState }

def caseReadFinish (c : HttpConnection σ) : HttpConnection σ := (c.handleRequest serve).write

/-- The `switch`: every case but the last goes on with the next one. -/
def onRead (c : HttpConnection σ) (readBytes : Nat) : Comp ConnFault (HttpConnection σ) :=
  match c.connState with
  | .parse => do
    let (c, contentOffset) ← c.caseParse P readBytes
    let c ← c.caseReadBuffer readBytes contentOffset
    return c.caseReadFinish serve
  | .readBuffer => do
    let c ← c.caseReadBuffer readBytes 0
    return c.caseReadFinish serve
  | .readFinish => return c.caseReadFinish serve
  | .error => return c

/-- The handler of a read. -/
def step (c : HttpConnection σ) : Completion → Comp ConnFault (HttpConnection σ)
  | .read data => do
    require (0 < c.pendingReads ∧ data.length ≤ kBufferSize)
    { c with rbuffer := store c.rbuffer 0 data, pendingReads := c.pendingReads - 1 }.onRead P serve data.length
  | .failed aborted => do
    require (0 < c.pendingReads)
    return { c with pendingReads := c.pendingReads - 1, stopped := c.stopped || !aborted }

/-! ### What one request is to do -/

/-- The state of the connection when the bytes `received` of the head and the body have come in. -/
structure Served (head body received : List Byte) (c : HttpConnection σ) : Prop where
  stored : c.request.readBuffer = received.drop head.length
  waiting : received.length < head.length + body.length → c.handled = 0 ∧ c.writes = [] ∧ 0 < c.pendingReads
  counted : head.length ≤ received.length → received.length < head.length + body.length → c.needRead ≠ 0
  answered : received.length = head.length + body.length → c.needRead = 0 ∧ c.handled = 1 ∧ c.writes.length = 1

/-- After each read the connection is as it should be. -/
def OneResponse (head body : List Byte) (reads : List (List Byte)) : Prop :=
  ∀ first rest, reads = first ++ rest →
    ∃ c, Run.exec (step P serve) (start P) (first.map .read) = .ok c ∧ c.Served head body first.flatten

/-- The parser reports the end of the head where it is, `before` bytes having been passed to it already,
and has the length of the body then. -/
def Reports (head : RequestHead) (n : Nat) : σ → HttpRequest → Nat → List (List Byte) → Prop
  | _, _, _, [] => True
  | parser, req, before, view :: rest =>
    ∃ result itr after filled, P.parse parser req view = .ok (result, itr, after, filled) ∧
      filled.readBuffer = req.readBuffer ∧
      if before + view.length < head.serialize.length then
        result = .intermidiate ∧ Reports head n after filled (before + view.length) rest
      else
        result = .finish ∧ before + itr = head.serialize.length ∧
          filled.getHeader kContentLength = some (sizeText n)

variable {P serve}

/-- Every path is refused, since `decodeUri` leaves it empty. -/
theorem handleRequest_eq (c : HttpConnection σ) :
    c.handleRequest serve = { c with response := .buildResponse .badRequest, handled := c.handled + 1 } := rfl

theorem bytes_yields (c : HttpConnection σ) (first len : Nat) :
    Yields (fun view => first + len ≤ c.rbuffer.length ∧ view = slice c.rbuffer first (first + len))
      (c.bytes first len) := by
  simp only [bytes, yields_bind, yields_ensure, yields_pure]
  exact fun inside => ⟨inside, trivial⟩

/-- The first bytes of `rbuffer_` are those that were read last. -/
theorem bytes_read (c : HttpConnection σ) {data : List Byte} (rbuffer : ∃ old, c.rbuffer = store old 0 data) :
    Yields (fun view => view = data) (c.bytes 0 data.length) := by
  obtain ⟨old, same⟩ := rbuffer
  refine (c.bytes_yields 0 data.length).mono ?_
  rintro view ⟨inside, rfl⟩
  have stored := slice_store old 0 data (by rw [same, store_length] at inside; exact inside)
  rw [same]
  exact stored

/-- The body is appended, all of `readBytes` bytes. -/
theorem caseReadBuffer_yields (c : HttpConnection σ) (readBytes contentOffset : Nat) :
    Yields (fun after => after.handled = c.handled ∧ after.writes = c.writes ∧
      ∃ body, body.length = readBytes ∧ after.request = c.request.addBuffer body)
      (c.caseReadBuffer readBytes contentOffset) := by
  simp only [caseReadBuffer, yields_bind, yields_ensure]
  intro _
  refine (c.bytes_yields contentOffset readBytes).mono ?_
  rintro view ⟨inside, rfl⟩
  refine (yields_pure _ _).mpr ⟨rfl, rfl, _, ?_, rfl⟩
  rw [slice_length _ _ _ inside]
  omega

variable (serve) in
theorem caseReadFinish_history (c : HttpConnection σ) :
    (c.caseReadFinish serve).handled = c.handled + 1 ∧
      (c.caseReadFinish serve).writes.length = c.writes.length + 1 ∧
      (c.caseReadFinish serve).request = c.request := by
  rw [caseReadFinish, handleRequest_eq]
  refine ⟨rfl, ?_, rfl⟩
  simp [write]

variable {c : HttpConnection σ} {data : List Byte} {itr : Nat} {after : σ} {filled : HttpRequest}

theorem caseParse_intermidiate (rbuffer : ∃ old, c.rbuffer = store old 0 data)
    (parsed : P.parse c.requestParser c.request data = .ok (.intermidiate, itr, after, filled)) :
    Yields (fun r => r.1.handled = c.handled ∧ r.1.writes = c.writes ∧ r.1.request = filled)
      (c.caseParse P data.length) := by
  rw [caseParse]
  refine (c.bytes_read rbuffer).bind ?_
  rintro view rfl
  rw [parsed]
  exact (yields_pure _ _).mpr ⟨rfl, rfl, rfl⟩

theorem caseParse_finish (rbuffer : ∃ old, c.rbuffer = store old 0 data)
    (parsed : P.parse c.requestParser c.request data = .ok (.finish, itr, after, filled)) {contentLen : List Byte}
    (declared : filled.getHeader kContentLength = some contentLen) :
    Yields (fun r => r.1.handled = c.handled ∧ r.1.writes = c.writes ∧
      ∃ body, body.length = data.length - itr ∧ r.1.request = filled.addBuffer body)
      (c.caseParse P data.length) := by
  rw [caseParse]
  refine (c.bytes_read rbuffer).bind ?_
  rintro view rfl
  rw [parsed]
  simp only [lift, yields_bind, yields_ok, declared, yields_demand, yields_ensure, yields_pure]
  intro needRead _ before
  refine (bytes_yields _ itr (view.length - itr)).mono ?_
  rintro body ⟨inside, rfl⟩
  refine ⟨trivial, trivial, _, ?_, rfl⟩
  rw [slice_length _ _ _ inside]
  omega

/-- After any `case PARSE` a read goes on to the end: it stores as many bytes as were read, and answers. -/
theorem onRead_yields (serve : List Byte → HttpResponse → HttpResponse) (state : c.connState = .parse) {n : Nat}
    {Q : HttpRequest → Prop}
    (parses : Yields (fun r => r.1.handled = c.handled ∧ r.1.writes = c.writes ∧ Q r.1.request) (c.caseParse P n)) :
    Yields (fun after => after.handled = c.handled + 1 ∧ after.writes.length = c.writes.length + 1 ∧
        ∃ req body, Q req ∧ body.length = n ∧ after.request = req.addBuffer body)
      (c.onRead P serve n) := by
  simp only [onRead, state]
  refine parses.bind ?_
  rintro ⟨parsed, contentOffset⟩ ⟨handled, writes, request⟩
  refine (parsed.caseReadBuffer_yields n contentOffset).bind ?_
  rintro stored ⟨handled', writes', body, length, request'⟩
  obtain ⟨once, more, same⟩ := caseReadFinish_history serve stored
  refine (yields_pure _ _).mpr ⟨?_, ?_, parsed.request, body, request, length, same.trans request'⟩
  · rw [once, handled', handled]
  · rw [more, writes', writes]

/-- What the first read leaves. -/
structure Botched (head data : List Byte) (c : HttpConnection σ) : Prop where
  handled : c.handled = 1
  written : c.writes.length = 1
  stored : data ≠ [] → c.request.readBuffer ≠ data.drop head.length

/-- The first read has the request handled and answered, and it stores bytes of the head, or the
beginning of the body twice. -/
theorem first_botched (serve : List Byte → HttpResponse → HttpResponse) {head : RequestHead} {n : Nat}
    {rest : List (List Byte)}
    (reports : Reports P head n P.init .new 0 (data :: rest)) :
    Yields (Botched head.serialize data) (step P serve (start P) (.read data)) := by
  obtain ⟨result, itr, after, filled, parsed, clean, answer⟩ := reports
  simp only [step, yields_bind, yields_require]
  intro _
  rw [Nat.zero_add] at answer
  by_cases incomplete : data.length < head.serialize.length
  · rw [if_pos incomplete] at answer
    obtain ⟨rfl, _⟩ := answer
    refine (onRead_yields serve (Q := (· = filled)) rfl (caseParse_intermidiate ⟨_, rfl⟩ parsed)).mono ?_
    rintro c ⟨handled, written, req, body, rfl, length, request⟩
    refine ⟨handled, written, ?_⟩
    -- nothing of the body has come, and as many bytes are stored as were read
    rw [request, HttpRequest.addBuffer, clean, List.drop_eq_nil_of_le (by omega)]
    intro nonempty empty
    have positive : 0 < data.length := List.length_pos_iff.mpr nonempty
    have lengths := congrArg List.length empty
    rw [List.length_append, length, List.length_nil] at lengths
    omega
  · rw [if_neg incomplete] at answer
    obtain ⟨rfl, there, declared⟩ := answer
    refine (onRead_yields serve
      (Q := fun req => ∃ body : List Byte, body.length = data.length - itr ∧ req = filled.addBuffer body)
      rfl (caseParse_finish ⟨_, rfl⟩ parsed declared)).mono ?_
    rintro c ⟨handled, written, req, second, ⟨first, firstLength, rfl⟩, secondLength, request⟩
    refine ⟨handled, written, ?_⟩
    -- the body's beginning is stored, and then as many bytes again as were read
    rw [request, HttpRequest.addBuffer, HttpRequest.addBuffer, clean]
    intro nonempty whole
    have positive : 0 < data.length := List.length_pos_iff.mpr nonempty
    have lengths := congrArg List.length whole
    simp only [List.length_append, List.length_drop, firstLength, secondLength] at lengths
    omega

/-- A request is served by no connection: the first read is enough to see it. -/
theorem Botched.not_served {head body : List Byte} (botched : Botched head data c)
    (nonempty : 0 < head.length + body.length) (partly : data.length ≤ head.length + body.length) :
    ¬ c.Served head body data := by
  intro served
  by_cases whole : data.length = head.length + body.length
  · refine botched.stored ?_ served.stored
    rintro rfl
    rw [List.length_nil] at whole
    omega
  · have unhandled := (served.waiting (by omega)).1
    rw [botched.handled] at unhandled
    exact absurd unhandled (by decide)

/-- However the bytes of the head and the body are cut into reads, the request is not served. -/
theorem never_one_response (P : Parser σ) (serve : List Byte → HttpResponse → HttpResponse) (head : RequestHead)
    (body : List Byte) (reads : List (List Byte)) (stream : reads.flatten = head.serialize ++ body)
    (reports : Reports P head body.length P.init .new 0 reads) :
    ¬ OneResponse P serve head.serialize body reads := by
  intro served
  have nonempty : 0 < head.serialize.length := by
    rw [RequestHead.serialize, marked_cons, List.length_append, List.length_append]
    have two : crlf.text.length = 2 := rfl
    omega
  cases reads with
  | nil =>
    have lengths := congrArg List.length stream
    rw [List.flatten_nil, List.length_nil, List.length_append] at lengths
    omega
  | cons data rest =>
    have lengths := congrArg List.length stream
    rw [List.flatten_cons, List.length_append, List.length_append] at lengths
    obtain ⟨c, ran, serves⟩ := served [data] rest rfl
    rw [List.map_singleton, Run.exec_single] at ran
    rw [List.flatten_singleton] at serves
    exact (first_botched serve reports c ran).not_served (by omega) (by omega) serves

/-- `HttpParser` with the iterator moved behind the line end it stops at. -/
def mendedParser : Parser HttpParser where
  init := .new
  parse p req view := do
    let r ← HttpParser.parse { p with request := req } view
    return (r.result, if r.result = .finish then r.itr + 2 else r.itr, r.parser, r.parser.request)

/-- `GET /a HTTP/1.1` with two bytes of body. -/
def upload : RequestHead :=
  ⟨[71, 69, 84], [47, 97], [72, 84, 84, 80, 47, 49, 46, 49], [(kContentLength, [50])]⟩

theorem upload_wf : upload.Wf where
  method := ⟨by decide, by decide, by decide⟩
  uri := ⟨by decide, by decide, by decide⟩
  version := ⟨by decide, by decide, by decide⟩
  distinct := by decide
  name := by decide
  value := by decide

theorem upload_reported (body : List Byte) (two : body.length = 2) :
    Reports mendedParser upload body.length .new .new 0 [upload.serialize ++ body] := by
  have parsed := RequestHead.parse_serialize upload_wf body
  refine ⟨.finish, upload.serialize.length, upload.parsed, upload.parsed.request, ?_, by decide +kernel, ?_⟩
  · have same : { HttpParser.new with request := HttpRequest.new } = HttpParser.new := rfl
    simp only [mendedParser, same, parsed]
    rfl
  · rw [if_neg (by rw [List.length_append]; omega), two]
    exact ⟨rfl, by rw [Nat.zero_add], by decide +kernel⟩

theorem never_one_response_upload :
    ¬ OneResponse mendedParser (fun _ r => r) upload.serialize [97, 98] [upload.serialize ++ [97, 98]] :=
  never_one_response mendedParser (fun _ r => r) upload [97, 98] [upload.serialize ++ [97, 98]] rfl
    (upload_reported [97, 98] rfl)

/-- After a read of `GET ` these four bytes are stored as the body and a response is written; after a read of
the whole request its two bytes of body are stored twice, with what stands behind them in `rbuffer_`. -/
theorem upload_botched :
    (step httpParser (fun _ r => r) (start httpParser) (.read [71, 69, 84, 32])).map
        (fun c => (c.handled, c.writes.length, c.request.readBuffer)) = .ok (1, 1, [71, 69, 84, 32]) ∧
      (step mendedParser (fun _ r => r) (start mendedParser) (.read (upload.serialize ++ [97, 98]))).map
        (fun c => (c.needRead, c.handled, c.request.readBuffer.take 5)) = .ok (0, 1, [97, 98, 97, 98, 0]) := by
  decide +kernel

end HttpConnection

end Rnet.Http
