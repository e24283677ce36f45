import Rnet.Http.HttpResponse
import Rnet.Http.ParserTotality

/-!
# Parsing what was written

A request head in the form in which `HttpResponse::toBuffers` writes its headers, and what one call of a
fresh parser makes of it. The request line comes back as it was. Of a value only what stands in front of
its first colon comes back. The iterator is at the line end of the empty line, not behind it.
-/
namespace Rnet.Http

open Check Cut
open File (Byte)

structure RequestHead where
  method : List Byte
  uri : List Byte
  version : List Byte
  headers : List (List Byte × List Byte)
  deriving DecidableEq, Repr

namespace RequestHead

def requestLine (head : RequestHead) : List Byte :=
  head.method ++ kSpace :: (head.uri ++ kSpace :: head.version)

def serialize (head : RequestHead) : List Byte :=
  marked crlf (head.requestLine :: (head.headers.map headerLine ++ [[]]))

/-- A part of the request line: not empty, with no space and no line end in it. -/
structure Word (text : List Byte) : Prop where
  nonempty : text ≠ []
  plain : kSpace ∉ text
  one : Free crlf text

structure Wf (head : RequestHead) : Prop where
  method : Word head.method
  uri : Word head.uri
  version : Word head.version
  distinct : (head.headers.map Prod.fst).Nodup
  name : ∀ header ∈ head.headers, header.1 ≠ [] ∧ kColon ∉ header.1 ∧ Free crlf header.1
  value : ∀ header ∈ head.headers, Free crlf header.2

end RequestHead

/-- A value as the parser has it. -/
def beforeColon (value : List Byte) : List Byte := value.takeWhile (· ≠ kColon)

/-! ### The map of headers -/

namespace HttpRequest

/-- The first header of a name stays. -/
theorem getHeader_addHeader (req : HttpRequest) (header : List Byte × List Byte) (key : List Byte) :
    (req.addHeader header).getHeader key = (req.getHeader key).or ([header].lookup key) := by
  rw [addHeader]
  split
  next present =>
    -- the name is there, so that looking it up does not get to the second list
    by_cases same : key = header.1
    · rw [same]
      obtain ⟨value, found⟩ := Option.isSome_iff_exists.mp present
      rw [found]
      rfl
    · have other : [header].lookup key = none := by
        rw [List.lookup_cons, beq_eq_false_iff_ne.mpr same]
        rfl
      rw [other, Option.or_none]
  next => exact List.lookup_append

theorem getHeader_foldl (req : HttpRequest) (headers : List (List Byte × List Byte)) (key : List Byte) :
    (headers.foldl addHeader req).getHeader key = (req.getHeader key).or (headers.lookup key) := by
  induction headers generalizing req with
  | nil => rw [List.foldl_nil, List.lookup_nil, Option.or_none]
  | cons header headers ih =>
    rw [List.foldl_cons, ih, getHeader_addHeader, Option.or_assoc, ← List.lookup_append]
    rfl

end HttpRequest

theorem lookup_of_nodup {headers : List (List Byte × List Byte)} (distinct : (headers.map Prod.fst).Nodup)
    {header : List Byte × List Byte} (member : header ∈ headers) : headers.lookup header.1 = some header.2 := by
  induction headers with
  | nil => cases member
  | cons first headers ih =>
    rw [List.map_cons, List.nodup_cons] at distinct
    rw [List.lookup_cons]
    rcases List.mem_cons.mp member with rfl | later
    · rw [beq_self_eq_true]
    · have other : header.1 ≠ first.1 := by
        intro same
        exact distinct.1 (same ▸ List.mem_map_of_mem later)
      rw [beq_eq_false_iff_ne.mpr other]
      exact ih distinct.2 later

/-! ### The lines -/

theorem splitStringView_requestLine {head : RequestHead} (wf : head.Wf) :
    splitStringView head.requestLine kSpace = [head.method, head.uri, head.version] := by
  have version := isCut_free (m := .single kSpace) (free_single.mpr wf.version.plain)
  have both := (version.cons (free_single.mpr wf.uri.plain)).cons (free_single.mpr wf.method.plain)
  have nonempty : head.requestLine ≠ [] := List.append_ne_nil_of_left_ne_nil wf.method.nonempty _
  exact splitStringView_eq nonempty both

theorem beforeColon_append {text : List Byte} (free : Free (.single kColon) text) (rest : List Byte) :
    beforeColon (text ++ rest) = text ++ beforeColon rest := by
  apply List.takeWhile_append_of_pos
  intro byte member
  exact decide_eq_true fun same => free_single.mp free (same ▸ member)

/-- The first piece of a value. -/
theorem head?_pieces {value : List Byte} {bodies : List (List Byte)} {tail : List Byte}
    (cut : IsCut (.single kColon) value bodies tail) : (bodies ++ [tail]).head? = some (beforeColon value) := by
  cases bodies with
  | nil =>
    obtain rfl : tail = value := cut.whole
    have whole := beforeColon_append cut.tail_free []
    rw [List.append_nil] at whole
    rw [whole]
    simp [beforeColon]
  | cons body bodies =>
    obtain ⟨_, free, rfl⟩ := cut.rest
    rw [beforeColon_append free]
    simp [beforeColon, Mark.single]

theorem splitStringView_headerLine {header : List Byte × List Byte} (plain : kColon ∉ header.1) :
    ∃ more, splitStringView (headerLine header) kColon = header.1 :: beforeColon header.2 :: more := by
  have cut := isCut_cut (.single kColon) header.2
  have nonempty : headerLine header ≠ [] := by simp [headerLine]
  have pieces := splitStringView_eq nonempty (cut.cons (free_single.mpr plain))
  obtain ⟨more, first⟩ := List.head?_eq_some_iff.mp (head?_pieces cut)
  refine ⟨more, ?_⟩
  rw [pieces, List.cons_append, first]

theorem takes_requestLine {head : RequestHead} : Takes .start head.requestLine := by
  simp only [Takes, RequestHead.requestLine, List.count_append, List.count_cons_self]
  omega

theorem takes_headerLine (header : List Byte × List Byte) : Takes .lineOpen (headerLine header) := by
  right
  simp [headerLine]

theorem verdict_headerLine (header : List Byte × List Byte) :
    verdict .lineOpen (headerLine header) = .intermidiate := by
  simp [verdict, headerLine]

namespace HttpParser

/-- The request after the header lines. -/
def withHeaders (p : HttpParser) (headers : List (List Byte × List Byte)) : HttpParser :=
  headers.foldl (fun p header => p.accept (headerLine header)) p

theorem accept_headerLine {p : HttpParser} (opened : p.state = .lineOpen) {header : List Byte × List Byte}
    (plain : kColon ∉ header.1) :
    (p.accept (headerLine header)).request = p.request.addHeader (header.1, beforeColon header.2) := by
  obtain ⟨more, pieces⟩ := splitStringView_headerLine plain
  have nonempty : headerLine header ≠ [] := by simp [headerLine]
  simp only [accept, fill, opened, if_neg nonempty, pieceAt, pieces]
  rfl

theorem readLines_headers {p : HttpParser} (opened : p.state = .lineOpen) (empty : p.tempLine = [])
    (headers : List (List Byte × List Byte)) (tail : List Byte) (pos : Nat) (more : List (List Byte)) :
    p.readLines tail pos (headers.map headerLine ++ more) =
      (p.withHeaders headers).readLines tail (pos + (marked crlf (headers.map headerLine)).length) more := by
  induction headers generalizing p pos with
  | nil => rfl
  | cons header headers ih =>
    have line : p.tempLine ++ headerLine header = headerLine header := by rw [empty, List.nil_append]
    have takes : Takes p.state (p.tempLine ++ headerLine header) := by
      rw [line, opened]
      exact takes_headerLine header
    have further : verdict p.state (p.tempLine ++ headerLine header) = .intermidiate := by
      rw [line, opened]
      exact verdict_headerLine header
    have two : crlf.text.length = 2 := rfl
    rw [List.map_cons, List.cons_append, readLines_intermidiate takes further, line,
      ih (accept_state _ _) (accept_tempLine _ _), withHeaders, withHeaders, List.foldl_cons]
    congr 1
    simp only [marked_cons, List.length_append, two]
    omega

theorem accept_empty {p : HttpParser} (opened : p.state = .lineOpen) : (p.accept []).request = p.request := by
  simp only [accept, fill, opened, if_true]

theorem withHeaders_state {p : HttpParser} (opened : p.state = .lineOpen) (headers : List (List Byte × List Byte)) :
    (p.withHeaders headers).state = .lineOpen := by
  induction headers generalizing p with
  | nil => exact opened
  | cons header headers ih => exact ih (accept_state p _)

theorem withHeaders_tempLine {p : HttpParser} (empty : p.tempLine = []) (headers : List (List Byte × List Byte)) :
    (p.withHeaders headers).tempLine = [] := by
  induction headers generalizing p with
  | nil => exact empty
  | cons header headers ih => exact ih (accept_tempLine p _)

theorem withHeaders_request {p : HttpParser} (opened : p.state = .lineOpen) {headers : List (List Byte × List Byte)}
    (plain : ∀ header ∈ headers, kColon ∉ header.1) :
    (p.withHeaders headers).request =
      (headers.map fun header => (header.1, beforeColon header.2)).foldl HttpRequest.addHeader p.request := by
  induction headers generalizing p with
  | nil => rfl
  | cons header headers ih =>
    have later := ih (accept_state p (headerLine header))
      fun other member => plain other (List.mem_cons_of_mem header member)
    rw [accept_headerLine opened (plain header List.mem_cons_self)] at later
    exact later

theorem accept_requestLine {head : RequestHead} (wf : head.Wf) :
    (new.accept head.requestLine).request =
      { HttpRequest.new with method := head.method, uri := head.uri, version := head.version } := by
  simp only [accept, fill, new, pieceAt, splitStringView_requestLine wf]
  rfl

end HttpParser

theorem addHeader_line (req : HttpRequest) (header : List Byte × List Byte) :
    (req.addHeader header).method = req.method ∧ (req.addHeader header).uri = req.uri ∧
      (req.addHeader header).version = req.version := by
  rw [HttpRequest.addHeader]
  split
  · exact ⟨rfl, rfl, rfl⟩
  · exact ⟨rfl, rfl, rfl⟩

theorem foldl_addHeader_line (req : HttpRequest) (headers : List (List Byte × List Byte)) :
    (headers.foldl HttpRequest.addHeader req).method = req.method ∧
      (headers.foldl HttpRequest.addHeader req).uri = req.uri ∧
      (headers.foldl HttpRequest.addHeader req).version = req.version := by
  induction headers generalizing req with
  | nil => exact ⟨rfl, rfl, rfl⟩
  | cons header headers ih =>
    obtain ⟨method, uri, version⟩ := addHeader_line req header
    have later := ih (req.addHeader header)
    rw [method, uri, version] at later
    exact later

namespace RequestHead

theorem Wf.requestLine_free {head : RequestHead} (wf : head.Wf) : Free crlf head.requestLine :=
  wf.method.one.insert (wf.uri.one.insert wf.version.one (by decide)) (by decide)

theorem Wf.headerLine_free {head : RequestHead} (wf : head.Wf) {header : List Byte × List Byte}
    (member : header ∈ head.headers) : Free crlf (headerLine header) :=
  (wf.name header member).2.2.insert (wf.value header member) (by decide)

/-- The parser after the whole head. -/
def parsed (head : RequestHead) : HttpParser :=
  (((HttpParser.new.accept head.requestLine).withHeaders head.headers).accept [])

theorem readLines_head (head : RequestHead) (tail : List Byte) (more : List (List Byte)) :
    HttpParser.new.readLines tail 0 (head.requestLine :: (head.headers.map headerLine ++ [] :: more)) =
      .ok ⟨.finish, head.serialize.length - 2, head.parsed⟩ := by
  have takes : Takes HttpParser.new.state (HttpParser.new.tempLine ++ head.requestLine) := takes_requestLine
  have opened := HttpParser.withHeaders_state (HttpParser.accept_state .new head.requestLine) head.headers
  have empty := HttpParser.withHeaders_tempLine (HttpParser.accept_tempLine .new head.requestLine) head.headers
  generalize reached : (HttpParser.new.accept head.requestLine).withHeaders head.headers = p at opened empty
  have ends : Takes p.state (p.tempLine ++ []) := by
    rw [opened, empty]
    exact Or.inl rfl
  have last : verdict p.state (p.tempLine ++ []) = .finish := by
    rw [opened, empty]
    rfl
  have two : crlf.text.length = 2 := rfl
  rw [HttpParser.readLines_intermidiate takes rfl,
    HttpParser.readLines_headers (HttpParser.accept_state _ _) (HttpParser.accept_tempLine _ _)]
  change ((HttpParser.new.accept head.requestLine).withHeaders head.headers).readLines _ _ _ = _
  rw [reached, HttpParser.readLines_finish ends last, parsed, reached, empty]
  congr 2
  simp only [serialize, marked_cons, marked_append, marked_nil, List.length_append, List.length_nil, two]
  omega

/-- One call with the head and a body reads the head and stops at the line end of the empty line. -/
theorem parse_serialize {head : RequestHead} (wf : head.Wf) (body : List Byte) :
    HttpParser.new.parse (head.serialize ++ body) = .ok ⟨.finish, head.serialize.length - 2, head.parsed⟩ := by
  have lines : ∀ line ∈ head.requestLine :: (head.headers.map headerLine ++ [[]]), Free crlf line := by
    intro line member
    rcases List.mem_cons.mp member with rfl | later
    · exact wf.requestLine_free
    · rcases List.mem_append.mp later with mapped | last
      · obtain ⟨header, present, rfl⟩ := List.mem_map.mp mapped
        exact wf.headerLine_free present
      · rw [List.mem_singleton.mp last]
        exact free_nil crlf
  have cut := isCut_cut crlf (head.serialize ++ body)
  have whole : crlf.cut (head.serialize ++ body) =
      (head.requestLine :: (head.headers.map headerLine ++ [] :: (crlf.cut body).1), (crlf.cut body).2) := by
    rw [serialize, cut_marked lines, List.cons_append, List.append_assoc]
    rfl
  rw [HttpParser.parse_eq cut, whole]
  exact head.readLines_head _ _

/-- The request has the parts of the head, with the values cut at their first colon. -/
theorem parsed_request {head : RequestHead} (wf : head.Wf) :
    head.parsed.request.method = head.method ∧ head.parsed.request.uri = head.uri ∧
      head.parsed.request.version = head.version ∧
      ∀ header ∈ head.headers, head.parsed.request.getHeader header.1 = some (beforeColon header.2) := by
  have opened := HttpParser.accept_state .new head.requestLine
  have last := HttpParser.accept_empty (HttpParser.withHeaders_state opened head.headers)
  have plain : ∀ header ∈ head.headers, kColon ∉ header.1 := fun header member => (wf.name header member).2.1
  rw [parsed, last, HttpParser.withHeaders_request opened plain, HttpParser.accept_requestLine wf]
  obtain ⟨method, uri, version⟩ := foldl_addHeader_line
    { HttpRequest.new with method := head.method, uri := head.uri, version := head.version }
    (head.headers.map fun header => (header.1, beforeColon header.2))
  refine ⟨method, uri, version, fun header member => ?_⟩
  have distinct : ((head.headers.map fun header => (header.1, beforeColon header.2)).map Prod.fst).Nodup := by
    rw [List.map_map]
    exact wf.distinct
  rw [HttpRequest.getHeader_foldl]
  exact lookup_of_nodup distinct (List.mem_map_of_mem member)

/-- Parsing gives the head back, with every value whole and the iterator at the first byte of the body. -/
def ComesBack (head : RequestHead) (body : List Byte) : Prop :=
  ∃ r, HttpParser.new.parse (head.serialize ++ body) = .ok r ∧ r.result = .finish ∧
    r.parser.request.method = head.method ∧ r.parser.request.uri = head.uri ∧
    r.parser.request.version = head.version ∧
    (∀ header ∈ head.headers, r.parser.request.getHeader header.1 = some header.2) ∧
    r.itr = head.serialize.length

/-- For every head and every body, one call of a fresh parser returns `FINISH` with the method, the uri and
the version, with each header's value up to its first colon, and with an iterator two bytes in front of
the body. So the head never comes back with an iterator at the body. -/
theorem head_never_back (head : RequestHead) (wf : head.Wf) (body : List Byte) :
    (∃ r, HttpParser.new.parse (head.serialize ++ body) = .ok r ∧ r.result = .finish ∧
      r.parser.request.method = head.method ∧ r.parser.request.uri = head.uri ∧
      r.parser.request.version = head.version ∧
      (∀ header ∈ head.headers, r.parser.request.getHeader header.1 = some (beforeColon header.2)) ∧
      r.itr + 2 = head.serialize.length) ∧
    ¬ head.ComesBack body := by
  have returned := parse_serialize wf body
  obtain ⟨method, uri, version, headers⟩ := parsed_request wf
  have long : 2 ≤ head.serialize.length := by
    have two : crlf.text.length = 2 := rfl
    simp only [serialize, marked_cons, List.length_append, two]
    omega
  constructor
  · exact ⟨_, returned, rfl, method, uri, version, headers, Nat.sub_add_cancel long⟩
  · rintro ⟨r, other, _, _, _, _, _, itr⟩
    obtain rfl := Except.ok.inj (returned.symm.trans other)
    have iterator : head.serialize.length - 2 = head.serialize.length := itr
    omega

/-- `GET /a HTTP/1.1` with the header `Host:h:80`. -/
def hostAndPort : RequestHead :=
  ⟨[71, 69, 84], [47, 97], [72, 84, 84, 80, 47, 49, 46, 49], [([72, 111, 115, 116], [104, 58, 56, 48])]⟩

theorem hostAndPort_wf : hostAndPort.Wf where
  method := ⟨by decide, by decide, by decide⟩
  uri := ⟨by decide, by decide, by decide⟩
  version := ⟨by decide, by decide, by decide⟩
  distinct := by decide
  name := by decide
  value := by decide

theorem head_never_back_hostAndPort :
    ¬ hostAndPort.ComesBack [98] ∧
    ∃ r, HttpParser.new.parse (hostAndPort.serialize ++ [98]) = .ok r ∧
      r.parser.request.getHeader [72, 111, 115, 116] = some [104] := by
  obtain ⟨⟨r, returned, _, _, _, _, headers, _⟩, never⟩ := head_never_back hostAndPort hostAndPort_wf [98]
  exact ⟨never, r, returned, headers _ (List.mem_singleton_self _)⟩

/-- The value `h:80` comes back as `h`, and the iterator is two bytes in front of the body. -/
theorem host_truncated :
    (HttpParser.new.parse (hostAndPort.serialize ++ [98])).toOption.map
        (fun r => (r.parser.request.getHeader [72, 111, 115, 116], r.itr)) =
      some (some [104], hostAndPort.serialize.length - 2) ∧
    ¬ hostAndPort.ComesBack [98] := by
  have evaluated : (HttpParser.new.parse (hostAndPort.serialize ++ [98])).toOption.map
      (fun r => (r.parser.request.getHeader [72, 111, 115, 116], r.itr)) =
        some (some [104], hostAndPort.serialize.length - 2) := by
    decide +kernel
  refine ⟨evaluated, ?_⟩
  rintro ⟨r, returned, _, _, _, _, headers, _⟩
  rw [returned] at evaluated
  have value := congrArg Prod.fst (Option.some.inj evaluated)
  have whole := headers ([72, 111, 115, 116], [104, 58, 56, 48]) (List.mem_singleton_self _)
  exact absurd (value.symm.trans whole) (by decide)

end RequestHead

end Rnet.Http
