import Rnet.Http.ParserTotality

/-!
# A head that comes in several reads

The chunks of a stream are passed to one parser until it returns something other than `INTERMIDIATE`. A
call that does not find the end of the head leaves out the first two bytes behind the last line end it
has seen, so that nothing of what came before the call's end can be trusted: the lines are those of the
whole stream, with every byte in its place, exactly where the head ends in the first chunk.
-/
namespace Rnet.Http

open Check Cut
open File (Byte)

/-- The parser and its result after some chunks, and the bytes of these up to the end of the head. -/
structure Fed where
  parser : HttpParser
  result : Result
  consumed : List Byte

namespace HttpParser

/-- Pass the chunks to the parser until it returns something other than `INTERMIDIATE`. -/
def feed (p : HttpParser) (consumed : List Byte) : List (List Byte) → Comp ParseFault Fed
  | [] => return ⟨p, .intermidiate, consumed⟩
  | view :: rest => do
    let r ← p.parse view
    match r.result with
    | .intermidiate => r.parser.feed (consumed ++ view) rest
    -- the iterator is at the line end that ends the head
    | .finish => return ⟨r.parser, .finish, consumed ++ view.take (r.itr + 2)⟩
    | .error => return ⟨r.parser, .error, consumed ++ view⟩

/-- How many bytes are in the lines, with their ends, and in the line that is not finished. -/
def size (p : HttpParser) : Nat := (marked crlf p.lines).length + p.tempLine.length

variable {p : HttpParser} {tail : List Byte} {bodies : List (List Byte)} {pos : Nat}

/-- What was read of the bytes is in the lines. -/
structure Finished (p : HttpParser) (bodies : List (List Byte)) (pos : Nat) (r : Parsed) : Prop where
  result : r.result = .finish
  empty : r.parser.tempLine = []
  read : ∃ read unread, marked crlf bodies = read ++ unread ∧ r.itr + 2 = pos + read.length ∧
    marked crlf r.parser.lines = marked crlf p.lines ++ (p.tempLine ++ read)

/-- Two bytes are missing. -/
structure Interrupted (p : HttpParser) (bodies : List (List Byte)) (tail : List Byte) (r : Parsed) : Prop where
  result : r.result = .intermidiate
  lost : r.parser.size + 2 = p.size + ((marked crlf bodies).length + tail.length)

theorem marked_accept (p : HttpParser) (body : List Byte) :
    marked crlf (p.accept (p.tempLine ++ body)).lines =
      marked crlf p.lines ++ (p.tempLine ++ (body ++ crlf.text)) := by
  rw [accept_lines, marked_append, marked_cons, marked_nil]
  simp only [List.append_assoc, List.append_nil]

theorem size_accept (p : HttpParser) (body : List Byte) :
    (p.accept (p.tempLine ++ body)).size = p.size + (body.length + 2) := by
  have two : crlf.text.length = 2 := rfl
  rw [size, marked_accept, accept_tempLine, size]
  simp only [List.length_append, List.length_nil, two]
  omega

/-- What holds of the lines behind the first one, which has been accepted, holds of all of them. -/
theorem Finished.line {p : HttpParser} {body : List Byte} {bodies : List (List Byte)} {pos : Nat} {r : Parsed}
    (later : (p.accept (p.tempLine ++ body)).Finished bodies (pos + body.length + 2) r) :
    p.Finished (body :: bodies) pos r := by
  have two : crlf.text.length = 2 := rfl
  obtain ⟨read, unread, split, itr, lines⟩ := later.read
  refine ⟨later.result, later.empty, body ++ (crlf.text ++ read), unread, ?_, ?_, ?_⟩
  · rw [marked_cons, split]
    simp only [List.append_assoc]
  · simp only [List.length_append, two]
    omega
  · rw [lines, marked_accept, accept_tempLine]
    simp only [List.append_assoc, List.nil_append]

theorem Interrupted.line {p : HttpParser} {body tail : List Byte} {bodies : List (List Byte)} {r : Parsed}
    (later : (p.accept (p.tempLine ++ body)).Interrupted bodies tail r) : p.Interrupted (body :: bodies) tail r := by
  have two : crlf.text.length = 2 := rfl
  have lost := later.lost
  rw [size_accept] at lost
  refine ⟨later.result, ?_⟩
  simp only [marked_cons, List.length_append, two]
  omega

-- The induction is on the lines. A call without a line interrupts, and drops the first two bytes of what it stores.
theorem readLines_accounts (p : HttpParser) (tail : List Byte) (pos : Nat) (bodies : List (List Byte)) :
    Yields (fun r => p.Finished bodies pos r ∧ Passes False p.state (completed p.tempLine bodies) ∨
      p.Interrupted bodies tail r ∧ ¬ Passes False p.state (completed p.tempLine bodies))
      (p.readLines tail pos bodies) := by
  induction bodies generalizing p pos with
  | nil =>
    simp only [readLines, yields_bind, yields_ensure, yields_pure]
    intro enough
    refine Or.inr ⟨⟨rfl, ?_⟩, id⟩
    simp only [size, marked_nil, List.length_append, List.length_drop, List.length_nil]
    omega
  | cons body bodies ih =>
    by_cases takes : Takes p.state (p.tempLine ++ body)
    · rcases verdict_cases p.state (p.tempLine ++ body) with last | more
      · have two : crlf.text.length = 2 := rfl
        rw [readLines_finish takes last, yields_ok]
        refine Or.inl ⟨⟨rfl, rfl, body ++ crlf.text, marked crlf bodies, ?_, ?_, p.marked_accept body⟩,
          takes, Or.inl last⟩
        · rw [marked_cons, List.append_assoc]
        · rw [List.length_append, two, Nat.add_assoc]
      · rw [readLines_intermidiate takes more]
        refine (ih (p.accept (p.tempLine ++ body)) (pos + body.length + 2)).mono fun r accounts => ?_
        simp only [accept_state, accept_tempLine, completed_nil] at accounts
        have same : Passes False p.state (completed p.tempLine (body :: bodies)) ↔ Passes False .lineOpen bodies := by
          simp only [completed, Passes, takes, more, true_and, reduceCtorEq, false_or]
        rw [same]
        rcases accounts with ⟨finished, passes⟩ | ⟨interrupted, fails⟩
        · exact Or.inl ⟨finished.line, passes⟩
        · exact Or.inr ⟨interrupted.line, fails⟩
    · rw [readLines_fault takes]
      exact yields_error _ _

/-- Where the head ends in some lines, it does not matter what comes after them. -/
theorem readLines_more (ends : Passes False p.state (completed p.tempLine bodies)) (more : List (List Byte))
    (other : List Byte) : p.readLines other pos (bodies ++ more) = p.readLines tail pos bodies := by
  induction bodies generalizing p pos with
  | nil => exact False.elim ends
  | cons body bodies ih =>
    obtain ⟨takes, goes⟩ := ends
    rcases verdict_cases p.state (p.tempLine ++ body) with last | further
    · rw [List.cons_append, readLines_finish takes last, readLines_finish takes last]
    · rw [further] at goes
      rw [List.cons_append, readLines_intermidiate takes further, readLines_intermidiate takes further]
      apply ih
      rw [accept_state, accept_tempLine, completed_nil]
      exact goes.resolve_left nofun

/-- The head ends in these bytes, and its lines have their pieces. -/
def EndsHead (p : HttpParser) (view : List Byte) : Prop :=
  Passes False p.state (completed p.tempLine (crlf.cut view).1)

instance (p : HttpParser) (view : List Byte) : Decidable (p.EndsHead view) := Passes.decidable _ _ _

theorem parse_accounts (p : HttpParser) (view : List Byte) :
    Yields (fun r => p.Finished (crlf.cut view).1 0 r ∧ p.EndsHead view ∨
      p.Interrupted (crlf.cut view).1 (crlf.cut view).2 r ∧ ¬ p.EndsHead view) (p.parse view) := by
  rw [parse_eq (isCut_cut crlf view)]
  exact p.readLines_accounts _ _ _

theorem Interrupted.lost_two {view : List Byte} {r : Parsed}
    (interrupted : p.Interrupted (crlf.cut view).1 (crlf.cut view).2 r) : r.parser.size + 2 = p.size + view.length := by
  have whole := congrArg List.length (isCut_cut crlf view).whole
  have lost := interrupted.lost
  rw [List.length_append] at whole
  omega

/-- The bytes up to the iterator and the line end at it are in the lines. -/
theorem Finished.taken {view : List Byte} {r : Parsed} (finished : p.Finished (crlf.cut view).1 0 r) :
    r.itr + 2 ≤ view.length ∧
      marked crlf r.parser.lines = marked crlf p.lines ++ (p.tempLine ++ view.take (r.itr + 2)) := by
  obtain ⟨read, unread, split, itr, lines⟩ := finished.read
  have whole := (isCut_cut crlf view).whole
  rw [split, List.append_assoc] at whole
  rw [Nat.zero_add] at itr
  rw [itr, ← whole, List.take_left, List.length_append]
  exact ⟨Nat.le_add_right _ _, lines⟩

/-- A call with the end of the head in it returns `FINISH`, whatever follows. -/
theorem parse_endsHead {view : List Byte} (ends : p.EndsHead view) (rest : List Byte) :
    ∃ r, p.parse view = .ok r ∧ p.parse (view ++ rest) = .ok r ∧ p.Finished (crlf.cut view).1 0 r := by
  have cut := isCut_cut crlf view
  have more := isCut_cut crlf ((crlf.cut view).2 ++ rest)
  have same : p.parse (view ++ rest) = p.parse view := by
    have both : crlf.cut (view ++ rest) =
        ((crlf.cut view).1 ++ (crlf.cut ((crlf.cut view).2 ++ rest)).1, (crlf.cut ((crlf.cut view).2 ++ rest)).2) := by
      rw [← cut_marked cut.bodies_free, ← List.append_assoc, cut.whole]
    rw [parse_eq (isCut_cut crlf (view ++ rest)), parse_eq cut, both]
    exact readLines_more ends _ _
  obtain ⟨r, returned⟩ : ∃ r, p.parse view = .ok r := by
    rw [parse_ok_iff, Readable]
    exact Passes.mono ends False.elim
  refine ⟨r, returned, same.trans returned, ?_⟩
  rcases p.parse_accounts view r returned with ⟨finished, _⟩ | ⟨_, fails⟩
  · exact finished
  · exact absurd ends fails

/-! ### Several calls -/

/-- No byte is in the lines twice. -/
theorem feed_size (p : HttpParser) (consumed : List Byte) (chunks : List (List Byte)) :
    Yields (fun f => f.parser.size + consumed.length ≤ p.size + f.consumed.length) (p.feed consumed chunks) := by
  induction chunks generalizing p consumed with
  | nil =>
    rw [feed, yields_pure]
  | cons view rest ih =>
    rw [feed]
    refine (p.parse_accounts view).bind fun r accounts => ?_
    rcases accounts with ⟨finished, _⟩ | ⟨interrupted, _⟩
    · obtain ⟨bound, lines⟩ := finished.taken
      rw [finished.result, yields_pure, size, lines, finished.empty, size]
      simp only [List.length_append, List.length_take, List.length_nil]
      omega
    · rw [interrupted.result]
      refine (ih r.parser (consumed ++ view)).mono fun f bound => ?_
      have lost := interrupted.lost_two
      rw [List.length_append] at bound
      omega

/-- The chunks give what one call with all their bytes gives, and no byte that was passed is lost. -/
def Unsegmented (chunks : List (List Byte)) : Prop :=
  ∃ f w, new.feed [] chunks = .ok f ∧ new.parse chunks.flatten = .ok w ∧
    f.parser.lines = w.parser.lines ∧
    f.parser.request.method = w.parser.request.method ∧
    f.parser.request.uri = w.parser.request.uri ∧
    f.parser.request.version = w.parser.request.version ∧
    (∀ key, f.parser.request.getHeader key = w.parser.request.getHeader key) ∧
    f.result = w.result ∧
    marked crlf f.parser.lines ++ f.parser.tempLine = f.consumed

/-- For every way of cutting a string: the chunks give the lines, the request and the result of one call
with the whole string, and no byte is lost, if and only if the head ends in the first chunk with every
line of it having its pieces. -/
theorem unsegmented_iff (chunks : List (List Byte)) :
    Unsegmented chunks ↔ ∃ first rest, chunks = first :: rest ∧ new.EndsHead first := by
  constructor
  · rintro ⟨f, w, fed, whole, _, _, _, _, _, _, kept⟩
    cases chunks with
    | nil =>
      have readable := (new.parse_ok_iff []).mp ⟨w, whole⟩
      exact absurd readable (by decide +kernel)
    | cons first rest =>
      refine ⟨first, rest, rfl, ?_⟩
      rw [feed] at fed
      obtain ⟨r, returned, later⟩ := bind_eq_ok.mp fed
      rcases new.parse_accounts first r returned with ⟨_, ends⟩ | ⟨interrupted, _⟩
      · exact ends
      · -- two bytes are missing, and later calls bring none back
        rw [interrupted.result] at later
        have bound := r.parser.feed_size _ rest f later
        have lost := interrupted.lost_two
        have full := congrArg List.length kept
        have nothing : new.size = 0 := rfl
        rw [List.nil_append] at bound
        rw [List.length_append] at full
        rw [size] at bound
        omega
  · rintro ⟨first, rest, rfl, ends⟩
    obtain ⟨r, returned, whole, finished⟩ := parse_endsHead ends rest.flatten
    have fed : new.feed [] (first :: rest) = .ok ⟨r.parser, .finish, first.take (r.itr + 2)⟩ := by
      rw [feed, returned]
      change (match r.result with
        | .intermidiate => _
        | .finish => _
        | .error => _) = _
      rw [finished.result]
      rfl
    refine ⟨_, r, fed, whole, rfl, rfl, rfl, rfl, fun _ => rfl, finished.result.symm, ?_⟩
    rw [finished.taken.2, finished.empty, List.append_nil]
    rfl

/-- `GET / H`, cut behind `GE`, with the end of the head in the second chunk. -/
def cutRequestLine : List (List Byte) := [[71, 69], [84, 32, 47, 32, 72, 13, 10, 13, 10]]

/-- A header `A:B` behind the request line `G / H`, cut between the CR and the LF at its end. -/
def cutLineEnd : List (List Byte) :=
  [[71, 32, 47, 32, 72, 13, 10, 65, 58, 66, 13], [10, 67, 58, 68, 13, 10, 13, 10]]

/-- The method comes out as `T`, though the whole string has `GET`; and the two header lines whose line
end was cut become one, without the first two bytes of the first. -/
theorem segmentation_matters :
    (new.feed [] cutRequestLine).toOption.map (fun f => f.parser.request.method) = some [84] ∧
    (new.parse cutRequestLine.flatten).toOption.map (fun w => w.parser.request.method) = some [71, 69, 84] ∧
    (new.feed [] cutLineEnd).toOption.map (fun f => f.parser.lines) =
      some [[71, 32, 47, 32, 72], [66, 13, 10, 67, 58, 68], []] ∧
    (new.parse cutLineEnd.flatten).toOption.map (fun w => w.parser.lines) =
      some [[71, 32, 47, 32, 72], [65, 58, 66], [67, 58, 68], []] ∧
    ¬ Unsegmented cutRequestLine ∧ ¬ Unsegmented cutLineEnd := by
  have chunkedMethod : (new.feed [] cutRequestLine).toOption.map (fun f => f.parser.request.method) = some [84] := by
    decide +kernel
  have wholeMethod : (new.parse cutRequestLine.flatten).toOption.map (fun w => w.parser.request.method) =
      some [71, 69, 84] := by
    decide +kernel
  have chunkedLines : (new.feed [] cutLineEnd).toOption.map (fun f => f.parser.lines) =
      some [[71, 32, 47, 32, 72], [66, 13, 10, 67, 58, 68], []] := by
    decide +kernel
  have wholeLines : (new.parse cutLineEnd.flatten).toOption.map (fun w => w.parser.lines) =
      some [[71, 32, 47, 32, 72], [65, 58, 66], [67, 58, 68], []] := by
    decide +kernel
  refine ⟨chunkedMethod, wholeMethod, chunkedLines, wholeLines, ?_, ?_⟩
  · rintro ⟨f, w, fed, whole, _, method, _⟩
    rw [fed] at chunkedMethod
    rw [whole] at wholeMethod
    have same := (Option.some.inj chunkedMethod).symm.trans (method.trans (Option.some.inj wholeMethod))
    exact absurd same (by decide)
  · rintro ⟨f, w, fed, whole, lines, _⟩
    rw [fed] at chunkedLines
    rw [whole] at wholeLines
    have same := (Option.some.inj chunkedLines).symm.trans (lines.trans (Option.some.inj wholeLines))
    exact absurd same (by decide)

end HttpParser

end Rnet.Http
