import Rnet.Http.HttpParser

/-!
# When a call of the parser returns

The parser indexes the pieces of a line without counting them, and behind the last line end of a call it
skips two bytes without looking whether they are there. A call returns if every line it completes, up
to the one that ends the head, has its pieces, and if the head ends or two bytes follow the last line
end. It never returns `ERROR`, also for the lines that have their pieces and do not follow the grammar
of a request head.
-/
namespace Rnet.Http

open Check Cut
open File (Byte)

/-- Every line up to the end of the head has its pieces; `atEnd` holds where the head does not end. -/
def Passes (atEnd : Prop) : ParseState → List (List Byte) → Prop
  | _, [] => atEnd
  | state, line :: lines => Takes state line ∧ (verdict state line = .finish ∨ Passes atEnd .lineOpen lines)

instance Passes.decidable (atEnd : Prop) [Decidable atEnd] : ∀ state lines, Decidable (Passes atEnd state lines)
  | _, [] => inferInstanceAs (Decidable atEnd)
  | _, _ :: lines =>
    have _later : Decidable (Passes atEnd .lineOpen lines) := Passes.decidable atEnd .lineOpen lines
    inferInstanceAs (Decidable (_ ∧ (_ ∨ _)))

theorem Passes.mono {atEnd other : Prop} {state : ParseState} {lines : List (List Byte)}
    (passes : Passes atEnd state lines) (weaker : atEnd → other) : Passes other state lines := by
  induction lines generalizing state with
  | nil => exact weaker passes
  | cons line lines ih => exact ⟨passes.1, passes.2.imp_right fun later => ih later⟩

/-! ### The grammar of a request head -/

/-- Three words with one space between two of them. -/
def RequestLine (line : List Byte) : Prop :=
  ∃ method uri version, (∀ word ∈ [method, uri, version], word ≠ [] ∧ kSpace ∉ word) ∧
    line = method ++ kSpace :: (uri ++ kSpace :: version)

/-- A name, a colon and any value. -/
def HeaderLine (line : List Byte) : Prop :=
  ∃ name value, name ≠ [] ∧ kColon ∉ name ∧ line = name ++ kColon :: value

/-- The first line is a request line, and the lines up to the empty one are header lines. -/
def HeadLines : List (List Byte) → Prop
  | [] => True
  | first :: lines => RequestLine first ∧ ∀ line ∈ lines.takeWhile (· ≠ []), HeaderLine line

/-- Among the lines of the head that have ended in these bytes one does not follow the grammar. -/
def Malformed (bytes : List Byte) : Prop := ¬ HeadLines (crlf.cut bytes).1

theorem requestLine_iff (line : List Byte) :
    RequestLine line ↔ ((Mark.single kSpace).cut line).1.length = 2 ∧
      ∀ word ∈ ((Mark.single kSpace).cut line).1 ++ [((Mark.single kSpace).cut line).2], word ≠ [] := by
  constructor
  · rintro ⟨method, uri, version, words, rfl⟩
    simp only [List.forall_mem_cons] at words
    obtain ⟨⟨first, plainMethod⟩, ⟨second, plainUri⟩, ⟨third, plainVersion⟩, -⟩ := words
    -- the words are the pieces between the spaces, since none of them has one
    have last := isCut_free (m := .single kSpace) (free_single.mpr plainVersion)
    have whole := (last.cons (free_single.mpr plainUri)).cons (free_single.mpr plainMethod)
    have pieces : (Mark.single kSpace).cut (method ++ kSpace :: (uri ++ kSpace :: version)) =
        ([method, uri], version) := whole.eq
    rw [pieces]
    refine ⟨rfl, ?_⟩
    rintro word member
    simp only [List.cons_append, List.nil_append, List.mem_cons, List.not_mem_nil, or_false] at member
    rcases member with rfl | rfl | rfl
    · exact first
    · exact second
    · exact third
  · rintro ⟨two, nonempty⟩
    have cut := isCut_cut (.single kSpace) line
    generalize ((Mark.single kSpace).cut line).1 = bodies at two nonempty cut
    generalize ((Mark.single kSpace).cut line).2 = version at nonempty cut
    obtain ⟨method, uri, rfl⟩ := List.length_eq_two.mp two
    have whole := cut.whole
    refine ⟨method, uri, version, ?_, ?_⟩
    · intro word member
      refine ⟨nonempty word member, ?_⟩
      simp only [List.mem_cons, List.not_mem_nil, or_false] at member
      apply free_single.mp
      rcases member with rfl | rfl | rfl
      · exact cut.bodies_free _ (by simp)
      · exact cut.bodies_free _ (by simp)
      · exact cut.tail_free
    · simpa [Mark.single] using whole.symm

theorem headerLine_iff (line : List Byte) : HeaderLine line ↔ kColon ∈ line ∧ line.head? ≠ some kColon := by
  constructor
  · rintro ⟨name, value, nonempty, plain, rfl⟩
    refine ⟨by simp, ?_⟩
    rw [List.head?_append_of_ne_nil _ nonempty]
    intro colon
    exact plain (List.mem_of_head? colon)
  · rintro ⟨member, later⟩
    -- the name ends at the first colon
    obtain ⟨name, value, rfl, plain⟩ := List.eq_append_cons_of_mem member
    refine ⟨name, value, ?_, plain, rfl⟩
    rintro rfl
    exact later rfl

instance (line : List Byte) : Decidable (RequestLine line) := decidable_of_iff' _ (requestLine_iff line)

instance (line : List Byte) : Decidable (HeaderLine line) := decidable_of_iff' _ (headerLine_iff line)

instance HeadLines.decidable : ∀ lines, Decidable (HeadLines lines)
  | [] => inferInstanceAs (Decidable True)
  | _ :: _ => inferInstanceAs (Decidable (_ ∧ _))

instance (bytes : List Byte) : Decidable (Malformed bytes) := inferInstanceAs (Decidable (¬ _))

/-! ### The calls that return -/

/-- The lines that end in a call: the first of them begins with what was carried over. -/
def completed (tempLine : List Byte) : List (List Byte) → List (List Byte)
  | [] => []
  | body :: bodies => (tempLine ++ body) :: bodies

@[simp] theorem completed_nil (bodies : List (List Byte)) : completed [] bodies = bodies := by
  cases bodies <;> rfl

namespace HttpParser

variable {p : HttpParser}

theorem readLines_ok_iff (tail : List Byte) (pos : Nat) (bodies : List (List Byte)) :
    (∃ r, p.readLines tail pos bodies = .ok r) ↔
      Passes (2 ≤ tail.length) p.state (completed p.tempLine bodies) := by
  induction bodies generalizing p pos with
  | nil =>
    simp only [readLines, completed, Passes, ensure]
    constructor
    · rintro ⟨r, returned⟩
      split at returned
      next enough => exact enough
      next => cases returned
    · intro enough
      rw [if_pos enough]
      exact ⟨_, rfl⟩
  | cons body bodies ih =>
    simp only [completed, Passes]
    by_cases takes : Takes p.state (p.tempLine ++ body)
    · -- the lines behind the end of the head are not looked at in this call
      rcases verdict_cases p.state (p.tempLine ++ body) with last | more
      · rw [readLines_finish takes last]
        exact ⟨fun _ => ⟨takes, Or.inl last⟩, fun _ => ⟨_, rfl⟩⟩
      · rw [readLines_intermidiate takes more, ih, accept_state, accept_tempLine, completed_nil, more]
        exact ⟨fun later => ⟨takes, Or.inr later⟩, fun passes => passes.2.resolve_left (by simp)⟩
    · -- a piece is missing, and the access to it is the fault
      rw [readLines_fault takes]
      constructor
      · rintro ⟨_, returned⟩
        cases returned
      · rintro ⟨taken, _⟩
        exact absurd taken takes

/-- The lines of the call have their pieces, and two bytes follow the last line end if the head does
not end. -/
def Readable (p : HttpParser) (view : List Byte) : Prop :=
  Passes (2 ≤ (crlf.cut view).2.length) p.state (completed p.tempLine (crlf.cut view).1)

instance (p : HttpParser) (view : List Byte) : Decidable (p.Readable view) := Passes.decidable _ _ _

theorem parse_ok_iff (p : HttpParser) (view : List Byte) : (∃ r, p.parse view = .ok r) ↔ p.Readable view := by
  rw [parse_eq (isCut_cut crlf view)]
  exact readLines_ok_iff _ _ _

/-- `ERROR` is a result that `parseOneLine` never returns. -/
theorem readLines_result (p : HttpParser) (tail : List Byte) (pos : Nat) (bodies : List (List Byte)) :
    Yields (fun r => r.result ≠ .error) (p.readLines tail pos bodies) := by
  induction bodies generalizing p pos with
  | nil =>
    simp only [readLines, yields_bind, yields_ensure, yields_pure]
    exact fun _ => by simp
  | cons body bodies ih =>
    by_cases takes : Takes p.state (p.tempLine ++ body)
    · rcases verdict_cases p.state (p.tempLine ++ body) with last | more
      · rw [readLines_finish takes last, yields_ok]
        simp
      · rw [readLines_intermidiate takes more]
        exact ih _ _
    · rw [readLines_fault takes]
      exact yields_error _ _

theorem parse_result (p : HttpParser) (view : List Byte) : Yields (fun r => r.result ≠ .error) (p.parse view) := by
  rw [parse_eq (isCut_cut crlf view)]
  exact p.readLines_result _ _ _

end HttpParser

/-- A parser and all the bytes it was called with. -/
structure Feed where
  parser : HttpParser
  received : List Byte

namespace Feed

def start : Feed := ⟨.new, []⟩

def step (f : Feed) (view : List Byte) : Comp ParseFault Feed := do
  let r ← f.parser.parse view
  return ⟨r.parser, f.received ++ view⟩

/-- The call returned, and where a line of the head is malformed it returned `ERROR`. -/
def Answered (f : Feed) (view : List Byte) (after : Feed) : Prop :=
  ∃ r, f.parser.parse view = .ok r ∧ r.parser = after.parser ∧
    (Malformed (f.received ++ view) → r.result = .error)

/-- The head follows the grammar so far, and the call finds the pieces and the bytes it looks at. -/
def Sound (f : Feed) (view : List Byte) : Prop := ¬ Malformed (f.received ++ view) ∧ f.parser.Readable view

instance (f : Feed) (view : List Byte) : Decidable (f.Sound view) := inferInstanceAs (Decidable (_ ∧ _))

theorem answered_iff (f : Feed) (view : List Byte) :
    (∃ after, f.step view = .ok after ∧ f.Answered view after) ↔ f.Sound view := by
  constructor
  · rintro ⟨after, -, r, returned, -, reported⟩
    -- a call that returns never returns `ERROR`, so there was nothing to report
    refine ⟨fun malformed => ?_, (f.parser.parse_ok_iff view).mp ⟨r, returned⟩⟩
    exact f.parser.parse_result view r returned (reported malformed)
  · rintro ⟨wellFormed, readable⟩
    obtain ⟨r, returned⟩ := (f.parser.parse_ok_iff view).mpr readable
    refine ⟨⟨r.parser, f.received ++ view⟩, ?_, r, returned, rfl, fun malformed => absurd malformed wellFormed⟩
    rw [step, returned]
    rfl

/-- For every sequence of chunks: each call returns without an access that is out of range and reports
the malformed lines of the head, if and only if in each call the head follows the grammar so far, the
lines up to its end have the pieces that are looked at, and two bytes follow the last line end where the
head does not end. -/
theorem parser_total_iff (chunks : List (List Byte)) :
    Run.Each step Answered start chunks ↔ Run.Meets step Sound start chunks :=
  Run.each_iff_meets answered_iff start chunks

/-- `G / H`, a request line. -/
def shortRequestLine : List Byte := [71, 32, 47, 32, 72]

/-- `G / H X Y Z`, which has more than three words. -/
def longRequestLine : List Byte := shortRequestLine ++ [32, 88, 32, 89, 32, 90]

/-- Two spaces. -/
def blankRequestLine : List Byte := [32, 32]

/-- ` / H` without a method, and a header line that is a colon. -/
def namelessHead : List Byte := [32, 47, 32, 72, 13, 10, 58]

/-- An empty request line, a request line of one piece, a header line without a colon: the pieces are
indexed behind their end. A call that ends with a line end, or one byte after it: the range that is
carried over starts behind the end. Request lines with empty words or too many of them, and a header
without a name: the call returns `FINISH`. -/
theorem parser_not_total :
    HttpParser.new.parse [13, 10] = .error (.fault .piece) ∧
    HttpParser.new.parse [71, 13, 10] = .error (.fault .piece) ∧
    HttpParser.new.parse (shortRequestLine ++ [13, 10, 65, 13, 10, 13, 10]) = .error (.fault .piece) ∧
    HttpParser.new.parse (shortRequestLine ++ [13, 10]) = .error (.fault .range) ∧
    HttpParser.new.parse (shortRequestLine ++ [13, 10, 65]) = .error (.fault .range) ∧
    (∀ head ∈ [blankRequestLine, namelessHead, longRequestLine],
      (HttpParser.new.parse (head ++ [13, 10, 13, 10])).toOption.map Parsed.result = some .finish ∧
      Malformed (head ++ [13, 10, 13, 10]) ∧
      ¬ Run.Each step Answered start [head ++ [13, 10, 13, 10]]) ∧
    ¬ Run.Each step Answered start [[13, 10]] ∧
    ¬ Run.Each step Answered start [shortRequestLine ++ [13, 10], [65, 58, 66, 13, 10, 13, 10]] := by
  simp only [Run.each_iff_meets answered_iff]
  refine ⟨?_, ?_, ?_, ?_, ?_, ?_, ?_, ?_⟩ <;> decide +kernel

end Feed

end Rnet.Http
