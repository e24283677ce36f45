import Rnet.Lib.Cut
import Rnet.Log.LogStream

/-!
# The records of the logger

`rnet::log::Logger`: the constructor writes the time, the thread and the level into the stream, the operands
of the log statement follow, and the destructor adds the place in the source and a newline and passes the
content to `globalOutput`. Each piece is left out if it does not fit, and so is the newline: a stream that
is filled to its last byte gives a record that is not ended, and the next one is glued to it.
-/
namespace Rnet.Log

open Check Cut Memory Rnet.File

def kNewline : Byte := 10

/-! ### Texts -/

/-- `%0*d`. -/
def zeroPadded (width : Nat) (v : Int) : List Byte :=
  let digits := decimalText v.natAbs
  sign v ++ List.replicate (width - (sign v ++ digits).length) '0'.toUInt8 ++ digits

/-- `%*d`. -/
def spacePadded (width : Nat) (v : Int) : List Byte :=
  List.replicate (width - (decimalText v).length) ' '.toUInt8 ++ decimalText v

/-- `struct tm`, of a time in the years 1000 to 9999. -/
structure Tm where
  tmYear : Int
  tmMon : Int
  tmMday : Int
  tmHour : Int
  tmMin : Int
  tmSec : Int
  year : -900 ≤ tmYear ∧ tmYear ≤ 8099
  mon : 0 ≤ tmMon ∧ tmMon ≤ 11
  mday : 1 ≤ tmMday ∧ tmMday ≤ 31
  hour : 0 ≤ tmHour ∧ tmHour ≤ 23
  min : 0 ≤ tmMin ∧ tmMin ≤ 59
  sec : 0 ≤ tmSec ∧ tmSec ≤ 60

/-- What is printed into `tTimeBuf`. -/
def timeText (tm : Tm) : List Byte :=
  spacePadded 4 (tm.tmYear + 1900) ++ zeroPadded 2 (tm.tmMon + 1) ++ zeroPadded 2 tm.tmMday ++ [' '.toUInt8] ++
    zeroPadded 2 tm.tmHour ++ [':'.toUInt8] ++ zeroPadded 2 tm.tmMin ++ [':'.toUInt8] ++ zeroPadded 2 tm.tmSec

/-- What `Fmt` makes of the microseconds. -/
def microText (microseconds : Int) : List Byte :=
  ['.'.toUInt8] ++ zeroPadded 6 microseconds ++ ['Z', ' '].map Char.toUInt8

/-- What is printed into `tTreadIdString`. -/
def tidString (tid : Nat) : List Byte := spacePadded 5 tid ++ [' '.toUInt8]

inductive LogLevel where
  | trace
  | debug
  | info
  | warn
  | error
  | fatal
  deriving DecidableEq, Repr

def logLevelName : LogLevel → List Byte
  | .trace => ['T', 'R', 'A', 'C', 'E', ' '].map Char.toUInt8
  | .debug => ['D', 'E', 'B', 'U', 'G', ' '].map Char.toUInt8
  | .info => ['I', 'N', 'F', 'O', ' ', ' '].map Char.toUInt8
  | .warn => ['W', 'A', 'R', 'N', ' ', ' '].map Char.toUInt8
  | .error => ['E', 'R', 'R', 'O', 'R', ' '].map Char.toUInt8
  | .fatal => ['F', 'A', 'T', 'A', 'L', ' '].map Char.toUInt8

/-! ### The logger -/

/-- What comes from outside: `gmtime_r`, `strerror_r`, and `snprintf` of a floating-point number. -/
structure LogEnv where
  gmtime : Int → Tm
  errnoMessage : Int32 → List Byte
  format : Float → NumericText

/-- What a thread keeps from one statement to the next. -/
structure LogThread where
  lastSecond : Int
  /-- The string in `tTimeBuf`. -/
  timeBuf : List Byte
  tid : Nat
  deriving DecidableEq, Repr

/-- `Logger::SourceFile`. -/
structure SourceFile where
  data : Pointer
  size : Int32

/-- What comes after the last slash. -/
def afterSlash (name : List Byte) : List Byte := (name.reverse.takeWhile (· ≠ '/'.toUInt8)).reverse

/-- `SourceFile( const char* )`. -/
def SourceFile.ofName (filename : List Byte) : SourceFile :=
  let name := afterSlash (untilNul filename)
  ⟨chars name, Int32.ofNat name.length⟩

inductive LoggerFault where
  | assert
  | text (f : TextFault)
  deriving DecidableEq, Repr

/-- The constructors of `Logger`, by what they have besides the file and the line. -/
inductive LoggerForm where
  | plain
  | func (level : LogLevel) (func : Option (List Byte))
  | level (level : LogLevel)
  | abort (toAbort : Bool)

def LoggerForm.logLevel : LoggerForm → LogLevel
  | .plain => .info
  | .func l _ => l
  | .level l => l
  | .abort toAbort => if toAbort then .fatal else .error

/-- A log statement, with the time and the `errno` at which it is executed. -/
structure LogStatement where
  now : Int
  errno : Int32
  file : SourceFile
  line : Int32
  form : LoggerForm
  operands : List Insertion

/-- What the destructor does: the record for `globalOutput`, and whether it aborts. -/
structure LogOutput where
  record : List Byte
  aborts : Bool
  deriving DecidableEq, Repr

namespace Logger

variable (env : LogEnv)

-- `insertAll` and `insertT` are not to be unfolded by unification, which would run them
@[irreducible] def insertAll (s : LogStream) (ops : List Insertion) : Comp LoggerFault LogStream :=
  lift .text (Run.exec (LogStream.step env.format) s ops)

/-- `stream_ << T( str, len )`. -/
@[irreducible] def insertT (s : LogStream) (str : List Byte) (len : Nat) : Comp LoggerFault LogStream := do
  ensure .assert ((untilNul str).length = len)
  insertAll env s [.append (chars str) (Int32.ofNat len)]

/-- The text of the second is made once for all statements of it. -/
def cacheSecond (th : LogThread) (seconds : Int) : Comp LoggerFault LogThread :=
  if seconds ≠ th.lastSecond then do
    let text := timeText (env.gmtime seconds)
    ensure .assert (text.length = 17)
    return { th with lastSecond := seconds, timeBuf := text }
  else
    return th

def formatTime (th : LogThread) (now : Int) (s : LogStream) : Comp LoggerFault (LogThread × LogStream) := do
  let seconds := now.tdiv 1000000
  let microseconds := now.tmod 1000000
  let th ← cacheSecond env th seconds
  let us := microText microseconds
  ensure .assert (us.length = 9)
  let s ← insertT env s th.timeBuf 17
  let s ← insertT env s us 9
  return (th, s)

/-- What is said of an error. -/
def errnoPieces (savedErrno : Int32) : List Insertion :=
  if savedErrno ≠ 0 then
    [.cString (env.errnoMessage savedErrno), .cString ([' ', '(', 'e', 'r', 'r', 'n', 'o', '='].map Char.toUInt8),
      .int32 savedErrno, .cString ([')', ' '].map Char.toUInt8)]
  else
    []

/-- `Impl::Impl`, with the stream it leaves. -/
def newImpl (th : LogThread) (now : Int) (level : LogLevel) (savedErrno : Int32) :
    Comp LoggerFault (LogThread × LogStream) := do
  let (th, s) ← formatTime env th now .new
  let s ← insertT env s (tidString th.tid) (tidString th.tid).length
  let s ← insertT env s (logLevelName level) 6
  let s ← insertAll env s (errnoPieces env savedErrno)
  return (th, s)

/-- The constructor of the logger. -/
def new (th : LogThread) (st : LogStatement) : Comp LoggerFault (LogThread × LogStream) :=
  match st.form with
  | .plain => newImpl env th st.now .info 0
  | .func level func => do
    let (th, s) ← newImpl env th st.now level 0
    let s ← insertAll env s [.cString func, .char ' '.toUInt8]
    return (th, s)
  | .level level => newImpl env th st.now level 0
  | .abort toAbort => newImpl env th st.now (if toAbort then .fatal else .error) st.errno

def finish (s : LogStream) (basename : SourceFile) (line : Int32) : Comp LoggerFault LogStream :=
  insertAll env s [.cString ([' ', '-', ' '].map Char.toUInt8), .append basename.data basename.size,
    .char ':'.toUInt8, .int32 line, .char kNewline]

/-- A log statement: the logger is constructed, gets the operands and is destroyed. -/
def log (th : LogThread) (st : LogStatement) : Comp LoggerFault (LogThread × LogOutput) := do
  let (th, s) ← new env th st
  let s ← insertAll env s st.operands
  let s ← finish env s st.file st.line
  return (th, ⟨s.content, st.form.logLevel = .fatal⟩)

/-- The records of the statements of a thread, up to the one that aborts the process. -/
def session (th : LogThread) : List LogStatement → Comp LoggerFault (List (List Byte))
  | [] => return []
  | st :: rest => do
    let (th, out) ← log env th st
    if out.aborts then
      return [out.record]
    else do
      let records ← session th rest
      return out.record :: records

/-! ### What the pieces are -/

/-- The characters that end neither a line nor a string. -/
def Printable (text : List Byte) : Prop := ∀ c ∈ text, 32 ≤ c.toNat

instance (text : List Byte) : Decidable (Printable text) := List.decidableBAll (fun c : Byte => 32 ≤ c.toNat) text

theorem Printable.append {a b : List Byte} (first : Printable a) (second : Printable b) : Printable (a ++ b) := by
  intro c member
  rcases List.mem_append.mp member with left | right
  · exact first c left
  · exact second c right

theorem printable_replicate (n : Nat) {c : Byte} (printable : 32 ≤ c.toNat) : Printable (List.replicate n c) := by
  intro d member
  rw [(List.mem_replicate.mp member).2]
  exact printable

theorem Printable.newline {text : List Byte} (printable : Printable text) : kNewline ∉ text :=
  fun member => absurd (printable kNewline member) (by decide)

theorem Printable.untilNul {text : List Byte} (printable : Printable text) : untilNul text = text := by
  induction text with
  | nil => rfl
  | cons c rest ih =>
    have low := printable c List.mem_cons_self
    have nonzero : c ≠ 0 := by
      rintro rfl
      exact absurd low (by decide)
    rw [Log.untilNul, List.takeWhile_cons_of_pos (by simpa using nonzero)]
    exact congrArg (c :: ·) (ih fun d member => printable d (List.mem_cons_of_mem c member))

theorem decimalText_printable (v : Int) : Printable (decimalText v) := by
  have digits : ∀ d, d < 10 → 32 ≤ (decimalDigit d).toNat := by decide
  apply Printable.append
  · rw [sign]
    split <;> decide
  · intro c member
    obtain ⟨d, place, rfl⟩ := List.mem_map.mp member
    exact digits d (Numeral.places_lt (by decide) v.natAbs d (List.mem_reverse.mp place))

theorem zeroPadded_printable (width : Nat) (v : Int) : Printable (zeroPadded width v) := by
  apply Printable.append
  · apply Printable.append
    · rw [sign]
      split <;> decide
    · exact printable_replicate _ (by decide)
  · exact decimalText_printable _

theorem spacePadded_printable (width : Nat) (v : Int) : Printable (spacePadded width v) :=
  (printable_replicate _ (by decide)).append (decimalText_printable v)

theorem timeText_printable (tm : Tm) : Printable (timeText tm) := by
  have number := zeroPadded_printable 2
  have space : Printable [' '.toUInt8] := by decide
  have colon : Printable [':'.toUInt8] := by decide
  exact ((((((((spacePadded_printable 4 _).append (number _)).append (number _)).append space).append
    (number _)).append colon).append (number _)).append colon).append (number _)

theorem microText_printable (microseconds : Int) : Printable (microText microseconds) :=
  (Printable.append (by decide) (zeroPadded_printable 6 microseconds)).append (by decide)

theorem tidString_printable (tid : Nat) : Printable (tidString tid) :=
  (spacePadded_printable 5 tid).append (by decide)

theorem logLevelName_printable (level : LogLevel) : Printable (logLevelName level) := by
  cases level <;> decide

theorem length_decimalText {width : Nat} {v : Int} (positive : 0 < width) (nonneg : 0 ≤ v) (small : v < 10 ^ width) :
    (decimalText v).length ≤ width := by
  have plus : sign v = [] := if_neg (by omega)
  have below : v.natAbs < 10 ^ width := by
    rw [← Int.natAbs_of_nonneg nonneg] at small
    exact_mod_cast small
  rw [decimalText, plus, List.nil_append, List.length_map, List.length_reverse]
  exact Numeral.length_places_le (by decide) positive below

theorem zeroPadded_length {width : Nat} {v : Int} (positive : 0 < width) (nonneg : 0 ≤ v) (small : v < 10 ^ width) :
    (zeroPadded width v).length = width := by
  have plus : sign v = [] := if_neg (by omega)
  have same : ((v.natAbs : Nat) : Int) = v := by omega
  have short := length_decimalText positive nonneg small
  simp only [zeroPadded, plus, same, List.nil_append, List.length_append, List.length_replicate]
  omega

theorem spacePadded_length {width : Nat} {v : Int} (positive : 0 < width) (nonneg : 0 ≤ v) (small : v < 10 ^ width) :
    (spacePadded width v).length = width := by
  have short := length_decimalText positive nonneg small
  rw [spacePadded, List.length_append, List.length_replicate]
  omega

theorem timeText_length (tm : Tm) : (timeText tm).length = 17 := by
  obtain ⟨tmYear, tmMon, tmMday, tmHour, tmMin, tmSec, year, mon, mday, hour, min, sec⟩ := tm
  have two (v : Int) (nonneg : 0 ≤ v) (small : v < 100) : (zeroPadded 2 v).length = 2 :=
    zeroPadded_length (by decide) nonneg (by simpa using small)
  have four : (spacePadded 4 (tmYear + 1900)).length = 4 :=
    spacePadded_length (by decide) (by omega) (by norm_num; omega)
  simp only [timeText, List.length_append, List.length_singleton, four]
  rw [two _ (by omega) (by omega), two _ (by omega) (by omega), two _ (by omega) (by omega),
    two _ (by omega) (by omega), two _ (by omega) (by omega)]

theorem microText_length {microseconds : Int} (nonneg : 0 ≤ microseconds) (small : microseconds < 1000000) :
    (microText microseconds).length = 9 := by
  have six : (zeroPadded 6 microseconds).length = 6 := zeroPadded_length (by decide) nonneg (by simpa using small)
  simp [microText, six]

/-! ### What a statement inserts -/

def timePieces (now : Int) : List Insertion :=
  [.append (chars (timeText (env.gmtime (now.tdiv 1000000)))) (Int32.ofNat 17),
    .append (chars (microText (now.tmod 1000000))) (Int32.ofNat 9)]

def implPieces (tid : Nat) (now : Int) (level : LogLevel) (savedErrno : Int32) : List Insertion :=
  timePieces env now ++ [.append (chars (tidString tid)) (Int32.ofNat (tidString tid).length),
    .append (chars (logLevelName level)) (Int32.ofNat 6)] ++ errnoPieces env savedErrno

def newPieces (tid : Nat) (st : LogStatement) : List Insertion :=
  match st.form with
  | .plain => implPieces env tid st.now .info 0
  | .func level func => implPieces env tid st.now level 0 ++ [.cString func, .char ' '.toUInt8]
  | .level level => implPieces env tid st.now level 0
  | .abort toAbort => implPieces env tid st.now (if toAbort then .fatal else .error) st.errno

/-- All pieces in front of the newline. -/
def pieces (tid : Nat) (st : LogStatement) : List Insertion :=
  newPieces env tid st ++ st.operands ++ [.cString ([' ', '-', ' '].map Char.toUInt8),
    .append st.file.data st.file.size, .char ':'.toUInt8, .int32 st.line]

/-- The text that is cached is that of the second. -/
def LogThread.Wf (th : LogThread) : Prop := th.lastSecond ≠ 0 → th.timeBuf = timeText (env.gmtime th.lastSecond)

/-- The thread goes on, and the stream holds the pieces that fit. -/
structure Ready (tid : Nat) (ops : List Insertion) (r : LogThread × LogStream) : Prop where
  wf : LogThread.Wf env r.1
  tid : r.1.tid = tid
  holds : r.2.Holds (ops.foldl (insert env.format) [])

variable {env} {s : LogStream} {th : LogThread} {tid : Nat} {ops : List Insertion}

theorem insertAll_holds (holds : s.Holds (ops.foldl (insert env.format) [])) (more : List Insertion) :
    Returns (fun after => after.Holds ((ops ++ more).foldl (insert env.format) [])) (insertAll env s more) := by
  rw [insertAll, returns_lift, List.foldl_append]
  have allowed : Run.Meets (LogStream.step env.format) (fun _ _ => True) s more :=
    Run.meets_of_forall s more fun _ _ _ => trivial
  exact Run.exec_refines (fun s texts op holds _ => LogStream.step_holds env.format s texts op holds) s _ more holds
    allowed

theorem insertT_holds (holds : s.Holds (ops.foldl (insert env.format) [])) {str : List Byte} {len : Nat}
    (printable : Printable str) (length : str.length = len) :
    Returns (fun after => after.Holds
        ((ops ++ [Insertion.append (chars str) (Int32.ofNat len)]).foldl (insert env.format) []))
      (insertT env s str len) := by
  rw [insertT, returns_bind, returns_ensure, printable.untilNul]
  exact ⟨length, insertAll_holds holds _⟩

theorem cacheSecond_wf (wf : LogThread.Wf env th) {seconds : Int} (later : seconds ≠ 0) :
    Returns (fun after => LogThread.Wf env after ∧ after.tid = th.tid ∧ after.timeBuf = timeText (env.gmtime seconds))
      (cacheSecond env th seconds) := by
  rw [cacheSecond]
  split
  next =>
    simp only [returns_bind, returns_ensure, returns_pure]
    exact ⟨timeText_length _, fun _ => rfl, trivial, trivial⟩
  next same =>
    have same : seconds = th.lastSecond := not_not.mp same
    rw [same] at later ⊢
    exact ⟨wf, rfl, wf later⟩

theorem formatTime_ready (wf : LogThread.Wf env th) {now : Int} (later : 1000000 ≤ now) :
    Returns (Ready env th.tid (timePieces env now)) (formatTime env th now .new) := by
  have seconds : now.tdiv 1000000 ≠ 0 := by
    rw [Int.tdiv_eq_ediv_of_nonneg (by omega)]
    omega
  have micro : 0 ≤ now.tmod 1000000 ∧ now.tmod 1000000 < 1000000 := by
    rw [Int.tmod_eq_emod_of_nonneg (by omega)]
    omega
  have start : LogStream.new.Holds (([] : List Insertion).foldl (insert env.format) []) := LogStream.new_holds
  simp only [formatTime]
  apply (cacheSecond_wf wf seconds).bind
  rintro after ⟨wf', tid, text⟩
  rw [returns_bind, returns_ensure, text]
  constructor
  · exact microText_length micro.1 micro.2
  apply (insertT_holds start (timeText_printable _) (timeText_length _)).bind
  intro s first
  apply (insertT_holds first (microText_printable _) (microText_length micro.1 micro.2)).bind
  intro s second
  rw [List.nil_append, List.singleton_append] at second
  exact (returns_pure _ _).mpr ⟨wf', tid, second⟩

theorem newImpl_ready (wf : LogThread.Wf env th) {now : Int} (later : 1000000 ≤ now) (level : LogLevel)
    (savedErrno : Int32) :
    Returns (Ready env th.tid (implPieces env th.tid now level savedErrno)) (newImpl env th now level savedErrno) := by
  have name : (logLevelName level).length = 6 := by cases level <;> rfl
  rw [newImpl]
  refine (formatTime_ready wf later).bind ?_
  rintro ⟨after, s⟩ ⟨wf', tid, holds⟩
  simp only at wf' tid holds ⊢
  rw [tid]
  refine (insertT_holds holds (tidString_printable _) rfl).bind ?_
  intro s first
  refine (insertT_holds first (logLevelName_printable level) name).bind ?_
  intro s second
  refine (insertAll_holds second _).bind ?_
  intro s third
  refine (returns_pure _ _).mpr ⟨wf', tid, ?_⟩
  rw [List.append_assoc (timePieces env now)] at third
  exact third

theorem new_ready (wf : LogThread.Wf env th) {st : LogStatement} (later : 1000000 ≤ st.now) :
    Returns (Ready env th.tid (newPieces env th.tid st)) (new env th st) := by
  rw [new, newPieces]
  cases st.form with
  | plain => exact newImpl_ready wf later _ _
  | func level func =>
    refine (newImpl_ready wf later level 0).bind ?_
    rintro ⟨after, s⟩ ⟨wf', tid, holds⟩
    refine (insertAll_holds holds _).bind ?_
    intro s more
    exact (returns_pure _ _).mpr ⟨wf', tid, more⟩
  | level level => exact newImpl_ready wf later _ _
  | abort toAbort => exact newImpl_ready wf later _ _

/-- The record is the texts of the pieces that fit. -/
theorem log_pieces (wf : LogThread.Wf env th) {st : LogStatement} (later : 1000000 ≤ st.now) :
    Returns (fun r => LogThread.Wf env r.1 ∧ r.1.tid = th.tid ∧
        r.2 = ⟨((pieces env th.tid st ++ [Insertion.char kNewline]).foldl (insert env.format) []).flatten,
          st.form.logLevel = .fatal⟩)
      (log env th st) := by
  simp only [log]
  apply (new_ready wf later).bind
  rintro ⟨after, s⟩ ⟨wf', tid, holds⟩
  apply (insertAll_holds holds st.operands).bind
  intro s more
  rw [finish]
  apply (insertAll_holds more _).bind
  intro s last
  have same : pieces env th.tid st ++ [Insertion.char kNewline] =
      newPieces env th.tid st ++ st.operands ++ [.cString ([' ', '-', ' '].map Char.toUInt8),
        .append st.file.data st.file.size, .char ':'.toUInt8, .int32 st.line, .char kNewline] := by
    rw [pieces, List.append_assoc _ _ [Insertion.char kNewline]]
    rfl
  refine (returns_pure _ _).mpr ⟨wf', tid, ?_⟩
  rw [last.content, same]

/-! ### Whether there is room for the newline -/

variable (env) in
/-- How many bytes the stream holds after an insertion, `n` being what it held before. -/
def fillLevel (n : Nat) (op : Insertion) : Nat :=
  match op, op.operand? env.format with
  | .resetBuffer, _ => 0
  | _, some operand => if operand.room ≤ kSmallSize - n then n + operand.text.length else n
  | _, none => n

variable (env) in
/-- How many bytes the stream holds in front of the newline. -/
def fill (tid : Nat) (st : LogStatement) : Nat := (pieces env tid st).foldl (fillLevel env) 0

/-- An insertion is that of its operand, or there is none. -/
theorem insert_cases (texts : List (List Byte)) (op : Insertion) :
    (∃ operand, op.operand? env.format = some operand ∧
      insert env.format texts op =
        (if operand.room ≤ kSmallSize - texts.flatten.length then texts ++ [operand.text] else texts) ∧
      ∀ n, fillLevel env n op = if operand.room ≤ kSmallSize - n then n + operand.text.length else n) ∨
    (insert env.format texts op = [] ∧ ∀ n, fillLevel env n op = 0) ∨
    (insert env.format texts op = texts ∧ ∀ n, fillLevel env n op = n) := by
  cases op with
  | buffer => exact Or.inr (Or.inr ⟨rfl, fun _ => rfl⟩)
  | resetBuffer => exact Or.inr (Or.inl ⟨rfl, fun _ => rfl⟩)
  | _ => exact Or.inl ⟨_, rfl, rfl, fun _ => rfl⟩

theorem insert_length (texts : List (List Byte)) (op : Insertion) :
    (insert env.format texts op).flatten.length = fillLevel env texts.flatten.length op := by
  rcases insert_cases texts op with ⟨operand, _, inserted, level⟩ | ⟨inserted, level⟩ | ⟨inserted, level⟩
  · rw [inserted, level]
    split
    · rw [List.flatten_append, List.flatten_singleton, List.length_append]
    · rfl
  · rw [inserted, level]
    rfl
  · rw [inserted, level]

theorem foldl_insert_length (ops : List Insertion) (texts : List (List Byte)) :
    (ops.foldl (insert env.format) texts).flatten.length = ops.foldl (fillLevel env) texts.flatten.length := by
  induction ops generalizing texts with
  | nil => rfl
  | cons op rest ih =>
    rw [List.foldl_cons, List.foldl_cons, ih, insert_length]

/-- The stream is never full. -/
theorem foldl_insert_lt (ops : List Insertion) :
    (ops.foldl (insert env.format) []).flatten.length < kSmallSize := by
  have start : LogStream.new.Holds (([] : List Insertion).foldl (insert env.format) []) := LogStream.new_holds
  obtain ⟨s, _, holds⟩ := (insertAll_holds start ops).exists
  have below := holds.below
  rw [holds.cur_eq, List.nil_append] at below
  exact below

theorem fill_lt (tid : Nat) (st : LogStatement) : fill env tid st < kSmallSize := by
  have below : ((pieces env tid st).foldl (insert env.format) []).flatten.length < kSmallSize :=
    foldl_insert_lt (pieces env tid st)
  rw [foldl_insert_length] at below
  exact below

/-! ### Newlines -/

variable (env) in
/-- The text of the operand has no newline. -/
def Plain (op : Insertion) : Prop := ∀ operand, op.operand? env.format = some operand → kNewline ∉ operand.text

theorem plain_ofText {op : Insertion} {text : List Byte} (operand : op.operand? env.format = some (.ofText text))
    (newlineFree : kNewline ∉ text) : Plain env op := by
  intro o present
  rw [operand] at present
  obtain rfl := Option.some.inj present
  exact newlineFree

theorem untilNul_plain {str : List Byte} (newlineFree : kNewline ∉ str) : kNewline ∉ untilNul str :=
  fun member => newlineFree (List.takeWhile_sublist _ |>.subset member)

theorem cString_plain {str : List Byte} (newlineFree : kNewline ∉ str) : Plain env (.cString str) :=
  plain_ofText rfl (untilNul_plain newlineFree)

theorem int32_plain (v : Int32) : Plain env (.int32 v) := by
  intro o present
  obtain rfl := Option.some.inj present
  exact (decimalText_printable v.toInt).newline

/-- What is read behind a text is no newline. -/
theorem append_plain {text : List Byte} (newlineFree : kNewline ∉ text) (len : Int32) :
    Plain env (.append (chars text) len) := by
  intro o present
  obtain rfl := Option.some.inj present
  intro member
  obtain ⟨i, _, char⟩ := List.mem_map.mp member
  rw [chars, List.getD_eq_getElem?_getD] at char
  cases found : text[i]? with
  | none =>
    rw [found] at char
    exact absurd char (by decide)
  | some c =>
    rw [found] at char
    exact newlineFree (char ▸ List.mem_of_getElem? found)

theorem insert_plain {texts : List (List Byte)} (newlineFree : kNewline ∉ texts.flatten) {op : Insertion}
    (plain : Plain env op) : kNewline ∉ (insert env.format texts op).flatten := by
  rcases insert_cases texts op with ⟨operand, present, inserted, _⟩ | ⟨inserted, _⟩ | ⟨inserted, _⟩
  · rw [inserted]
    split
    · rw [List.flatten_append, List.flatten_singleton]
      intro member
      rcases List.mem_append.mp member with before | last
      · exact newlineFree before
      · exact plain operand present last
    · exact newlineFree
  · rw [inserted]
    exact List.not_mem_nil
  · rw [inserted]
    exact newlineFree

theorem foldl_insert_plain {ops : List Insertion} (plain : ∀ op ∈ ops, Plain env op) {texts : List (List Byte)}
    (newlineFree : kNewline ∉ texts.flatten) : kNewline ∉ (ops.foldl (insert env.format) texts).flatten := by
  induction ops generalizing texts with
  | nil => exact newlineFree
  | cons op rest ih =>
    rw [List.forall_mem_cons] at plain
    exact ih plain.2 (insert_plain newlineFree plain.1)

variable (env) in
/-- A statement that is executed after the first second of 1970 and has no newline in its parts. -/
structure Valid (st : LogStatement) : Prop where
  later : 1000000 ≤ st.now
  file : kNewline ∉ bytes st.file.data st.file.size.toInt.toNat
  errno : kNewline ∉ env.errnoMessage st.errno
  func : ∀ level func, st.form = .func level (some func) → kNewline ∉ func
  operands : ∀ op ∈ st.operands, Plain env op

theorem errnoPieces_plain {savedErrno : Int32} (newlineFree : savedErrno ≠ 0 → kNewline ∉ env.errnoMessage savedErrno) :
    ∀ op ∈ errnoPieces env savedErrno, Plain env op := by
  rw [errnoPieces]
  split
  next nonzero =>
    simp only [List.forall_mem_cons]
    exact ⟨cString_plain (newlineFree nonzero), cString_plain (by decide), int32_plain _, cString_plain (by decide),
      nofun⟩
  next => exact nofun

theorem implPieces_plain (tid : Nat) (now : Int) (level : LogLevel) {savedErrno : Int32}
    (newlineFree : savedErrno ≠ 0 → kNewline ∉ env.errnoMessage savedErrno) :
    ∀ op ∈ implPieces env tid now level savedErrno, Plain env op := by
  simp only [implPieces, timePieces, List.forall_mem_append, List.forall_mem_cons]
  refine ⟨⟨⟨?_, ?_, nofun⟩, ?_, ?_, nofun⟩, errnoPieces_plain newlineFree⟩
  · exact append_plain (timeText_printable _).newline _
  · exact append_plain (microText_printable _).newline _
  · exact append_plain (tidString_printable tid).newline _
  · exact append_plain (logLevelName_printable level).newline _

theorem newPieces_plain (tid : Nat) {st : LogStatement} (valid : Valid env st) :
    ∀ op ∈ newPieces env tid st, Plain env op := by
  have silent : (0 : Int32) ≠ 0 → kNewline ∉ env.errnoMessage 0 := fun nonzero => absurd rfl nonzero
  rw [newPieces]
  cases form : st.form with
  | plain => exact implPieces_plain tid st.now .info silent
  | func level func =>
    simp only [List.forall_mem_append, List.forall_mem_cons]
    refine ⟨implPieces_plain tid st.now level silent, ?_, plain_ofText rfl (by decide), nofun⟩
    cases func with
    | none => exact plain_ofText rfl (by decide)
    | some func => exact cString_plain (valid.func level func form)
  | level level => exact implPieces_plain tid st.now level silent
  | abort toAbort => exact implPieces_plain tid st.now _ fun _ => valid.errno

theorem pieces_plain (tid : Nat) {st : LogStatement} (valid : Valid env st) :
    ∀ op ∈ pieces env tid st, Plain env op := by
  simp only [pieces, List.forall_mem_append, List.forall_mem_cons]
  refine ⟨⟨newPieces_plain tid valid, valid.operands⟩, ?_, ?_, ?_, int32_plain _, nofun⟩
  · exact cString_plain (by decide)
  · intro operand present
    obtain rfl := Option.some.inj present
    exact valid.file
  · exact plain_ofText rfl (by decide)

/-! ### The records -/

/-- A line with its newline. -/
def OneLine (record : List Byte) : Prop := ∃ body, record = body ++ [kNewline] ∧ kNewline ∉ body

/-- The lines of a text with their newlines, and what is left behind the last one. -/
def splitLines (text : List Byte) : List (List Byte) :=
  let (bodies, tail) := (Mark.single kNewline).cut text
  bodies.map (· ++ [kNewline]) ++ if tail = [] then [] else [tail]

/-- Every record is a line, and the records can be told apart. -/
structure EachLine (records : List (List Byte)) : Prop where
  lines : ∀ record ∈ records, OneLine record
  splits : splitLines records.flatten = records

/-- The newline needs two free bytes. -/
theorem oneLine_iff {ops : List Insertion} (plain : ∀ op ∈ ops, Plain env op)
    (below : ops.foldl (fillLevel env) 0 < kSmallSize) :
    OneLine ((ops ++ [Insertion.char kNewline]).foldl (insert env.format) []).flatten ↔
      ops.foldl (fillLevel env) 0 ≠ 4095 := by
  have newlineFree : kNewline ∉ (ops.foldl (insert env.format) []).flatten := foldl_insert_plain plain List.not_mem_nil
  have length : (ops.foldl (insert env.format) []).flatten.length = ops.foldl (fillLevel env) 0 :=
    foldl_insert_length ops []
  rw [List.foldl_append]
  generalize ops.foldl (insert env.format) [] = texts at newlineFree length ⊢
  -- the stream takes a byte only where one more stays free
  have last : [Insertion.char kNewline].foldl (insert env.format) texts =
      if 2 ≤ kSmallSize - texts.flatten.length then texts ++ [[kNewline]] else texts := rfl
  rw [last, length]
  constructor
  · rintro ⟨body, record, _⟩ full
    have tight : ¬ 2 ≤ kSmallSize - ops.foldl (fillLevel env) 0 := by
      rw [full]
      decide
    rw [if_neg tight] at record
    apply newlineFree
    rw [record]
    exact List.mem_append_right body List.mem_cons_self
  · intro free
    have room : 2 ≤ kSmallSize - ops.foldl (fillLevel env) 0 := by
      unfold kSmallSize at below ⊢
      omega
    rw [if_pos room, List.flatten_append, List.flatten_singleton]
    exact ⟨texts.flatten, rfl, newlineFree⟩

/-- Lines that are written one behind the other are found again. -/
theorem splitLines_flatten {records : List (List Byte)} (lines : ∀ record ∈ records, OneLine record) :
    splitLines records.flatten = records := by
  obtain ⟨bodies, same, free⟩ : ∃ bodies : List (List Byte), records = bodies.map (· ++ [kNewline]) ∧
      ∀ body ∈ bodies, Free (.single kNewline) body := by
    induction records with
    | nil => exact ⟨[], rfl, nofun⟩
    | cons record rest ih =>
      rw [List.forall_mem_cons] at lines
      obtain ⟨⟨body, rfl, newlineFree⟩, later⟩ := lines
      obtain ⟨bodies, rfl, free⟩ := ih later
      exact ⟨body :: bodies, rfl, List.forall_mem_cons.mpr ⟨free_single.mpr newlineFree, free⟩⟩
  have text : records.flatten = marked (.single kNewline) bodies ++ [] := by
    rw [same, List.append_nil, marked, List.flatMap_def]
    rfl
  rw [splitLines, text, cut_marked free, cut_free (free_nil _), List.append_nil, same]
  exact List.append_nil _

theorem eachLine_iff (records : List (List Byte)) : EachLine records ↔ ∀ record ∈ records, OneLine record :=
  ⟨EachLine.lines, fun lines => ⟨lines, splitLines_flatten lines⟩⟩

/-- The statements up to the first one that aborts. -/
def executed : List LogStatement → List LogStatement
  | [] => []
  | st :: rest => st :: if st.form.logLevel = .fatal then [] else executed rest

theorem log_oneLine (wf : LogThread.Wf env th) {st : LogStatement} (valid : Valid env st) :
    Returns (fun r => LogThread.Wf env r.1 ∧ r.1.tid = th.tid ∧ (r.2.aborts = true ↔ st.form.logLevel = .fatal) ∧
        (OneLine r.2.record ↔ fill env th.tid st ≠ 4095))
      (log env th st) := by
  apply (log_pieces wf valid.later).mono
  rintro ⟨after, out⟩ ⟨wf', tid, rfl⟩
  refine ⟨wf', tid, decide_eq_true_iff, ?_⟩
  exact oneLine_iff (pieces_plain th.tid valid) (fill_lt th.tid st)

/-- The records of the statements, one by one. -/
theorem session_records (sts : List LogStatement) (wf : LogThread.Wf env th) (valid : ∀ st ∈ sts, Valid env st) :
    Returns (fun records =>
        List.Forall₂ (fun record st => OneLine record ↔ fill env th.tid st ≠ 4095) records (executed sts))
      (session env th sts) := by
  induction sts generalizing th with
  | nil => exact .nil
  | cons st rest ih =>
    rw [List.forall_mem_cons] at valid
    rw [session, executed]
    apply (log_oneLine wf valid.1).bind
    rintro ⟨after, out⟩ ⟨wf', tid, aborts, line⟩
    dsimp only at wf' tid aborts line ⊢
    by_cases fatal : st.form.logLevel = .fatal
    · -- the process aborts, and `rest` is not executed
      rw [if_pos (aborts.mpr fatal), if_pos fatal]
      exact (returns_pure _ _).mpr (.cons line .nil)
    · rw [if_neg (mt aborts.mp fatal), if_neg fatal]
      apply (ih wf' valid.2).bind
      intro records later
      rw [tid] at later
      exact (returns_pure _ _).mpr (.cons line later)

/-- For all statements of a thread: their records are lines, and split again into the records, exactly if in none of
them the stream is filled to its last byte in front of the newline. -/
theorem eachLine_session_iff (env : LogEnv) (th : LogThread) (sts : List LogStatement) (wf : LogThread.Wf env th)
    (valid : ∀ st ∈ sts, Valid env st) :
    Returns (fun records => EachLine records ↔ ∀ st ∈ executed sts, fill env th.tid st ≠ 4095)
      (session env th sts) := by
  apply (session_records sts wf valid).mono
  intro records each
  rw [eachLine_iff]
  generalize executed sts = ran at each ⊢
  induction each with
  | nil => exact ⟨nofun, nofun⟩
  | cons line _ ih => rw [List.forall_mem_cons, List.forall_mem_cons, line, ih]

/-- Always the same second. -/
def stillEnv : LogEnv where
  gmtime _ := ⟨126, 0, 2, 3, 4, 5, by decide, by decide, by decide, by decide, by decide, by decide⟩
  errnoMessage _ := []
  format _ := ⟨['0'.toUInt8], by decide⟩

/-- `a.cc`. -/
def sourceFile : SourceFile := .ofName [97, 46, 99, 99]

/-- `LOG_INFO << text`. -/
def infoStatement (text : List Byte) : LogStatement :=
  ⟨1767323045000000, 0, sourceFile, 7, .plain, [.string text]⟩

theorem infoStatement_valid {text : List Byte} (newlineFree : kNewline ∉ text) :
    Valid stillEnv (infoStatement text) where
  later := (by decide : (1000000 : Int) ≤ 1767323045000000)
  file := (by decide : kNewline ∉ bytes sourceFile.data sourceFile.size.toInt.toNat)
  errno := List.not_mem_nil
  func := nofun
  operands := List.forall_mem_singleton.mpr (plain_ofText rfl newlineFree)

theorem eachLine_session_iff_info :
    Returns (fun records => EachLine records ↔ ∀ st ∈ executed [infoStatement [104, 105]], fill stillEnv 42 st ≠ 4095)
      (session stillEnv ⟨0, [], 42⟩ [infoStatement [104, 105]]) :=
  eachLine_session_iff stillEnv ⟨0, [], 42⟩ [infoStatement [104, 105]] (fun nonzero => absurd rfl nonzero)
    (List.forall_mem_singleton.mpr (infoStatement_valid (by decide)))

/-- After 38 bytes of prefix the text fills the stream, and the record has no newline. -/
theorem full_not_line :
    Returns (fun r => ¬ OneLine r.2.record) (log stillEnv ⟨0, [], 42⟩ (infoStatement (List.replicate 4057 97))) := by
  have valid : Valid stillEnv (infoStatement (List.replicate 4057 97)) :=
    infoStatement_valid fun member => absurd (List.mem_replicate.mp member).2 (by decide)
  have full : fill stillEnv 42 (infoStatement (List.replicate 4057 97)) = 4095 := by
    decide +kernel
  apply (log_oneLine (fun nonzero => absurd rfl nonzero) valid).mono
  rintro r ⟨_, _, _, line⟩ one
  exact line.mp one full

end Logger

end Rnet.Log
