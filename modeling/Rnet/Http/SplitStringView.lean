import Rnet.Lib.Cut
import Rnet.Lib.Memory
import Rnet.File.ConnBuffer

/-!
# Splitting at a delimiter

`splitStringView` of `HttpParser.cc`, by which the parser takes a request line apart at its spaces and a
header line at its colons. The loop goes from delimiter to delimiter; the last piece is what lies
behind the last one.
-/
namespace Rnet.Http

open Cut Memory
open File (Byte)

/-- The loop with `result` and `last_pos`; `pos` is the next delimiter. -/
def splitLoop (strView : List Byte) (delimeter : Byte) (result : List (List Byte)) (lastPos : Nat) :
    List (List Byte) :=
  match _found : (Mark.single delimeter).findFrom? strView lastPos with
  | some pos => splitLoop strView delimeter (result ++ [slice strView lastPos pos]) (pos + 1)
  | none => result ++ [slice strView lastPos strView.length]
termination_by strView.length - lastPos
decreasing_by
  have bound : lastPos ≤ pos ∧ pos + 1 ≤ strView.length := findFrom?_bound _found
  omega

def splitStringView (strView : List Byte) (delimeter : Byte) : List (List Byte) :=
  if strView = [] then [] else splitLoop strView delimeter [] 0

/-- Behind `front`, the loop appends the bodies and the tail of what is left. -/
theorem splitLoop_eq {rest : List Byte} {d : Byte} {bodies : List (List Byte)} {tail : List Byte}
    (cut : IsCut (.single d) rest bodies tail) (front : List Byte) (result : List (List Byte)) :
    splitLoop (front ++ rest) d result front.length = result ++ (bodies ++ [tail]) := by
  induction bodies generalizing front rest result with
  | nil =>
    obtain rfl : tail = rest := cut.whole
    rw [splitLoop]
    split
    next pos found => rw [findFrom?_free front cut.tail_free] at found; cases found
    next => rw [slice_end, List.nil_append]
  | cons line bodies ih =>
    obtain ⟨behind, free, rfl⟩ := cut.rest
    have nearest := findFrom?_line front free (marked (.single d) bodies ++ tail)
    rw [splitLoop]
    split
    next pos found =>
      obtain rfl : front.length + line.length = pos := Option.some.inj (nearest.symm.trans found)
      have reached : front.length + line.length + 1 = (front ++ (line ++ [d])).length := by
        simp only [List.length_append, List.length_singleton]
        omega
      have later := ih behind (front ++ (line ++ [d])) (result ++ [line])
      simp only [List.append_assoc] at later
      rw [slice_between, reached]
      exact later
    next found => rw [nearest] at found; cases found

/-- The pieces are the bodies and the tail of the cut at the delimiter. -/
theorem splitStringView_eq {s : List Byte} {d : Byte} {bodies : List (List Byte)} {tail : List Byte}
    (nonempty : s ≠ []) (cut : IsCut (.single d) s bodies tail) : splitStringView s d = bodies ++ [tail] := by
  rw [splitStringView, if_neg nonempty]
  exact splitLoop_eq cut [] []

theorem count_eq {s : List Byte} {d : Byte} {bodies : List (List Byte)} {tail : List Byte}
    (cut : IsCut (.single d) s bodies tail) : s.count d = bodies.length := by
  induction bodies generalizing s with
  | nil =>
    obtain rfl : tail = s := cut.whole
    exact List.count_eq_zero_of_not_mem (free_single.mp cut.tail_free)
  | cons line bodies ih =>
    obtain ⟨behind, free, rfl⟩ := cut.rest
    have absent : line.count d = 0 := List.count_eq_zero_of_not_mem (free_single.mp free)
    have one : (Mark.single d).text.count d = 1 := List.count_singleton_self
    rw [List.count_append, List.count_append, absent, one, ih behind, List.length_cons]
    omega

/-- For every non-empty string and every delimiter: no piece has a delimiter in it, there is one piece
more than there are delimiters, and joining the pieces gives the string back. No other list of pieces
does all this. -/
theorem splitStringView_exact (s : List Byte) (d : Byte) (nonempty : s ≠ []) :
    ((∀ piece ∈ splitStringView s d, d ∉ piece) ∧
      (splitStringView s d).length = s.count d + 1 ∧
      [d].intercalate (splitStringView s d) = s) ∧
    ∀ pieces : List (List Byte), (∀ piece ∈ pieces, d ∉ piece) → pieces.length = s.count d + 1 →
      [d].intercalate pieces = s → pieces = splitStringView s d := by
  have cut := isCut_cut (.single d) s
  rw [splitStringView_eq nonempty cut]
  refine ⟨⟨?_, ?_, ?_⟩, ?_⟩
  · intro piece member
    rcases List.mem_append.mp member with body | last
    · exact free_single.mp (cut.bodies_free piece body)
    · rw [List.mem_singleton.mp last]
      exact free_single.mp cut.tail_free
  · rw [List.length_append, List.length_singleton, count_eq cut]
  · exact (marked_tail (.single d) _ _).symm.trans cut.whole
  · intro pieces clean size joined
    -- the last piece is the tail of a cut, and there is only one cut
    obtain ⟨front, last, rfl⟩ : ∃ front last, pieces = front ++ [last] := by
      refine ⟨pieces.dropLast, pieces.getLast ?_, (List.dropLast_concat_getLast _).symm⟩
      rintro rfl
      cases size
    have other : IsCut (.single d) s front last := by
      refine ⟨?_, fun body member => ?_, ?_⟩
      · rw [marked_tail]
        exact joined
      · exact free_single.mpr (clean body (List.mem_append_left _ member))
      · exact free_single.mpr (clean last (List.mem_append_right _ (List.mem_singleton_self last)))
    rw [other.eq]

/-- A run of delimiters, and delimiters at both ends. -/
theorem splitStringView_exact_spaces :
    splitStringView [32, 1, 32, 32, 2, 32] 32 = [[], [1], [], [2], []] ∧
    (splitStringView [32, 1, 32, 32, 2, 32] 32).length = [32, 1, 32, 32, 2, 32].count (32 : Byte) + 1 :=
  ⟨by decide +kernel, (splitStringView_exact [32, 1, 32, 32, 2, 32] 32 (by decide)).1.2.1⟩

end Rnet.Http
