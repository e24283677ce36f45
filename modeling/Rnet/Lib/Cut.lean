import Mathlib

/-!
# Cutting a list at a mark

A mark is a list that no end of which begins it again, such as a single element or a carriage return
with a line feed: two of its occurrences never overlap. `find?` is its first position. `Cut m l bodies
tail` says that `l` is the bodies, a mark behind each of them, and the tail, with no mark inside a body
or the tail; there is exactly one such decomposition, and `cut` computes it.
-/
namespace Cut

variable {α : Type}

structure Mark (α : Type) where
  text : List α
  nonempty : text ≠ []
  /-- No end of the mark is also its beginning. -/
  unbordered : ∀ k, 0 < k → k < text.length → text.drop k ≠ text.take (text.length - k)

/-- The mark of one element. -/
def Mark.single (a : α) : Mark α where
  text := [a]
  nonempty := List.cons_ne_nil a []
  unbordered := by
    intro k positive less
    simp only [List.length_singleton] at less
    omega

/-- The mark of two different elements. -/
def Mark.pair (a b : α) (different : a ≠ b) : Mark α where
  text := [a, b]
  nonempty := List.cons_ne_nil a [b]
  unbordered := by
    intro k positive less
    have one : k = 1 := by
      simp only [List.length_cons, List.length_nil] at less
      omega
    subst one
    simp [different.symm]

/-- The mark is nowhere in the list. -/
def Free (m : Mark α) (l : List α) : Prop := ¬ m.text <:+: l

theorem free_nil (m : Mark α) : Free m [] := fun inside => m.nonempty (List.infix_nil.mp inside)

theorem free_single {a : α} {l : List α} : Free (.single a) l ↔ a ∉ l := by
  rw [Free, Mark.single, List.singleton_infix_iff]

theorem Free.tail {m : Mark α} {a : α} {l : List α} (free : Free m (a :: l)) : Free m l :=
  fun inside => free (inside.trans (List.suffix_cons a l).isInfix)

/-- An element that is not in the mark keeps two lists apart. -/
theorem Free.insert {m : Mark α} {a b : List α} {c : α} (first : Free m a) (second : Free m b) (apart : c ∉ m.text) :
    Free m (a ++ c :: b) := by
  induction a with
  | nil =>
    intro inside
    rcases List.infix_cons_iff.mp inside with ⟨rest, starts⟩ | later
    · obtain ⟨d, l, text⟩ := List.exists_cons_of_ne_nil m.nonempty
      rw [text, List.cons_append] at starts
      rw [text, (List.cons.inj starts).1] at apart
      exact apart List.mem_cons_self
    · exact second later
  | cons d a ih =>
    intro inside
    rcases List.infix_cons_iff.mp inside with starts | later
    · rcases Nat.lt_or_ge (d :: a).length m.text.length with long | short
      · -- the mark reaches over the element
        obtain ⟨rest, same⟩ := starts
        have reached : m.text[(d :: a).length] = c := by
          have there : (m.text ++ rest)[(d :: a).length]? = ((d :: a) ++ c :: b)[(d :: a).length]? :=
            congrArg (fun l => l[(d :: a).length]?) same
          rw [List.getElem?_append_left long, List.getElem?_append_right (Nat.le_refl _), Nat.sub_self,
            List.getElem?_cons_zero, List.getElem?_eq_getElem long] at there
          exact Option.some.inj there
        exact apart (reached ▸ List.getElem_mem long)
      · exact first (List.prefix_of_prefix_length_le starts (List.prefix_append (d :: a) _) short).isInfix
    · exact ih first.tail later

theorem length_pos (m : Mark α) : 0 < m.text.length := List.length_pos_iff.mpr m.nonempty

/-- A mark that starts inside of `line` in front of another mark would lie in it or overlap that one. -/
theorem Free.not_prefix {m : Mark α} {line : List α} (free : Free m line) (nonempty : line ≠ []) (rest : List α) :
    ¬ m.text <+: line ++ (m.text ++ rest) := by
  intro starts
  rcases Nat.lt_or_ge line.length m.text.length with short | long
  · -- the end of the first mark, from the end of `line` on, begins the second
    apply m.unbordered line.length (List.length_pos_iff.mpr nonempty) short
    obtain ⟨behind, same⟩ := starts
    have dropped := congrArg (List.drop line.length) same
    rw [List.drop_left, List.drop_append_of_le_length (Nat.le_of_lt short)] at dropped
    have taken := congrArg (List.take (m.text.length - line.length)) dropped
    rw [List.take_append_of_le_length (by rw [List.length_drop]),
      List.take_of_length_le (by rw [List.length_drop]),
      List.take_append_of_le_length (Nat.sub_le _ _)] at taken
    exact taken
  · exact free (List.prefix_of_prefix_length_le starts (List.prefix_append line _) long).isInfix

/-! ### The first position -/

section

variable [DecidableEq α]

/-- The first position of the mark in a list. -/
def Mark.find? (m : Mark α) : List α → Option Nat
  | [] => none
  | a :: l => if m.text.isPrefixOf (a :: l) then some 0 else (m.find? l).map (· + 1)

/-- The first position that is not before `pos`. -/
def Mark.findFrom? (m : Mark α) (l : List α) (pos : Nat) : Option Nat := (m.find? (l.drop pos)).map (pos + ·)

variable {m : Mark α}

theorem find?_mark (rest : List α) : m.find? (m.text ++ rest) = some 0 := by
  obtain ⟨a, l, text⟩ : ∃ a l, m.text = a :: l := List.exists_cons_of_ne_nil m.nonempty
  have starts : m.text.isPrefixOf (a :: (l ++ rest)) = true := by
    rw [List.isPrefixOf_iff_prefix, text]
    exact List.prefix_append (a :: l) rest
  rw [text, List.cons_append, Mark.find?, if_pos starts]

theorem find?_line {line : List α} (free : Free m line) (rest : List α) :
    m.find? (line ++ (m.text ++ rest)) = some line.length := by
  induction line with
  | nil => exact find?_mark rest
  | cons a line ih =>
    have later : ¬ m.text.isPrefixOf (a :: (line ++ (m.text ++ rest))) = true := by
      rw [List.isPrefixOf_iff_prefix]
      exact free.not_prefix (List.cons_ne_nil a line) rest
    rw [List.cons_append, Mark.find?, if_neg later, ih free.tail]
    rfl

theorem find?_free {l : List α} (free : Free m l) : m.find? l = none := by
  induction l with
  | nil => rfl
  | cons a l ih =>
    have later : ¬ m.text.isPrefixOf (a :: l) = true := by
      rw [List.isPrefixOf_iff_prefix]
      exact fun starts => free starts.isInfix
    rw [Mark.find?, if_neg later, ih free.tail]
    rfl

theorem find?_bound {l : List α} {i : Nat} (found : m.find? l = some i) : i + m.text.length ≤ l.length := by
  induction l generalizing i with
  | nil => cases found
  | cons a l ih =>
    rw [Mark.find?] at found
    split at found
    next starts =>
      obtain rfl : 0 = i := Option.some.inj found
      rw [Nat.zero_add]
      exact (List.isPrefixOf_iff_prefix.mp starts).length_le
    next =>
      obtain ⟨j, later, rfl⟩ := Option.map_eq_some_iff.mp found
      have bound := ih later
      rw [List.length_cons]
      omega

theorem findFrom?_bound {l : List α} {pos i : Nat} (found : m.findFrom? l pos = some i) :
    pos ≤ i ∧ i + m.text.length ≤ l.length := by
  obtain ⟨j, later, rfl⟩ := Option.map_eq_some_iff.mp found
  have bound := find?_bound later
  have mark := length_pos m
  rw [List.length_drop] at bound
  omega

/-- Behind what lies in front of `pos`, the search is one from the start. -/
theorem findFrom?_append (front l : List α) :
    m.findFrom? (front ++ l) front.length = (m.find? l).map (front.length + ·) := by
  rw [Mark.findFrom?, List.drop_left]

theorem findFrom?_line (front : List α) {line : List α} (free : Free m line) (rest : List α) :
    m.findFrom? (front ++ (line ++ (m.text ++ rest))) front.length = some (front.length + line.length) := by
  rw [findFrom?_append, find?_line free]
  rfl

theorem findFrom?_free (front : List α) {l : List α} (free : Free m l) :
    m.findFrom? (front ++ l) front.length = none := by
  rw [findFrom?_append, find?_free free]
  rfl

/-- Every list has no mark, or a first one. -/
theorem free_or_line (m : Mark α) (l : List α) :
    Free m l ∨ ∃ line rest, Free m line ∧ l = line ++ (m.text ++ rest) := by
  induction l with
  | nil => exact Or.inl (free_nil m)
  | cons a l ih =>
    by_cases starts : m.text <+: a :: l
    · obtain ⟨rest, same⟩ := starts
      exact Or.inr ⟨[], rest, free_nil m, same.symm⟩
    · rcases ih with free | ⟨line, rest, free, rfl⟩
      · left
        intro inside
        rcases List.infix_cons_iff.mp inside with first | later
        · exact starts first
        · exact free later
      · right
        refine ⟨a :: line, rest, fun inside => ?_, rfl⟩
        rcases List.infix_cons_iff.mp inside with first | later
        · exact starts (first.trans (List.prefix_append (a :: line) _))
        · exact free later

theorem find?_eq_none {l : List α} : m.find? l = none ↔ Free m l := by
  refine ⟨fun absent => ?_, find?_free⟩
  rcases free_or_line m l with free | ⟨line, rest, free, rfl⟩
  · exact free
  · rw [find?_line free] at absent
    cases absent

/-- A search can leave out the positions at which the mark would lie in a part that has none. -/
theorem find?_append_free {l : List α} (free : Free m l) (rest : List α) {k : Nat}
    (fits : k + m.text.length ≤ l.length + 1) : m.findFrom? (l ++ rest) k = m.find? (l ++ rest) := by
  induction k generalizing l with
  | zero => simp [Mark.findFrom?]
  | succ k ih =>
    have mark := length_pos m
    obtain ⟨a, l, rfl⟩ := List.exists_cons_of_length_pos (l := l) (by omega)
    rw [List.length_cons] at fits
    have later : ¬ m.text.isPrefixOf (a :: (l ++ rest)) = true := by
      rw [List.isPrefixOf_iff_prefix]
      intro starts
      have inside : m.text <+: a :: l :=
        List.prefix_of_prefix_length_le starts (List.prefix_append (a :: l) rest) (by rw [List.length_cons]; omega)
      exact free inside.isInfix
    have resumed := ih free.tail (by omega)
    rw [List.cons_append, Mark.find?, if_neg later, ← resumed, Mark.findFrom?, Mark.findFrom?, List.drop_succ_cons,
      Option.map_map]
    congr 1
    funext i
    simp only [Function.comp_apply]
    omega

/-- Where no mark was found, a search over more elements goes on at the first position at which the
mark did not fit in. -/
theorem find?_resumed {l : List α} (free : Free m l) (rest : List α) :
    m.findFrom? (l ++ rest) (l.length + 1 - m.text.length) = m.find? (l ++ rest) := by
  rcases Nat.le_total m.text.length (l.length + 1) with short | long
  · exact find?_append_free free rest (by omega)
  · rw [Nat.sub_eq_zero_of_le long]
    simp [Mark.findFrom?]

instance Free.decidable (m : Mark α) (l : List α) : Decidable (Free m l) :=
  decidable_of_iff (m.find? l = none) find?_eq_none

end

/-! ### The decomposition -/

/-- The bodies, a mark behind each of them. -/
def marked (m : Mark α) (bodies : List (List α)) : List α := bodies.flatMap (· ++ m.text)

@[simp] theorem marked_nil (m : Mark α) : marked m [] = [] := rfl

@[simp] theorem marked_cons (m : Mark α) (body : List α) (bodies : List (List α)) :
    marked m (body :: bodies) = body ++ (m.text ++ marked m bodies) := by
  simp [marked]

@[simp] theorem marked_append (m : Mark α) (first second : List (List α)) :
    marked m (first ++ second) = marked m first ++ marked m second := by
  simp [marked]

theorem marked_tail (m : Mark α) (bodies : List (List α)) (tail : List α) :
    marked m bodies ++ tail = m.text.intercalate (bodies ++ [tail]) := by
  induction bodies with
  | nil => rw [List.nil_append, List.intercalate_singleton, marked_nil, List.nil_append]
  | cons body bodies ih =>
    have more : bodies ++ [tail] ≠ [] := by simp
    rw [List.cons_append, List.intercalate_cons_of_ne_nil more, ← ih, marked_cons]
    simp only [List.append_assoc]

structure IsCut (m : Mark α) (l : List α) (bodies : List (List α)) (tail : List α) : Prop where
  whole : marked m bodies ++ tail = l
  bodies_free : ∀ body ∈ bodies, Free m body
  tail_free : Free m tail

theorem isCut_free {m : Mark α} {l : List α} (free : Free m l) : IsCut m l [] l :=
  ⟨rfl, nofun, free⟩

theorem IsCut.cons {m : Mark α} {l : List α} {bodies : List (List α)} {tail : List α} (cut : IsCut m l bodies tail)
    {line : List α} (free : Free m line) : IsCut m (line ++ (m.text ++ l)) (line :: bodies) tail where
  whole := by
    rw [marked_cons, ← cut.whole]
    simp only [List.append_assoc]
  bodies_free := by
    intro body member
    rcases List.mem_cons.mp member with rfl | later
    · exact free
    · exact cut.bodies_free body later
  tail_free := cut.tail_free

/-- The list behind the first body and its mark. -/
theorem IsCut.rest {m : Mark α} {l line : List α} {bodies : List (List α)} {tail : List α}
    (cut : IsCut m l (line :: bodies) tail) :
    IsCut m (marked m bodies ++ tail) bodies tail ∧ Free m line ∧
      l = line ++ (m.text ++ (marked m bodies ++ tail)) := by
  refine ⟨⟨rfl, fun body member => cut.bodies_free body (List.mem_cons_of_mem line member), cut.tail_free⟩,
    cut.bodies_free line List.mem_cons_self, ?_⟩
  rw [← cut.whole, marked_cons]
  simp only [List.append_assoc]

section

variable [DecidableEq α]

/-- The bodies and the tail. -/
def Mark.cut (m : Mark α) (l : List α) : List (List α) × List α :=
  match _found : m.find? l with
  | none => ([], l)
  | some i =>
    let rest := m.cut (l.drop (i + m.text.length))
    (l.take i :: rest.1, rest.2)
termination_by l.length
decreasing_by
  have bound := find?_bound _found
  have mark := length_pos m
  rw [List.length_drop]
  omega

theorem cut_free {m : Mark α} {l : List α} (free : Free m l) : m.cut l = ([], l) := by
  rw [Mark.cut]
  split
  · rfl
  next i found => rw [find?_free free] at found; cases found

theorem cut_line {m : Mark α} {line : List α} (free : Free m line) (rest : List α) :
    m.cut (line ++ (m.text ++ rest)) = (line :: (m.cut rest).1, (m.cut rest).2) := by
  rw [Mark.cut]
  split
  next found => rw [find?_line free] at found; cases found
  next i found =>
    obtain rfl : line.length = i := Option.some.inj ((find?_line free rest).symm.trans found)
    have behind : (line ++ (m.text ++ rest)).drop (line.length + m.text.length) = rest := by
      rw [← List.append_assoc, ← List.length_append, List.drop_left]
    rw [behind, List.take_left]

/-- The bodies of a beginning are found again in the whole. -/
theorem cut_marked {m : Mark α} {bodies : List (List α)} (free : ∀ body ∈ bodies, Free m body) (rest : List α) :
    m.cut (marked m bodies ++ rest) = (bodies ++ (m.cut rest).1, (m.cut rest).2) := by
  induction bodies with
  | nil => rfl
  | cons body bodies ih =>
    have later := ih fun other member => free other (List.mem_cons_of_mem body member)
    rw [marked_cons, List.append_assoc, List.append_assoc, cut_line (free body List.mem_cons_self), later]
    rfl

/-- There is only one decomposition. -/
theorem IsCut.eq {m : Mark α} {l : List α} {bodies : List (List α)} {tail : List α} (cut : IsCut m l bodies tail) :
    m.cut l = (bodies, tail) := by
  induction bodies generalizing l with
  | nil =>
    obtain rfl : tail = l := cut.whole
    exact cut_free cut.tail_free
  | cons line bodies ih =>
    obtain ⟨behind, free, rfl⟩ := cut.rest
    rw [cut_line free, ih behind]

theorem isCut_cut (m : Mark α) (l : List α) : IsCut m l (m.cut l).1 (m.cut l).2 := by
  -- on the length: what lies behind a mark is shorter
  induction size : l.length using Nat.strong_induction_on generalizing l with
  | _ n ih =>
    rcases free_or_line m l with free | ⟨line, rest, free, rfl⟩
    · rw [cut_free free]
      exact isCut_free free
    · have shorter : rest.length < n := by
        have mark := length_pos m
        rw [← size, List.length_append, List.length_append]
        omega
      rw [cut_line free]
      exact (ih rest.length shorter rest rfl).cons free

end

end Cut
