import Mathlib

/-!
# Ordered sets

A finite set kept as the strictly increasing list of its elements, with the operations of an
associative container: insertion that reports whether the element was new, erasure that
reports how many elements went, the part below a bound and the first element.
-/

/-- The elements, strictly increasing: an element cannot be in it twice. -/
structure OrderedSet (α : Type) [LinearOrder α] where
  toList : List α
  sorted : toList.Pairwise (· < ·)

namespace OrderedSet

variable {α : Type} [LinearOrder α]

instance : Membership α (OrderedSet α) := ⟨fun s x => x ∈ s.toList⟩

instance (x : α) (s : OrderedSet α) : Decidable (x ∈ s) := inferInstanceAs (Decidable (x ∈ s.toList))

theorem mem_def {x : α} {s : OrderedSet α} : x ∈ s ↔ x ∈ s.toList := Iff.rfl

def empty : OrderedSet α := ⟨[], List.Pairwise.nil⟩

def size (s : OrderedSet α) : Nat := s.toList.length

def first (s : OrderedSet α) : Option α := s.toList.head?

def insertList (x : α) : List α → List α
  | [] => [x]
  | y :: ys => if x < y then x :: y :: ys else if x = y then y :: ys else y :: insertList x ys

theorem mem_insertList (x y : α) (l : List α) : y ∈ insertList x l ↔ y = x ∨ y ∈ l := by
  induction l with
  | nil => simp [insertList]
  | cons z zs ih =>
    unfold insertList
    split
    · simp
    · split
      next same => subst same; simp
      next => simp only [List.mem_cons, ih]; exact or_left_comm

theorem insertList_sorted (x : α) (l : List α) (sorted : l.Pairwise (· < ·)) :
    (insertList x l).Pairwise (· < ·) := by
  induction l with
  | nil => simp [insertList]
  | cons z zs ih =>
    have tail := List.pairwise_cons.mp sorted
    unfold insertList
    split
    next less =>
      refine List.pairwise_cons.mpr ⟨?_, sorted⟩
      intro y member
      rcases List.mem_cons.mp member with rfl | member
      · exact less
      · exact lt_trans less (tail.1 y member)
    next notLess =>
      split
      · exact sorted
      next different =>
        refine List.pairwise_cons.mpr ⟨?_, ih tail.2⟩
        intro y member
        rcases (mem_insertList x y zs).mp member with rfl | member
        · exact lt_of_le_of_ne (not_lt.mp notLess) (Ne.symm different)
        · exact tail.1 y member

theorem insertList_length (x : α) (l : List α) (new : x ∉ l) :
    (insertList x l).length = l.length + 1 := by
  induction l with
  | nil => rfl
  | cons z zs ih =>
    simp only [List.mem_cons, not_or] at new
    unfold insertList
    split
    · rfl
    · rw [if_neg new.1, List.length_cons, List.length_cons, ih new.2]

def insert (s : OrderedSet α) (x : α) : OrderedSet α × Bool :=
  (⟨insertList x s.toList, insertList_sorted x s.toList s.sorted⟩, decide (x ∉ s))

def erase (s : OrderedSet α) (x : α) : OrderedSet α × Nat :=
  (⟨s.toList.erase x, s.sorted.sublist List.erase_sublist⟩, if x ∈ s then 1 else 0)

/-- The elements before `lower_bound(x)`. -/
def below (s : OrderedSet α) (x : α) : List α := s.toList.takeWhile (· < x)

/-- The elements from `lower_bound(x)` on. -/
def onward (s : OrderedSet α) (x : α) : OrderedSet α :=
  ⟨s.toList.dropWhile (· < x), s.sorted.sublist (List.dropWhile_sublist _)⟩

theorem nodup (s : OrderedSet α) : s.toList.Nodup := s.sorted.imp fun less => ne_of_lt less

@[simp] theorem not_mem_empty (x : α) : x ∉ (empty : OrderedSet α) := List.not_mem_nil

@[simp] theorem size_empty : (empty : OrderedSet α).size = 0 := rfl

@[simp] theorem mem_insert {s : OrderedSet α} {x y : α} : y ∈ (s.insert x).1 ↔ y = x ∨ y ∈ s :=
  mem_insertList x y s.toList

@[simp] theorem insert_new {s : OrderedSet α} {x : α} : (s.insert x).2 = true ↔ x ∉ s :=
  decide_eq_true_iff

theorem size_insert {s : OrderedSet α} {x : α} (new : x ∉ s) : (s.insert x).1.size = s.size + 1 :=
  insertList_length x s.toList new

@[simp] theorem mem_erase {s : OrderedSet α} {x y : α} : y ∈ (s.erase x).1 ↔ y ≠ x ∧ y ∈ s :=
  s.nodup.mem_erase_iff

theorem erase_count {s : OrderedSet α} {x : α} (member : x ∈ s) : (s.erase x).2 = 1 :=
  if_pos member

theorem size_erase {s : OrderedSet α} {x : α} (member : x ∈ s) : (s.erase x).1.size + 1 = s.size := by
  have nonempty := List.length_pos_of_mem (mem_def.mp member)
  simp only [erase, size, List.length_erase_of_mem (mem_def.mp member)]
  omega

private theorem mem_takeWhile_lt (x y : α) (l : List α) (sorted : l.Pairwise (· < ·)) :
    y ∈ l.takeWhile (· < x) ↔ y ∈ l ∧ y < x := by
  induction l with
  | nil => simp
  | cons z zs ih =>
    have tail := List.pairwise_cons.mp sorted
    by_cases less : z < x
    · rw [List.takeWhile_cons_of_pos (by simpa using less), List.mem_cons, List.mem_cons, ih tail.2]
      constructor
      · rintro (rfl | member)
        · exact ⟨Or.inl rfl, less⟩
        · exact ⟨Or.inr member.1, member.2⟩
      · rintro ⟨rfl | member, bound⟩
        · exact Or.inl rfl
        · exact Or.inr ⟨member, bound⟩
    · rw [List.takeWhile_cons_of_neg (by simpa using less)]
      constructor
      · nofun
      · rintro ⟨member, bound⟩
        rcases List.mem_cons.mp member with rfl | member
        · exact absurd bound less
        · exact absurd (lt_trans (tail.1 y member) bound) less

@[simp] theorem mem_below {s : OrderedSet α} {x y : α} : y ∈ s.below x ↔ y ∈ s ∧ y < x :=
  mem_takeWhile_lt x y s.toList s.sorted

/-- The two parts are disjoint and make up the set. -/
@[simp] theorem mem_onward {s : OrderedSet α} {x y : α} : y ∈ s.onward x ↔ y ∈ s ∧ x ≤ y := by
  have parts : s.below x ++ (s.onward x).toList = s.toList := List.takeWhile_append_dropWhile
  have disjoint := List.nodup_append.mp (parts ▸ s.nodup)
  have covers : y ∈ s ↔ y ∈ s.below x ∨ y ∈ s.onward x := by
    rw [mem_def, ← parts, List.mem_append]
    exact Iff.rfl
  constructor
  · intro member
    have inside := covers.mpr (Or.inr member)
    refine ⟨inside, not_lt.mp fun less => ?_⟩
    exact disjoint.2.2 y (mem_below.mpr ⟨inside, less⟩) y member rfl
  · rintro ⟨inside, bound⟩
    rcases covers.mp inside with low | high
    · exact absurd (mem_below.mp low).2 (not_lt.mpr bound)
    · exact high

theorem below_length (s : OrderedSet α) (x : α) : (s.below x).length + (s.onward x).size = s.size := by
  have parts : s.below x ++ (s.onward x).toList = s.toList := List.takeWhile_append_dropWhile
  simp only [size, ← parts, List.length_append]

theorem below_sorted (s : OrderedSet α) (x : α) : (s.below x).Pairwise (· < ·) :=
  s.sorted.sublist (List.takeWhile_sublist _)

theorem first_eq_none {s : OrderedSet α} : s.first = none ↔ ∀ x, x ∉ s := by
  simp only [first, List.head?_eq_none_iff, mem_def]
  exact List.eq_nil_iff_forall_not_mem

theorem first_mem {s : OrderedSet α} {m : α} (found : s.first = some m) : m ∈ s :=
  List.mem_of_head? found

theorem first_le {s : OrderedSet α} {m : α} (found : s.first = some m) {x : α} (member : x ∈ s) :
    m ≤ x := by
  obtain ⟨l, sorted⟩ := s
  cases l with
  | nil => cases found
  | cons z zs =>
    obtain rfl : z = m := by simpa [first] using found
    rcases List.mem_cons.mp (mem_def.mp member) with rfl | member
    · exact le_refl _
    · exact le_of_lt ((List.pairwise_cons.mp sorted).1 x member)

end OrderedSet
