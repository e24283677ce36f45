import Mathlib

/-!
# A list as addressable memory

The window `[i, j)` of a list, storing a list of cells from an index on, and a forward copy
inside one list. The copy reads each cell from the memory the previous cells were already
written to, so overlapping windows are what they are for a loop over one array.
-/
namespace Memory

variable {α : Type}

/-- The cells of the window `[i, j)`. -/
def slice (mem : List α) (i j : Nat) : List α := (mem.drop i).take (j - i)

def store (mem : List α) (pos : Nat) : List α → List α
  | [] => mem
  | d :: ds => store (mem.set pos d) (pos + 1) ds

/-- Copy `n` cells, lowest index first, from `src` on to `dst` on. -/
def copyForward (mem : List α) (src dst : Nat) : Nat → List α
  | 0 => mem
  | n + 1 =>
    let written := match mem[src]? with
      | some x => mem.set dst x
      | none => mem
    copyForward written (src + 1) (dst + 1) n

/-! ### Windows -/

theorem slice_getElem? (mem : List α) (i j k : Nat) :
    (slice mem i j)[k]? = if i + k < j then mem[i + k]? else none := by
  simp only [slice, List.getElem?_take, List.getElem?_drop]
  split
  next inside => rw [if_pos (by omega)]
  next outside => rw [if_neg (by omega)]

theorem slice_zero (mem : List α) (j : Nat) : slice mem 0 j = mem.take j := by
  rw [slice, List.drop_zero, Nat.sub_zero]

@[simp] theorem slice_self (mem : List α) (i : Nat) : slice mem i i = [] := by
  simp [slice]

theorem slice_length (mem : List α) (i j : Nat) (bound : j ≤ mem.length) :
    (slice mem i j).length = j - i := by
  simp only [slice, List.length_take, List.length_drop]
  omega

theorem slice_append (mem : List α) (i j k : Nat) (lower : i ≤ j) (upper : j ≤ k) :
    slice mem i j ++ slice mem j k = slice mem i k := by
  have rest : mem.drop j = (mem.drop i).drop (j - i) := by
    rw [List.drop_drop]
    congr 1
    omega
  have size : k - i = (j - i) + (k - j) := by omega
  simp only [slice, rest, size, List.take_add]

theorem slice_drop (mem : List α) (i j n : Nat) : (slice mem i j).drop n = slice mem (i + n) j := by
  simp only [slice, List.drop_take, List.drop_drop]
  congr 1
  omega

theorem slice_take (mem : List α) (i j n : Nat) (bound : i + n ≤ j) :
    (slice mem i j).take n = slice mem i (i + n) := by
  simp only [slice, List.take_take]
  congr 1
  omega

/-- A window is determined by its cells. -/
theorem slice_congr (mem other : List α) (i j i' j' : Nat) (size : j - i = j' - i')
    (cells : ∀ k, k < j - i → mem[i + k]? = other[i' + k]?) :
    slice mem i j = slice other i' j' := by
  apply List.ext_getElem?
  intro k
  rw [slice_getElem?, slice_getElem?]
  by_cases inside : k < j - i
  · rw [if_pos (by omega), if_pos (by omega), cells k inside]
  · rw [if_neg (by omega), if_neg (by omega)]

theorem slice_between (front cells rest : List α) :
    slice (front ++ (cells ++ rest)) front.length (front.length + cells.length) = cells := by
  rw [slice, List.drop_left, Nat.add_sub_cancel_left, List.take_left]

theorem slice_end (front cells : List α) :
    slice (front ++ cells) front.length (front ++ cells).length = cells := by
  rw [slice, List.drop_left, List.length_append, Nat.add_sub_cancel_left, List.take_length]

/-! ### Storing -/

@[simp] theorem store_length (mem : List α) (pos : Nat) (data : List α) :
    (store mem pos data).length = mem.length := by
  induction data generalizing mem pos with
  | nil => rfl
  | cons d ds ih => rw [store, ih, List.length_set]

theorem store_getElem? (mem : List α) (pos : Nat) (data : List α)
    (fits : pos + data.length ≤ mem.length) (k : Nat) :
    (store mem pos data)[k]? =
      if pos ≤ k ∧ k < pos + data.length then data[k - pos]? else mem[k]? := by
  induction data generalizing mem pos with
  | nil =>
    rw [if_neg (by simp only [List.length_nil]; omega)]
    rfl
  | cons d ds ih =>
    simp only [List.length_cons] at fits ⊢
    rw [store, ih (mem.set pos d) (pos + 1) (by simp only [List.length_set]; omega)]
    rcases Nat.lt_trichotomy k pos with below | rfl | above
    · rw [if_neg (by omega), if_neg (by omega), List.getElem?_set_ne (by omega)]
    · rw [if_neg (by omega), if_pos (by omega), List.getElem?_set_self (by omega)]
      simp
    · by_cases inside : k < pos + (ds.length + 1)
      · obtain ⟨offset, rfl⟩ : ∃ offset, k = pos + 1 + offset := ⟨k - (pos + 1), by omega⟩
        rw [if_pos (by omega), if_pos (by omega)]
        have shift : pos + 1 + offset - pos = offset + 1 := by omega
        rw [shift, List.getElem?_cons_succ]
        congr 1
        omega
      · rw [if_neg (by omega), if_neg (by omega), List.getElem?_set_ne (by omega)]

theorem store_append (mem : List α) (pos : Nat) (first second : List α) :
    store mem pos (first ++ second) = store (store mem pos first) (pos + first.length) second := by
  induction first generalizing mem pos with
  | nil => rfl
  | cons d ds ih =>
    rw [List.cons_append, store, store, ih, List.length_cons]
    congr 1
    omega

/-- A store over the first cells of another one. -/
theorem store_store (mem : List α) (pos : Nat) (first second rest : List α) (same : second.length = first.length)
    (fits : pos + (first ++ rest).length ≤ mem.length) :
    store (store mem pos (first ++ rest)) pos second = store mem pos (second ++ rest) := by
  apply List.ext_getElem?
  intro k
  rw [List.length_append] at fits
  rw [store_getElem? _ pos second (by rw [store_length]; omega), store_getElem? mem pos _ (by simp; omega),
    store_getElem? mem pos _ (by simp; omega), List.length_append, List.length_append]
  by_cases inside : pos ≤ k ∧ k < pos + second.length
  · rw [if_pos inside, if_pos (by omega), List.getElem?_append_left (by omega)]
  · rw [if_neg inside]
    by_cases behind : pos ≤ k ∧ k < pos + (second.length + rest.length)
    · rw [if_pos (by omega), if_pos behind, List.getElem?_append_right (by omega),
        List.getElem?_append_right (by omega), same]
    · rw [if_neg (by omega), if_neg behind]

/-- The window a store fills. -/
theorem slice_store (mem : List α) (pos : Nat) (data : List α)
    (fits : pos + data.length ≤ mem.length) :
    slice (store mem pos data) pos (pos + data.length) = data := by
  apply List.ext_getElem?
  intro k
  rw [slice_getElem?, store_getElem? mem pos data fits]
  by_cases inside : k < data.length
  · rw [if_pos (by omega), if_pos (by omega), Nat.add_sub_cancel_left]
  · rw [if_neg (by omega), List.getElem?_eq_none (by omega)]

/-- The window that the first part of a store fills. -/
theorem slice_store_append (mem : List α) (pos : Nat) (first rest : List α)
    (fits : pos + (first ++ rest).length ≤ mem.length) :
    slice (store mem pos (first ++ rest)) pos (pos + first.length) = first := by
  have part : pos + first.length ≤ pos + (first ++ rest).length := by
    rw [List.length_append]
    omega
  rw [← slice_take _ _ _ _ part, slice_store mem pos (first ++ rest) fits, List.take_left]

/-- A window that ends before a store or starts after it is left as it was. -/
theorem slice_store_of_disjoint (mem : List α) (pos : Nat) (data : List α) (i j : Nat)
    (fits : pos + data.length ≤ mem.length) (disjoint : j ≤ pos ∨ pos + data.length ≤ i) :
    slice (store mem pos data) i j = slice mem i j := by
  apply slice_congr _ _ _ _ _ _ rfl
  intro k inside
  rw [store_getElem? mem pos data fits, if_neg (by omega)]

/-! ### Copying forward -/

@[simp] theorem copyForward_length (mem : List α) (src dst n : Nat) :
    (copyForward mem src dst n).length = mem.length := by
  induction n generalizing mem src dst with
  | zero => rfl
  | succ n ih =>
    rw [copyForward, ih]
    cases mem[src]? <;> simp

/-- Every cell after the copy. Copying to lower indices never reads a cell it has written. -/
theorem copyForward_getElem? (mem : List α) (src dst n : Nat) (lower : dst ≤ src)
    (fits : src + n ≤ mem.length) (k : Nat) :
    (copyForward mem src dst n)[k]? =
      if dst ≤ k ∧ k < dst + n then mem[src + (k - dst)]? else mem[k]? := by
  induction n generalizing mem src dst with
  | zero => rw [if_neg (by omega)]; rfl
  | succ n ih =>
    have present : mem[src]? = some mem[src] := List.getElem?_eq_getElem (by omega)
    simp only [copyForward, present]
    rw [ih _ (src + 1) (dst + 1) (by omega) (by simp only [List.length_set]; omega)]
    rcases Nat.lt_trichotomy k dst with below | rfl | above
    · rw [if_neg (by omega), if_neg (by omega), List.getElem?_set_ne (by omega)]
    · rw [if_neg (by omega), if_pos (by omega), List.getElem?_set_self (by omega), Nat.sub_self,
        Nat.add_zero, present]
    · by_cases inside : k < dst + (n + 1)
      · rw [if_pos (by omega), if_pos (by omega), List.getElem?_set_ne (by omega)]
        congr 1
        omega
      · rw [if_neg (by omega), if_neg (by omega), List.getElem?_set_ne (by omega)]

/-- The copied window holds what the source window held before. -/
theorem slice_copyForward (mem : List α) (src dst n : Nat) (lower : dst ≤ src)
    (fits : src + n ≤ mem.length) :
    slice (copyForward mem src dst n) dst (dst + n) = slice mem src (src + n) := by
  apply slice_congr _ _ _ _ _ _ (by omega)
  intro k inside
  rw [copyForward_getElem? mem src dst n lower fits, if_pos (by omega), Nat.add_sub_cancel_left]

end Memory
