import Mathlib

/-!
# Tables of descriptors

The descriptors of a process are one table that all its threads share. A call that opens one gets
any free descriptor below the limit, and fails where none is free. Each open descriptor is marked
with its owner; `Holds` says which descriptor, if any, a mark is on, and is what a component keeps
that closes only what it opened.
-/
structure Descriptors (ω : Type) where
  limit : Nat
  owner : Nat → Option ω

namespace Descriptors

variable {ω : Type} {d : Descriptors ω} {fd : Nat} {v w : ω} {ref : Option Nat}

def Free (d : Descriptors ω) (fd : Nat) : Prop := fd < d.limit ∧ d.owner fd = none

instance (d : Descriptors ω) (fd : Nat) : Decidable (d.Free fd) := inferInstanceAs (Decidable (_ ∧ _))

def Full (d : Descriptors ω) : Prop := ∀ fd < d.limit, d.owner fd ≠ none

instance (d : Descriptors ω) : Decidable d.Full := inferInstanceAs (Decidable (∀ fd < d.limit, _))

def acquire (d : Descriptors ω) (fd : Nat) (w : ω) : Descriptors ω :=
  { d with owner := Function.update d.owner fd (some w) }

def release (d : Descriptors ω) (fd : Nat) : Descriptors ω :=
  { d with owner := Function.update d.owner fd none }

/-- No descriptor reaches the limit. -/
def Bounded (d : Descriptors ω) : Prop := ∀ fd, d.owner fd ≠ none → fd < d.limit

theorem Bounded.acquire (bounded : d.Bounded) (below : fd < d.limit) : (d.acquire fd w).Bounded := by
  intro e taken
  by_cases same : e = fd
  · rw [same]
    exact below
  · exact bounded e (by simpa [Descriptors.acquire, same] using taken)

theorem Bounded.release (bounded : d.Bounded) : (d.release fd).Bounded := by
  intro e taken
  by_cases same : e = fd
  · simp [Descriptors.release, same] at taken
  · exact bounded e (by simpa [Descriptors.release, same] using taken)

/-! ### Room in the table -/

theorem not_full_release (below : fd < d.limit) : ¬ (d.release fd).Full := by
  intro full
  exact full fd below (by simp [release])

/-- A close makes no room smaller. -/
theorem not_full_release_of (room : ¬ d.Full) : ¬ (d.release fd).Full := by
  intro full
  refine room fun e below => ?_
  have taken := full e below
  by_cases same : e = fd
  · simp [release, same] at taken
  · simpa [release, same] using taken

/-! ### Marks -/

/-- The mark is on the descriptor `ref`, and on no other. -/
def Holds (d : Descriptors ω) (w : ω) (ref : Option Nat) : Prop := ∀ fd, d.owner fd = some w ↔ ref = some fd

theorem Holds.owner (holds : d.Holds w (some fd)) : d.owner fd = some w := (holds fd).mpr rfl

theorem Holds.acquire (holds : d.Holds w none) (fd : Nat) : (d.acquire fd w).Holds w (some fd) := by
  intro e
  by_cases same : e = fd
  · simp [Descriptors.acquire, same]
  · have before := holds e
    simp only [Descriptors.acquire, Function.update_of_ne same, before, reduceCtorEq, Option.some.injEq,
      Ne.symm same]

/-- Another mark is set, where this one is not. -/
theorem Holds.acquire_other (holds : d.Holds w ref) (unmarked : d.owner fd ≠ some w) (other : v ≠ w) :
    (d.acquire fd v).Holds w ref := by
  intro e
  by_cases same : e = fd
  · subst same
    have nowhere : ref ≠ some e := fun here => unmarked ((holds e).mpr here)
    simp [Descriptors.acquire, other, nowhere]
  · rw [← holds e]
    simp [Descriptors.acquire, same]

/-- The mark is replaced by another one. -/
theorem Holds.relabel (holds : d.Holds w (some fd)) (other : v ≠ w) : (d.acquire fd v).Holds w none := by
  intro e
  by_cases same : e = fd
  · simp [Descriptors.acquire, same, other]
  · have before := holds e
    simp only [Descriptors.acquire, Function.update_of_ne same, before, reduceCtorEq, Option.some.injEq,
      Ne.symm same]

theorem Holds.release (holds : d.Holds w (some fd)) : (d.release fd).Holds w none := by
  intro e
  by_cases same : e = fd
  · simp [Descriptors.release, same]
  · have before := holds e
    simp only [Descriptors.release, Function.update_of_ne same, before, reduceCtorEq, Option.some.injEq,
      Ne.symm same]

theorem Holds.release_other (holds : d.Holds w ref) (unmarked : d.owner fd ≠ some w) :
    (d.release fd).Holds w ref := by
  intro e
  by_cases same : e = fd
  · subst same
    have nowhere : ref ≠ some e := fun here => unmarked ((holds e).mpr here)
    simp [Descriptors.release, nowhere]
  · rw [← holds e]
    simp [Descriptors.release, same]

end Descriptors
