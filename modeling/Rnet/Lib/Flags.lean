import Mathlib

/-!
# Flag words

A word each bit of which is a flag. A group of flags is a word too: `has m f` says that `m` has
one of the flags of `f`, and the laws below say what setting and clearing a group does to
itself and to the groups it shares no flag with.
-/
namespace Flags

variable {w : Nat}

def has (m f : BitVec w) : Bool := m &&& f != 0#w

def Disjoint (f g : BitVec w) : Prop := f &&& g = 0#w

instance (f g : BitVec w) : Decidable (Disjoint f g) := inferInstanceAs (Decidable (_ = _))

@[simp] theorem has_zero (f : BitVec w) : has 0#w f = false := by simp [has]

theorem has_set_self (m f : BitVec w) (nonzero : f ≠ 0#w) : has (m ||| f) f = true := by
  have absorbed : (m ||| f) &&& f = f := by
    ext i
    simp only [BitVec.getElem_and, BitVec.getElem_or]
    cases m[i] <;> cases f[i] <;> rfl
  simp [has, absorbed, nonzero]

theorem has_clear_self (m f : BitVec w) : has (m &&& ~~~f) f = false := by
  have cleared : m &&& ~~~f &&& f = 0#w := by
    ext i
    simp only [BitVec.getElem_and, BitVec.getElem_not, BitVec.getElem_zero]
    cases m[i] <;> cases f[i] <;> rfl
  simp [has, cleared]

theorem has_set_of_disjoint (m : BitVec w) {f g : BitVec w} (disjoint : Disjoint f g) :
    has (m ||| f) g = has m g := by
  have same : (m ||| f) &&& g = m &&& g := by
    ext i inside
    have bit : (f &&& g)[i] = (0#w)[i] := by rw [disjoint]
    simp only [BitVec.getElem_and, BitVec.getElem_zero] at bit
    simp only [BitVec.getElem_and, BitVec.getElem_or, Bool.and_or_distrib_right, bit, Bool.or_false]
  rw [has, has, same]

theorem has_clear_of_disjoint (m : BitVec w) {f g : BitVec w} (disjoint : Disjoint f g) :
    has (m &&& ~~~f) g = has m g := by
  have same : m &&& ~~~f &&& g = m &&& g := by
    ext i inside
    have bit : (f &&& g)[i] = (0#w)[i] := by rw [disjoint]
    simp only [BitVec.getElem_and, BitVec.getElem_zero] at bit
    simp only [BitVec.getElem_and, BitVec.getElem_not]
    generalize f[i] = a at bit
    generalize g[i] = b at bit
    cases a <;> cases b <;> simp_all
  rw [has, has, same]

end Flags
