import Rnet.File.ConnBuffer

/-!
# Buffers of fixed size

`rnet::file::SizedBuffer`: a character array with a cursor. What lies behind the cursor is never
looked at, so the content is the list of bytes in front of it.
-/
namespace Rnet.File

def kSmallSize : Nat := 1024 * 4

def kLargeSize : Nat := 1024 * 1000

structure SizedBuffer (SIZE : Nat) where
  data : List Byte
  fits : data.length ≤ SIZE

namespace SizedBuffer

variable {SIZE : Nat}

def new : SizedBuffer SIZE := ⟨[], Nat.zero_le SIZE⟩

def length (b : SizedBuffer SIZE) : Nat := b.data.length

def avail (b : SizedBuffer SIZE) : Nat := SIZE - b.length

/-- What does not fit is left out whole. -/
def append (b : SizedBuffer SIZE) (buf : List Byte) : SizedBuffer SIZE :=
  if less : buf.length < b.avail then
    ⟨b.data ++ buf, by
      have room : buf.length < SIZE - b.data.length := less
      have fits := b.fits
      rw [List.length_append]
      omega⟩
  else b

def reset (_ : SizedBuffer SIZE) : SizedBuffer SIZE := new

@[simp] theorem new_data : (new : SizedBuffer SIZE).data = [] := rfl

@[simp] theorem new_length : (new : SizedBuffer SIZE).length = 0 := rfl

@[simp] theorem new_avail : (new : SizedBuffer SIZE).avail = SIZE := rfl

theorem append_data (b : SizedBuffer SIZE) (buf : List Byte) (less : buf.length < b.avail) :
    (b.append buf).data = b.data ++ buf := by
  rw [append, dif_pos less]

theorem append_full (b : SizedBuffer SIZE) (buf : List Byte) (full : ¬ buf.length < b.avail) :
    b.append buf = b := by
  rw [append, dif_neg full]

end SizedBuffer

end Rnet.File
