import Mathlib

/-!
# Words in memory

A word of `n` bytes is kept in memory with its least significant byte first or last, as the host
has it. `htobe` and `betoh` convert between the order of the host and the big-endian one: what
`htobe` returns lies in memory with the most significant byte first.
-/
namespace ByteOrder

/-- The `n` bytes of a number, the least significant one first. -/
def bytesOf : Nat → Nat → List UInt8
  | 0, _ => []
  | n + 1, x => UInt8.ofNat x :: bytesOf n (x / 256)

def numberOf (bytes : List UInt8) : Nat := Nat.ofDigits 256 (bytes.map UInt8.toNat)

@[simp] theorem length_bytesOf (n x : Nat) : (bytesOf n x).length = n := by
  induction n generalizing x with
  | zero => rfl
  | succ n ih => rw [bytesOf, List.length_cons, ih]

theorem numberOf_cons (b : UInt8) (bytes : List UInt8) :
    numberOf (b :: bytes) = b.toNat + 256 * numberOf bytes := by
  simp [numberOf, Nat.ofDigits_cons]

theorem numberOf_lt (bytes : List UInt8) : numberOf bytes < 256 ^ bytes.length := by
  induction bytes with
  | nil => simp [numberOf]
  | cons b bytes ih =>
    have digit : b.toNat < 256 := b.toNat_lt
    rw [numberOf_cons, List.length_cons, Nat.pow_succ]
    omega

theorem numberOf_bytesOf (n x : Nat) : numberOf (bytesOf n x) = x % 256 ^ n := by
  induction n generalizing x with
  | zero => simp [bytesOf, numberOf, Nat.mod_one]
  | succ n ih =>
    have digit : (UInt8.ofNat x).toNat = x % 256 := by simp
    rw [bytesOf, numberOf_cons, ih, digit, Nat.pow_succ', Nat.mod_mul]

theorem bytesOf_numberOf (bytes : List UInt8) : bytesOf bytes.length (numberOf bytes) = bytes := by
  induction bytes with
  | nil => rfl
  | cons b bytes ih =>
    have digit : b.toNat < 256 := b.toNat_lt
    have rest : (b.toNat + 256 * numberOf bytes) / 256 = numberOf bytes := by omega
    have first : UInt8.ofNat (b.toNat + 256 * numberOf bytes) = b := by
      apply UInt8.toNat_inj.mp
      rw [UInt8.toNat_ofNat']
      omega
    rw [List.length_cons, numberOf_cons, bytesOf, rest, first, ih]

/-! ### Hosts -/

inductive Host where
  | littleEndian
  | bigEndian
  deriving DecidableEq, Repr

namespace Host

variable {n : Nat}

/-- The bytes of a word in the memory of the host. -/
def store (host : Host) (x : BitVec (8 * n)) : List UInt8 :=
  match host with
  | .littleEndian => bytesOf n x.toNat
  | .bigEndian => (bytesOf n x.toNat).reverse

/-- The word that lies in memory as `bytes`. -/
def load (host : Host) (n : Nat) (bytes : List UInt8) : BitVec (8 * n) :=
  match host with
  | .littleEndian => BitVec.ofNat (8 * n) (numberOf bytes)
  | .bigEndian => BitVec.ofNat (8 * n) (numberOf bytes.reverse)

/-- The word with the bytes in the other order. -/
def swapBytes (x : BitVec (8 * n)) : BitVec (8 * n) :=
  littleEndian.load n (littleEndian.store x).reverse

def htobe (host : Host) (x : BitVec (8 * n)) : BitVec (8 * n) :=
  match host with
  | .littleEndian => swapBytes x
  | .bigEndian => x

def betoh (host : Host) (x : BitVec (8 * n)) : BitVec (8 * n) :=
  match host with
  | .littleEndian => swapBytes x
  | .bigEndian => x

@[simp] theorem length_store (host : Host) (x : BitVec (8 * n)) : (host.store x).length = n := by
  cases host <;> simp [store]

theorem pow_bytes (n : Nat) : 2 ^ (8 * n) = 256 ^ n := by
  rw [Nat.pow_mul]

theorem load_store (host : Host) (x : BitVec (8 * n)) : host.load n (host.store x) = x := by
  have whole : BitVec.ofNat (8 * n) (numberOf (bytesOf n x.toNat)) = x := by
    apply BitVec.eq_of_toNat_eq
    have bound : x.toNat < 256 ^ n := pow_bytes n ▸ x.isLt
    rw [numberOf_bytesOf, BitVec.toNat_ofNat, pow_bytes, Nat.mod_mod, Nat.mod_eq_of_lt bound]
  cases host with
  | littleEndian => exact whole
  | bigEndian => simpa only [load, store, List.reverse_reverse] using whole

theorem store_load (host : Host) {bytes : List UInt8} (length : bytes.length = n) :
    host.store (host.load n bytes) = bytes := by
  subst length
  have word (bytes : List UInt8) :
      (BitVec.ofNat (8 * bytes.length) (numberOf bytes)).toNat = numberOf bytes := by
    rw [BitVec.toNat_ofNat, pow_bytes, Nat.mod_eq_of_lt (numberOf_lt bytes)]
  cases host with
  | littleEndian => simp only [store, load, word, bytesOf_numberOf]
  | bigEndian =>
    have reversed := word bytes.reverse
    rw [List.length_reverse] at reversed
    have back := bytesOf_numberOf bytes.reverse
    rw [List.length_reverse] at back
    simp only [store, load, reversed, back, List.reverse_reverse]

/-- The bytes of a converted word, in memory, are in big-endian order. -/
theorem store_htobe (host : Host) (x : BitVec (8 * n)) : host.store (host.htobe x) = bigEndian.store x := by
  cases host with
  | littleEndian =>
    simp only [htobe, swapBytes]
    rw [store_load littleEndian (by simp)]
    rfl
  | bigEndian => rfl

theorem betoh_load (host : Host) {bytes : List UInt8} (length : bytes.length = n) :
    host.betoh (host.load n bytes) = bigEndian.load n bytes := by
  cases host with
  | littleEndian =>
    simp only [betoh, swapBytes]
    rw [store_load littleEndian length]
    rfl
  | bigEndian => rfl

/-- A single byte has no order. -/
theorem store_byte (host : Host) (x : BitVec (8 * 1)) : host.store x = bigEndian.store x := by
  cases host <;> rfl

theorem load_byte (host : Host) {bytes : List UInt8} (length : bytes.length = 1) :
    host.load 1 bytes = bigEndian.load 1 bytes := by
  obtain ⟨b, rfl⟩ := List.length_eq_one_iff.mp length
  cases host <;> rfl

end Host

/-! ### Signed numbers -/

/-- The range of a signed number of `n` bytes. -/
def Fits (n : Nat) (x : Int) : Prop := -(2 ^ (8 * n) / 2) ≤ x ∧ x < 2 ^ (8 * n) / 2

instance (n : Nat) (x : Int) : Decidable (Fits n x) := inferInstanceAs (Decidable (_ ∧ _))

/-- Conversion to an unsigned word and back keeps a number that fits. -/
theorem toInt_ofInt {n : Nat} {x : Int} (fits : Fits n x) :
    (BitVec.ofInt (8 * n) x).toInt = x := by
  obtain ⟨lower, upper⟩ := fits
  have even : ((2 ^ (8 * n) : Nat) : Int) = 2 ^ (8 * n) := by simp
  rw [BitVec.toInt_ofInt]
  apply Int.bmod_eq_of_le
  · rw [even]
    exact lower
  · rw [even]
    omega

end ByteOrder
