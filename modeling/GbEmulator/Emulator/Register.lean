import GbEmulator.Bits.Words

/-! `Register<T>` of `register.h`: a reference into some state, seen through a
mask. The reference is a lawful accessor, so two views of one backing value
agree by construction. `std::byte` and `uint16_t` differ in the source only in
the conversions that keep a result inside the width. -/
namespace GbEmulator

structure Register (σ : Type) (w : Nat) where
  value : σ → BitVec w
  write : σ → BitVec w → σ
  mask : BitVec w := BitVec.allOnes w
  value_write : ∀ state data, value (write state data) = data := by intros; rfl
  write_value : ∀ state, write state (value state) = state := by intros; rfl
  write_write : ∀ state first second, write (write state first) second = write state second := by
    intros; rfl

namespace Register
variable {σ : Type} {w : Nat} (register : Register σ w)

attribute [simp] value_write write_value write_write

/-- `operator=`. -/
def assign (t : BitVec w) (state : σ) : σ := register.write state (t &&& register.mask)

/-- `operator T()`. -/
def load (state : σ) : BitVec w := register.value state &&& register.mask

/-- `operator+`. -/
def plus (state : σ) (other : BitVec w) : BitVec w :=
  ((register.value state &&& register.mask) + other) &&& register.mask

/-- `operator+=`. -/
def addAssign (other : BitVec w) (state : σ) : σ :=
  register.write state (((register.value state &&& register.mask) + other) &&& register.mask)

/-- `operator-`. -/
def minus (state : σ) (other : BitVec w) : BitVec w :=
  ((register.value state &&& register.mask) - other) &&& register.mask

/-- `operator-=`. -/
def subAssign (other : BitVec w) (state : σ) : σ :=
  register.write state (((register.value state &&& register.mask) - other) &&& register.mask)

/-- `operator++(int)`: works on the backing value, past the mask. -/
def postIncrement (state : σ) : BitVec w × σ :=
  (register.value state, register.write state (register.value state + 1))

/-- `operator--(int)`. -/
def postDecrement (state : σ) : BitVec w × σ :=
  (register.value state, register.write state (register.value state - 1))

/-- `operator&=`. -/
def andAssign (other : BitVec w) (state : σ) : σ :=
  register.write state ((register.value state &&& other) &&& register.mask)

/-- `operator|=`. -/
def orAssign (other : BitVec w) (state : σ) : σ :=
  register.write state ((register.value state ||| other) &&& register.mask)

/-- `operator^=`. -/
def xorAssign (other : BitVec w) (state : σ) : σ :=
  register.write state ((register.value state ^^^ other) &&& register.mask)

section Full
variable {register} (full : register.mask = BitVec.allOnes w)
include full

theorem load_full (state : σ) : register.load state = register.value state := by
  simp only [load, full, BitVec.and_allOnes]

theorem assign_full (t : BitVec w) (state : σ) :
    register.assign t state = register.write state t := by
  simp only [assign, full, BitVec.and_allOnes]

theorem addAssign_full (other : BitVec w) (state : σ) :
    register.addAssign other state = register.write state (register.value state + other) := by
  simp only [addAssign, full, BitVec.and_allOnes]

theorem subAssign_full (other : BitVec w) (state : σ) :
    register.subAssign other state = register.write state (register.value state - other) := by
  simp only [subAssign, full, BitVec.and_allOnes]

end Full

/-- The byte at the reference's own address, the low one on a little-endian host. -/
def lowerByteAsRegister (register : Register σ 16) : Register σ 8 where
  value state := Word.lower (register.value state)
  write state data := register.write state (Word.ofBytes (Word.upper (register.value state)) data)
  mask := Word.lower register.mask
  value_write := by intros; simp
  write_value := by intros; simp
  write_write := by intros; simp

/-- The byte after it. -/
def upperByteAsRegister (register : Register σ 16) : Register σ 8 where
  value state := Word.upper (register.value state)
  write state data := register.write state (Word.ofBytes data (Word.lower (register.value state)))
  mask := Word.upper register.mask
  value_write := by intros; simp
  write_value := by intros; simp
  write_write := by intros; simp

end Register
end GbEmulator
