import GbEmulator.Emulator.RegisterAccess
import Mathlib.Logic.Function.Basic

/-! The references behind `Register<uint16_t>` and `Register<std::byte>` on a
little-endian host. A reference to a word covers two bytes, the low one first, and
the casts in the two view functions name these bytes. -/
namespace GbEmulator

/-- The bytes of the host, by address. -/
abbrev HostMemory := Nat → Byte

namespace HostMemory

def readWord (memory : HostMemory) (address : Nat) : Word :=
  Word.ofBytes (memory (address + 1)) (memory address)

def writeWord (memory : HostMemory) (address : Nat) (word : Word) : HostMemory :=
  Function.update (Function.update memory address (Word.lower word)) (address + 1) (Word.upper word)

section
variable (memory : HostMemory) (address : Nat) (word : Word)

@[simp] theorem writeWord_low : memory.writeWord address word address = Word.lower word := by
  rw [writeWord, Function.update_of_ne (Nat.ne_of_lt (Nat.lt_succ_self address)),
    Function.update_self]

@[simp] theorem writeWord_high : memory.writeWord address word (address + 1) = Word.upper word :=
  Function.update_self _ _ _

theorem writeWord_other {other : Nat} (low : other ≠ address) (high : other ≠ address + 1) :
    memory.writeWord address word other = memory other := by
  rw [writeWord, Function.update_of_ne high, Function.update_of_ne low]

theorem readWord_writeWord : (memory.writeWord address word).readWord address = word := by
  rw [readWord, writeWord_low, writeWord_high, Word.ofBytes_halves]

theorem writeWord_readWord : memory.writeWord address (memory.readWord address) = memory := by
  rw [writeWord, readWord, Word.lower_ofBytes, Word.upper_ofBytes, Function.update_eq_self,
    Function.update_eq_self]

theorem writeWord_writeWord (later : Word) :
    (memory.writeWord address word).writeWord address later = memory.writeWord address later := by
  funext other
  by_cases low : other = address
  · rw [low, writeWord_low, writeWord_low]
  · by_cases high : other = address + 1
    · rw [high, writeWord_high, writeWord_high]
    · rw [writeWord_other _ _ _ low high, writeWord_other _ _ _ low high,
        writeWord_other _ _ _ low high]

/-- Writing a word that keeps one byte writes the other one. -/
theorem writeWord_lower (data : Byte) :
    memory.writeWord address (Word.ofBytes (memory (address + 1)) data) =
      Function.update memory address data := by
  have kept : Function.update memory address data (address + 1) = memory (address + 1) :=
    Function.update_of_ne (Nat.succ_ne_self address) _ _
  rw [writeWord, Word.lower_ofBytes, Word.upper_ofBytes, ← kept, Function.update_eq_self]

theorem writeWord_upper (data : Byte) :
    memory.writeWord address (Word.ofBytes data (memory address)) =
      Function.update memory (address + 1) data := by
  rw [writeWord, Word.lower_ofBytes, Word.upper_ofBytes, Function.update_eq_self]

end
end HostMemory

namespace Register
open HostMemory

/-- A `Register<std::byte>` whose reference is the byte at an address. -/
def byteAt (address : Nat) (mask : Byte) : Register HostMemory 8 where
  value memory := memory address
  write memory data := Function.update memory address data
  mask := mask
  value_write _ _ := Function.update_self _ _ _
  write_value _ := Function.update_eq_self _ _
  write_write _ _ _ := Function.update_idem _ _ _

/-- A `Register<uint16_t>` whose reference is the word at an address. -/
def wordAt (address : Nat) (mask : Word) : Register HostMemory 16 where
  value memory := memory.readWord address
  write memory := memory.writeWord address
  mask := mask
  value_write memory := memory.readWord_writeWord address
  write_value memory := memory.writeWord_readWord address
  write_write memory := memory.writeWord_writeWord address

attribute [ext] Register

section
variable (address : Nat) (mask : Word)

/-- `reinterpret_cast<std::byte*>(&value)`, under the low half of the mask. -/
theorem lowerByteAsRegister_wordAt :
    (wordAt address mask).lowerByteAsRegister = byteAt address (Word.lower mask) := by
  apply Register.ext
  · funext memory
    exact Word.lower_ofBytes _ _
  · funext memory data
    have kept : Word.upper (memory.readWord address) = memory (address + 1) :=
      Word.upper_ofBytes _ _
    have written := memory.writeWord_lower address data
    rw [← kept] at written
    exact written
  · rfl

/-- The byte after it, under the high half. -/
theorem upperByteAsRegister_wordAt :
    (wordAt address mask).upperByteAsRegister = byteAt (address + 1) (Word.upper mask) := by
  apply Register.ext
  · funext memory
    exact Word.upper_ofBytes _ _
  · funext memory data
    have kept : Word.lower (memory.readWord address) = memory address := Word.lower_ofBytes _ _
    have written := memory.writeWord_upper address data
    rw [← kept] at written
    exact written
  · rfl

theorem value_wordAt (memory : HostMemory) :
    ((wordAt address mask).value memory).toNat =
      (memory (address + 1)).toNat * 256 + (memory address).toNat := by
  rw [Nat.mul_comm]
  exact Word.ofBytes_toNat _ _

/-- A byte register touches one byte, and leaves there what a variable of its own
would hold. -/
theorem byteAt_mutate (byteMask : Byte) (mutator : Mutator) (operand : Byte) (memory : HostMemory) :
    (byteAt address byteMask).mutate mutator operand memory =
      Function.update memory address
        ((standAlone byteMask).mutate mutator operand (memory address)) :=
  mutate_eq _ _ _ _

theorem wordAt_mutate_other (mutator : Mutator) (operand : Word) (memory : HostMemory) {other : Nat}
    (low : other ≠ address) (high : other ≠ address + 1) :
    (wordAt address mask).mutate mutator operand memory other = memory other := by
  rw [mutate_eq]
  exact memory.writeWord_other address _ low high

/-- No access to a pair reaches a byte outside it. -/
theorem perform_other (access : Access) (memory : HostMemory) {other : Nat}
    (low : other ≠ address) (high : other ≠ address + 1) :
    (wordAt address mask).perform memory access other = memory other := by
  cases access with
  | pair mutator operand => exact wordAt_mutate_other address mask mutator operand memory low high
  | upperByte mutator operand =>
    rw [perform, upperByteAsRegister_wordAt, byteAt_mutate]
    exact Function.update_of_ne high _ _
  | lowerByte mutator operand =>
    rw [perform, lowerByteAsRegister_wordAt, byteAt_mutate]
    exact Function.update_of_ne low _ _

theorem readWord_perform_other (access : Access) (memory : HostMemory) {other : Nat}
    (apart : address + 1 < other ∨ other + 1 < address) :
    ((wordAt address mask).perform memory access).readWord other = memory.readWord other := by
  have high := perform_other address mask access memory
    (show other + 1 ≠ address by omega) (show other + 1 ≠ address + 1 by omega)
  have low := perform_other address mask access memory
    (show other ≠ address by omega) (show other ≠ address + 1 by omega)
  rw [readWord, readWord, high, low]

end
end Register
end GbEmulator
