import GbEmulator.Bits.Words
import GbEmulator.Coroutine.Execution
import Mathlib.Logic.Function.Basic

/-! Flat memory of which only some addresses can be written: what a program sees of
read-only memory, read-write memory and addresses that nothing answers. -/
namespace GbEmulator.Sm83

structure MemoryMap (writable : Word → Prop) where
  byteAt : Word → Byte

namespace MemoryMap
variable {writable : Word → Prop} [DecidablePred writable]

/-- A store elsewhere is lost. -/
def write (memory : MemoryMap writable) (address : Word) (data : Byte) : MemoryMap writable :=
  if writable address then ⟨Function.update memory.byteAt address data⟩ else memory

instance : Store (MemoryMap writable) Word Byte where
  load := byteAt
  store := write

variable (memory : MemoryMap writable) {address : Word}

@[simp] theorem store_eq (address : Word) (data : Byte) :
    Store.store memory address data = memory.write address data := rfl

theorem write_lost (unwritable : ¬writable address) (data : Byte) :
    memory.write address data = memory :=
  if_neg unwritable

theorem byteAt_write (accepted : writable address) (data : Byte) (other : Word) :
    (memory.write address data).byteAt other =
      if other = address then data else memory.byteAt other := by
  rw [write, if_pos accepted]
  exact Function.update_apply _ _ _ _

/-- What is read elsewhere does not depend on whether the write was lost. -/
theorem byteAt_write_ne (data : Byte) {other : Word} (distinct : other ≠ address) :
    (memory.write address data).byteAt other = memory.byteAt other := by
  by_cases accepted : writable address
  · rw [byteAt_write memory accepted, if_neg distinct]
  · rw [write_lost memory accepted]

theorem byteAt_unwritable (data : Byte) {other : Word} (kept : ¬writable other) :
    (memory.write address data).byteAt other = memory.byteAt other := by
  by_cases accepted : writable address
  · exact byteAt_write_ne memory data fun same => kept (same ▸ accepted)
  · rw [write_lost memory accepted]

end MemoryMap
end GbEmulator.Sm83
