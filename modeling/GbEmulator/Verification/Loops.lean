import GbEmulator.InstructionSet.BlockCopy
import GbEmulator.Refinement.Completion
import GbEmulator.Verification.Execution

/-! Loops in the program that the processor executes. -/
namespace GbEmulator
open CpuRegisters Sm83

section
variable {δ : Type u} [AddressBusAddressable δ]

/-- Calls of the processor reach what whole instructions lead to. -/
theorem boundary_executes {cpu : Cpu δ} (boundary : cpu.AtBoundary)
    (executes : cpu.configuration.Executes cycles last) :
    ∃ reached, cpu.after cycles = some reached ∧ reached.configuration = last := by
  obtain ⟨reached, arrived, represents⟩ := boundary.machine.after executes.after
  exact ⟨reached, arrived, Configuration.ext represents.state represents.memory⟩

/-- What is proved of whole instructions is true of calls. -/
theorem boundary_triple {cpu : Cpu δ} (boundary : cpu.AtBoundary)
    {before after : Configuration (AddressBus δ) → Prop}
    (triple : Transition.Triple Configuration.next before time after)
    (holds : before cpu.configuration) :
    ∃ reached, cpu.after time = some reached ∧ after reached.configuration := by
  obtain ⟨last, executes, done⟩ := triple cpu.configuration holds
  obtain ⟨reached, arrived, rfl⟩ := boundary_executes boundary executes
  exact ⟨reached, arrived, done⟩

end

/-- The bus of `main`. -/
def OnMain (bus : AddressBus MainDevice) : Prop :=
  ∃ cartridge ram, bus.devices = [.inl cartridge, .inr ram]

theorem onMain_remembers : Remembers OnMain Ram.Owns where
  store onMain address data :=
    (mapped_alike.store (⟨onMain, fun _ => rfl⟩ : Mapped _ ⟨_⟩) address data).devices
  load := by
    intro bus onMain address owned data other
    have mapped : Mapped bus ⟨bus.readFromAddress⟩ := ⟨onMain, fun _ => rfl⟩
    have stored := (mapped_alike.store mapped address data).read other
    exact stored.trans (MemoryMap.byteAt_write _ owned data other)

/-- A processor about to copy a block. -/
structure Cpu.Copies (cpu : Cpu MainDevice) (start : Word) (turns : Nat) : Prop where
  onMain : OnMain cpu.bus
  located : cpu.configuration.At start
  code : Code cpu.bus start copyCode
  small : turns < 256
  count : cpu.registers.visible.b = BitVec.ofNat 8 (turns + 1)
  room : ∀ index < turns + 1, Ram.Owns (cpu.registers.visible.de + BitVec.ofNat 16 index)
  apart : ∀ index < turns + 1, ∀ offset < copyCode.length,
    start + BitVec.ofNat 16 offset ≠ cpu.registers.visible.de + BitVec.ofNat 16 index

namespace Cpu.Copies
variable {cpu : Cpu MainDevice} {start : Word} {turns : Nat} (copies : cpu.Copies start turns)

def task : CopyTask OnMain Ram.Owns start :=
  ⟨cpu.bus, cpu.registers.visible.hl, cpu.registers.visible.de, turns + 1, copies.code,
    copies.room, copies.apart⟩

theorem begins : cpu.configuration.Begins .b start copies.task.Copying turns := by
  refine ⟨copies.small, copies.located, copies.count, ⟨Nat.le_refl _, copies.onMain, ?_, ?_, ?_⟩⟩ <;>
    rw [show copies.task.total - (turns + 1) = 0 from Nat.sub_self _]
  · exact fun address => rfl
  · exact (BitVec.add_zero _).symm
  · exact (BitVec.add_zero _).symm

end Cpu.Copies

/-- The copying loop, wherever it lies and whatever its blocks hold: ten cycles a byte but
for the last, and no byte outside the destination has changed. -/
theorem block_copy (cpu : Cpu MainDevice) (boundary : cpu.AtBoundary) (start : Word) (turns : Nat)
    (copies : cpu.Copies start turns) :
    let source := cpu.registers.visible.hl
    let destination := cpu.registers.visible.de
    ∃ reached, cpu.after (10 * turns + 9) = some reached ∧ reached.configuration.At (start + 6) ∧
      reached.registers.visible.b = 0 ∧
      reached.registers.visible.hl = source + BitVec.ofNat 16 (turns + 1) ∧
      reached.registers.visible.de = destination + BitVec.ofNat 16 (turns + 1) ∧
      (∀ address, reached.bus.readFromAddress address =
        copied cpu.bus.readFromAddress source destination (turns + 1) address) ∧
      ((∀ written < turns + 1, ∀ read < turns + 1,
        destination + BitVec.ofNat 16 written = source + BitVec.ofNat 16 read → read ≤ written) →
        ∀ index < turns + 1, reached.bus.readFromAddress (destination + BitVec.ofNat 16 index) =
          cpu.bus.readFromAddress (source + BitVec.ofNat 16 index)) := by
  intro source destination
  have small := copies.small
  obtain ⟨reached, arrived, landed, b, copied⟩ :=
    boundary_triple boundary ((CopyTask.body onMain_remembers).loop turns) copies.begins
  have cycles : turns * (6 + 4) + (6 + 3) = 10 * turns + 9 := by omega
  have behind : start + 1 + 1 + 1 + 3 = start + 6 := by bv_omega
  rw [cycles] at arrived
  rw [behind] at landed
  refine ⟨reached, arrived, landed, b, copied.hl, copied.de, copied.memory, ?_⟩
  intro forward index inside
  exact (copied.memory _).trans (copied_block _ source destination (by omega) forward inside)

section Witness

/-- The loop in ROM, from 0x0200 on. -/
def copierRom (index : Fin 0x8000) : Byte :=
  if 0x0200 ≤ index.val then copyCode.getD (index.val - 0x0200) 0 else 0

def copierBus : AddressBus MainDevice := ⟨[.inl (.ofSmallestRom copierRom rfl), .inr {}]⟩

theorem copierBus_read {address : Word} (inside : address.toNat < 0x8000) :
    copierBus.readFromAddress address = copierRom ⟨address.toNat, inside⟩ :=
  (main_rom _ {} (Nat.le_of_lt_succ inside)).trans
    (Cartridge.ofSmallestRom_read copierRom rfl inside)

/-- Three bytes to copy, from 0x0200 to the first addresses of work memory. -/
def copierRegisters : CpuRegisters :=
  { Cpu.powerUp {} with
    backingInstructionRegister := 0x2A
    backingProgramCounterRegister := 0x0201
    backingBcRegister := 0x0300
    backingDeRegister := 0xC000
    backingHlRegister := 0x0200 }

def copierCpu (bus : AddressBus MainDevice) : Cpu MainDevice :=
  .about bus copierRegisters (.loadIndirect .hlIncrement)

theorem copierBus_code : Code copierBus 0x0200 copyCode := by
  have bytes : ∀ offset, (inside : offset < copyCode.length) →
      ∃ bound, copierRom ⟨((0x0200 : Word) + BitVec.ofNat 16 offset).toNat, bound⟩ =
        copyCode[offset] := by
    decide
  intro offset inside
  obtain ⟨bound, holds⟩ := bytes offset inside
  exact (copierBus_read bound).trans holds

theorem copierCpu_boundary (bus : AddressBus MainDevice) : (copierCpu bus).AtBoundary :=
  about_boundary bus (by decide : decode 0x2A = .implemented (.loadIndirect .hlIncrement))

theorem copierCpu_copies {bus : AddressBus MainDevice} (onMain : OnMain bus)
    (code : Code bus 0x0200 copyCode) : (copierCpu bus).Copies 0x0200 2 where
  onMain := onMain
  located := ⟨(Code.head code).symm, rfl⟩
  code := code
  small := by decide
  count := (by decide : copierRegisters.visible.b = BitVec.ofNat 8 3)
  room := (by decide : ∀ index < 3, Ram.Owns (copierRegisters.visible.de + BitVec.ofNat 16 index))
  apart := (by decide : ∀ index < 3, ∀ offset < copyCode.length,
    0x0200 + BitVec.ofNat 16 offset ≠ copierRegisters.visible.de + BitVec.ofNat 16 index)

theorem copierBus_onMain : OnMain copierBus := ⟨_, _, rfl⟩

theorem block_copy_threeBytes :
    ∃ reached, (copierCpu copierBus).after 29 = some reached ∧
      ∀ index < 3, reached.bus.readFromAddress (0xC000 + BitVec.ofNat 16 index) =
        copierBus.readFromAddress (0x0200 + BitVec.ofNat 16 index) := by
  obtain ⟨reached, arrived, -, -, -, -, -, block⟩ := block_copy (copierCpu copierBus)
    (copierCpu_boundary _) 0x0200 2 (copierCpu_copies copierBus_onMain copierBus_code)
  have source : (copierCpu copierBus).registers.visible.hl = 0x0200 :=
    (by decide : copierRegisters.visible.hl = 0x0200)
  have destination : (copierCpu copierBus).registers.visible.de = 0xC000 :=
    (by decide : copierRegisters.visible.de = 0xC000)
  rw [source, destination] at block
  refine ⟨reached, arrived, block ?_⟩
  intro written writtenSmall read readSmall same
  bv_omega

end Witness
end GbEmulator
