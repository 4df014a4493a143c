import GbEmulator.InstructionSet.Counters
import GbEmulator.Refinement.Completion
import GbEmulator.Verification.WorkMemory

/-! Runs of counting instructions. Bytes and pairs may be counted up and down in any
order: the registers follow the integer counters, Carry is never touched, and Z, N
and H are left by the last byte step. -/
namespace GbEmulator
open CpuRegisters Sm83

variable {δ : Type u} [AddressBusAddressable δ]

/-- Complete counting instructions one after another. -/
inductive CountingRun (start : Cpu δ) : List Counting → Cpu δ → Prop where
  | start : CountingRun start [] start
  | count (run : CountingRun start steps cpu) (completes : cpu.Completes step.instruction next) :
      CountingRun start (steps ++ [step]) next

/-- The registers and flags after counting, against the counters from `before`. -/
structure ShowsCounted (before after : State) (counted : Counted) : Prop where
  counters : after.counters = counted.counters
  carry : after.flags.carry = before.flags.carry
  lastByte : LastByteFlags before.flags after.flags counted.lastByte

/-- One counting instruction. -/
theorem ShowsCounted.count {before : State} {counted : Counted} {cpu next : Cpu δ}
    (shows : ShowsCounted before cpu.registers.visible counted)
    (completes : cpu.Completes step.instruction next) :
    ShowsCounted before next.registers.visible (counted.count step) := by
  obtain ⟨counters, carry, lastByte⟩ := shows
  have same := completes.registers
  have counts : next.registers.visible.counters = counted.counters.count step := by
    rw [same.counters, counters_count, counters]
  cases step with
  | byte direction target =>
    rw [finished_byte] at same
    obtain ⟨kept, flags⟩ := State.stepped_flags cpu.registers.visible direction target
    rw [← same.flags, ← same.counters, counts] at flags
    exact ⟨counts, (congrArg Flags.carry same.flags).trans (kept.trans carry), flags⟩
  | pair direction target =>
    rw [finished_pair] at same
    have flags : next.registers.visible.flags = cpu.registers.visible.flags :=
      same.flags.trans (congrArg Flags.ofByte (State.setPair_frame _ _ target).2.1)
    refine ⟨counts, flags ▸ carry, ?_⟩
    rw [flags]
    exact lastByte

theorem counting_run {start cpu : Cpu δ} (run : CountingRun start steps cpu) :
    ShowsCounted start.registers.visible cpu.registers.visible
      (steps.foldl Counted.count ⟨start.registers.visible.counters, none⟩) := by
  induction run with
  | start => exact ⟨rfl, rfl, rfl, rfl, rfl⟩
  | count run completes ih =>
    rw [List.foldl_append]
    exact ih.count completes

/-- `DEC BC` in ROM. -/
def countingRom (index : Fin 0x8000) : Byte := if index.val = 0x0100 then 0x0B else 0

/-- At the start of `INC C`, with C at its highest value. -/
def countingCpu : Cpu MainDevice :=
  .about ⟨[.inl (.ofSmallestRom countingRom rfl), .inr {}]⟩
    { Cpu.powerUp {} with
      backingInstructionRegister := 0x0C
      backingBcRegister := 0x00FF } (.increment .c)

/-- `INC C` does not carry into B, and `DEC BC` then borrows through both halves. -/
theorem counting_run_throughBc :
    ∃ next, CountingRun countingCpu [.byte .up .c, .pair .down .bc] next ∧
      next.registers.visible.counters.bc = 0xFFFF ∧ next.registers.visible.zeroFlag = true := by
  have decoded : decode countingCpu.registers.visible.opcode = .implemented (.increment .c) :=
    (by decide : decode 0x0C = .implemented (.increment .c))
  obtain ⟨counted, counts⟩ := (about_boundary _ decoded : countingCpu.AtBoundary).completes decoded
  have fetched : counted.bus.readFromAddress 0x0100 = 0x0B := by
    rw [counts.bus]
    exact (main_rom _ {} (by decide)).trans (Cartridge.ofSmallestRom_read countingRom rfl (by decide))
  obtain ⟨next, follows⟩ := counts.follow
    ((congrArg decode fetched).trans (by decide : decode 0x0B = .implemented (.decrementPair .bc)))
  have run : CountingRun countingCpu [.byte .up .c, .pair .down .bc] next :=
    .count (.count .start counts) follows
  obtain ⟨counters, -, zero, -⟩ := counting_run run
  refine ⟨next, run, ?_, zero.mpr ?_⟩
  · rw [counters]
    decide
  · decide

end GbEmulator
