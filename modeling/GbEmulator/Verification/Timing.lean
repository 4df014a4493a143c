import GbEmulator.InstructionSet.Timing
import GbEmulator.Refinement.Boundary
import GbEmulator.Verification.StubPrograms

/-! Instruction timing: the calls between two opcode fetches are the machine cycles
of the instruction in between. -/
namespace GbEmulator
open CpuRegisters Sm83

variable {δ : Type u} [AddressBusAddressable δ]

/-- The calls of one instruction: all return, and only the last one fetches. -/
theorem run_instruction {cpu : Cpu δ} {instruction : Instruction}
    (represents : cpu.Represents (.starting instruction cpu.registers.visible cpu.bus)) :
    ∃ before last, cpu.run (instruction.mCycles cpu.registers.visible) = before ++ [last] ∧
      before.length + 1 = instruction.mCycles cpu.registers.visible ∧
      (∀ report ∈ before, report.fetched = none ∧ ∃ next, report.outcome = .returned next) ∧
      ∃ address opcode, last.fetched = some opcode ∧
        last.transactions = [.read address opcode] ∧
        (instruction.transfers cpu.registers.visible = false →
          address = cpu.registers.visible.pc + BitVec.ofNat 16 (instruction.length - 1)) := by
  obtain ⟨final, finalMemory, ends, landed⟩ :=
    schedule_last cpu.registers.visible cpu.bus instruction
  obtain ⟨cycles, split⟩ := List.getLast?_eq_some_iff.mp ends
  have count : instruction.mCycles cpu.registers.visible = cycles.length + 1 := by
    rw [← schedule_length cpu.registers.visible cpu.bus, split, List.length_append,
      List.length_singleton]
  have trace := lockstep.run represents (cycles.length + 1)
  have runs := Machine.run_cycles cycles (idle final finalMemory) [] cpu.registers.visible cpu.bus
  rw [Machine.run] at runs
  rw [Machine.starting, split, runs, List.map_append, List.map_singleton] at trace
  obtain ⟨before, ending, parts, shown, fetch⟩ := List.map_eq_append_iff.mp trace
  obtain ⟨last, rfl, fetched⟩ := List.map_eq_singleton_iff.mp fetch
  have lengths := congrArg List.length shown
  simp only [List.length_map] at lengths
  rw [count]
  refine ⟨before, last, parts, by rw [lengths], ?_, ?_⟩
  · intro report member
    have seen : report.observation ∈ before.map StepReport.observation :=
      List.mem_map_of_mem member
    rw [shown] at seen
    simp only [List.map_map, List.mem_map] at seen
    obtain ⟨cycle, -, seen⟩ := seen
    have returned := observation_returned seen.symm
    exact ⟨returned.2.1, returned.2.2.imp fun next facts => facts.1⟩
  · have seen := observation_shown fetched
    exact ⟨_, _, seen.2, seen.1, fun stays => (State.promoted_frame _ _).2.2.2.trans (landed stays)⟩

/-- The number of calls is the machine cycle count of the opcode, decided by the flags at
the boundary; unless control is transferred, the next opcode follows the instruction. -/
theorem instruction_timing {cpu : Cpu δ} (boundary : cpu.AtBoundary) :
    ∃ instruction, decode cpu.registers.visible.opcode = .implemented instruction ∧
      ∃ before last, cpu.run (instruction.mCycles cpu.registers.visible) = before ++ [last] ∧
        before.length + 1 = instruction.mCycles cpu.registers.visible ∧
        (∀ report ∈ before, report.fetched = none ∧ ∃ next, report.outcome = .returned next) ∧
        ∃ address opcode, last.fetched = some opcode ∧
          last.transactions = [.read address opcode] ∧
          (instruction.transfers cpu.registers.visible = false →
            address = cpu.registers.visible.pc - 1 + BitVec.ofNat 16 instruction.length) := by
  obtain ⟨instruction, decoded, represents⟩ := boundary.represents
  obtain ⟨before, last, parts, count, suspended, address, opcode, fetched, read, landed⟩ :=
    run_instruction represents
  refine ⟨instruction, decoded, before, last, parts, count, suspended, address, opcode, fetched,
    read, fun stays => ?_⟩
  rw [landed stays]
  obtain ⟨operands, length⟩ : ∃ operands, instruction.length = 1 + operands :=
    ⟨_, (Nat.add_sub_cancel' instruction.length_pos).symm⟩
  rw [length, Nat.add_sub_cancel_left, BitVec.ofNat_add, ← BitVec.add_assoc]
  exact congrArg (· + BitVec.ofNat 16 operands) (BitVec.sub_add_cancel _ 1).symm

/-- `JP Z,0x0200` with the flags of choice. -/
def conditionalJumpCpu (flags : Byte) : Cpu StubDevice :=
  stubCpu [0xCA, 0x00, 0x02] (.jump (some .z))
    { Cpu.powerUp {} with backingAfRegister := Word.ofBytes 0x01 flags }

/-- Four calls if Z is set, and three if it is not, after which the next opcode is fetched. -/
theorem instruction_timing_conditionalJump :
    (∃ before last, (conditionalJumpCpu 0x80).run 4 = before ++ [last] ∧ before.length = 3 ∧
      (∀ report ∈ before, report.fetched = none) ∧ last.fetched.isSome) ∧
    ∃ before last, (conditionalJumpCpu 0x00).run 3 = before ++ [last] ∧ before.length = 2 ∧
      (∀ report ∈ before, report.fetched = none) ∧
      ∃ opcode, last.transactions = [.read 0x0103 opcode] := by
  have decoded : decode 0xCA = .implemented (.jump (some .z)) := by decide
  have boundary (flags : Byte) : (conditionalJumpCpu flags).AtBoundary := stubCpu_boundary _ decoded
  constructor
  · have taken : (Instruction.jump (some .z)).mCycles
        (conditionalJumpCpu 0x80).registers.visible = 4 := by decide
    obtain ⟨instruction, same, before, last, parts, count, suspended, address, opcode, fetched, -⟩ :=
      instruction_timing (boundary 0x80)
    obtain rfl := Decoded.implemented.inj (decoded.symm.trans same)
    rw [taken] at parts count
    exact ⟨before, last, parts, Nat.succ.inj count,
      fun report member => (suspended report member).1, by rw [fetched]; rfl⟩
  · have untaken : (Instruction.jump (some .z)).mCycles
        (conditionalJumpCpu 0x00).registers.visible = 3 := by decide
    obtain ⟨instruction, same, before, last, parts, count, suspended, address, opcode, -, read,
      lands⟩ := instruction_timing (boundary 0x00)
    obtain rfl := Decoded.implemented.inj (decoded.symm.trans same)
    rw [untaken] at parts count
    rw [lands (by decide)] at read
    exact ⟨before, last, parts, Nat.succ.inj count,
      fun report member => (suspended report member).1, opcode, read⟩

end GbEmulator
