import GbEmulator.InstructionSet.Completion
import GbEmulator.InstructionSet.Frame
import GbEmulator.Refinement.Progress
import GbEmulator.Verification.StubPrograms

/-! The frame law of the instruction set: whatever call of an instruction a program
is stopped after, only the destinations of the instruction have changed. -/
namespace GbEmulator
open CpuRegisters Sm83

/-- What an instruction started in `before` keeps. -/
structure Sm83.Instruction.Keeps (instruction : Instruction) (before after : State) : Prop where
  f : instruction.changesF = false → after.f = before.f
  carry : ∀ target, instruction = .increment target ∨ instruction = .decrement target →
    after.carryFlag = before.carryFlag
  complement : instruction = .complement →
    after.zeroFlag = before.zeroFlag ∧ after.carryFlag = before.carryFlag
  complementCarry : instruction = .complementCarry → after.zeroFlag = before.zeroFlag
  sp : instruction.changesSp before = false → after.sp = before.sp
  registers : ∀ register ∉ instruction.destinations, after.get register = before.get register
  sibling : ∀ target sibling, instruction.byteDestination = some target →
    target.sibling = some sibling → after.get sibling = before.get sibling

/-- No access of the call was a write. -/
def StepReport.OnlyReads (report : StepReport δ) : Prop :=
  ∀ address data, .write address data ∉ report.transactions

theorem sibling_other (instruction : Instruction) (target sibling : Register8)
    (destination : instruction.byteDestination = some target)
    (pair : target.sibling = some sibling) : sibling ∉ instruction.destinations := by
  have distinct : sibling ≠ target := by
    rintro rfl
    cases sibling <;> cases pair
  cases instruction <;> cases destination <;> simpa [Instruction.destinations] using distinct

variable {μ : Type u} [Store μ Word Byte]

theorem schedule_keeps (state : State) (memory : μ) (instruction : Instruction) :
    ∀ cycle ∈ instruction.schedule state memory, instruction.Keeps state cycle.state := by
  intro cycle member
  constructor
  · intro kept
    exact schedule_f state memory kept cycle member
  · intro target counts
    exact schedule_carry state memory counts cycle member
  · rintro rfl
    exact schedule_complement state memory cycle member
  · rintro rfl
    exact schedule_complementCarry state memory cycle member
  · intro kept
    exact schedule_sp state memory kept cycle member
  · intro register other
    exact schedule_get state memory other cycle member
  · intro target sibling destination pair
    exact schedule_get state memory (sibling_other instruction target sibling destination pair) cycle member

/-- Promotion and fetch change nothing that an instruction keeps. -/
theorem Sm83.Instruction.Keeps.fetched {instruction : Instruction} {before after : State}
    (keeps : instruction.Keeps before after) (earlier : MasterInterruptState) (opcode : Byte) :
    instruction.Keeps before ((after.promoted earlier).fetched opcode) := by
  obtain ⟨get, f, sp⟩ := State.fetched_registers after earlier opcode
  have zero : ((after.promoted earlier).fetched opcode).zeroFlag = after.zeroFlag :=
    congrArg (fun flags => flags.getLsbD 7) f
  have carry : ((after.promoted earlier).fetched opcode).carryFlag = after.carryFlag :=
    congrArg (fun flags => flags.getLsbD 4) f
  constructor
  · intro kept
    exact f.trans (keeps.f kept)
  · intro target counts
    exact carry.trans (keeps.carry target counts)
  · intro complements
    exact ⟨zero.trans (keeps.complement complements).1,
      carry.trans (keeps.complement complements).2⟩
  · intro complements
    exact zero.trans (keeps.complementCarry complements)
  · intro kept
    exact sp.trans (keeps.sp kept)
  · intro register other
    exact (get register).trans (keeps.registers register other)
  · intro target sibling destination pair
    exact (get sibling).trans (keeps.sibling target sibling destination pair)

variable {δ : Type u} [AddressBusAddressable δ]

/-- One call of an instruction, the last one included. -/
theorem call_keeps {before : Cpu δ} {instruction : Instruction} {state : State}
    {memory : AddressBus δ} {done : Nat} (inside : done < (instruction.schedule state memory).length)
    (represents : before.Represents (Position.mk instruction state memory done).machine) :
    ∃ next, before.step.outcome.cpu = some next ∧
      instruction.Keeps state next.registers.visible ∧
      (∀ address data, .write address data ∈ before.step.transactions →
        address ∈ instruction.writeAddresses state memory) ∧
      (instruction.writesBus state = false → next.bus = memory ∧ before.step.OnlyReads) := by
  have runs := List.getElem?_eq_getElem inside
  have member := List.getElem_mem inside
  have keeps := schedule_keeps state memory instruction _ member
  have writes := schedule_writes state memory instruction _ member
  rcases Nat.lt_or_eq_of_le (Nat.succ_le_of_lt inside) with more | ends
  · obtain ⟨transactions, -, next, outcome, shown, bus, -⟩ := represents.step_shown runs more
    refine ⟨next, by rw [outcome]; rfl, by rw [shown]; exact keeps, ?_, fun silent => ?_⟩
    · rw [transactions]
      exact writes
    · obtain ⟨kept, reads⟩ := schedule_memory state memory silent _ member
      exact ⟨bus.trans kept, fun address data => by rw [transactions]; exact reads address data⟩
  · obtain ⟨transactions, -, next, outcome, shown, bus, -⟩ := represents.step_fetches runs ends
    -- the fetch adds a read, so every write is one of the last cycle
    have earlier (address : Word) (data : Byte)
        (write : .write address data ∈ before.step.transactions) := by
      rw [transactions, List.mem_append, List.mem_singleton] at write
      exact write.resolve_right nofun
    refine ⟨next, outcome, by rw [shown]; exact keeps.fetched _ _, ?_, fun silent => ?_⟩
    · intro address data write
      exact writes address data (earlier address data write)
    · obtain ⟨kept, reads⟩ := schedule_memory state memory silent _ member
      exact ⟨bus.trans kept, fun address data write => reads address data (earlier address data write)⟩

theorem frame_law {cpu : Cpu δ} (boundary : cpu.AtBoundary) :
    ∃ instruction, decode cpu.registers.visible.opcode = .implemented instruction ∧
      ∀ index < instruction.mCycles cpu.registers.visible, ∃ before next,
        cpu.after index = some before ∧ before.step.outcome.cpu = some next ∧
        instruction.Keeps cpu.registers.visible next.registers.visible ∧
        next.bus = before.step.transactions.foldl Transaction.perform before.bus ∧
        (∀ address data, .write address data ∈ before.step.transactions →
          address ∈ instruction.writeAddresses cpu.registers.visible cpu.bus) ∧
        (instruction.writesBus cpu.registers.visible = false →
          next.bus = cpu.bus ∧ before.step.OnlyReads) := by
  obtain ⟨instruction, decoded, represents⟩ := boundary.represents
  refine ⟨instruction, decoded, fun index inside => ?_⟩
  rw [← schedule_length cpu.registers.visible cpu.bus] at inside
  obtain ⟨before, arrived, kept⟩ := represents.after_cycles inside
  obtain ⟨next, outcome, keeps, writes, silent⟩ := call_keeps inside kept
  exact ⟨before, next, arrived, outcome, keeps, Cpu.step_memory outcome, writes, silent⟩

/-- `LD (HL+),A` at 0xC000. -/
def storingCpu : Cpu StubDevice :=
  stubCpu [0x22] (.storeIndirect .hlIncrement) { Cpu.powerUp {} with backingHlRegister := 0xC000 }

/-- Both of its calls leave A, F and SP as they were and write nowhere else. -/
theorem frame_law_store :
    storingCpu.registers.visible.opcode = 0x22 ∧
      ∀ index < 2, ∃ before next, storingCpu.after index = some before ∧
        before.step.outcome.cpu = some next ∧ next.registers.visible.a = 0x01 ∧
        next.registers.visible.f = 0x80 ∧ next.registers.visible.sp = 0xFFFE ∧
        ∀ address data, .write address data ∈ before.step.transactions → address = 0xC000 := by
  have decoded : decode 0x22 = .implemented (.storeIndirect .hlIncrement) := by decide
  have boundary : storingCpu.AtBoundary := stubCpu_boundary _ decoded
  have destination : storingCpu.registers.visible.hl = 0xC000 := by decide
  obtain ⟨instruction, same, calls⟩ := frame_law boundary
  obtain rfl := Decoded.implemented.inj (decoded.symm.trans same)
  refine ⟨rfl, fun index inside => ?_⟩
  obtain ⟨before, next, arrived, outcome, keeps, -, writes, -⟩ := calls index inside
  refine ⟨before, next, arrived, outcome, ?_, ?_, ?_, ?_⟩
  · exact (keeps.registers .a (by decide)).trans (by decide)
  · exact (keeps.f rfl).trans (by decide)
  · exact (keeps.sp rfl).trans (by decide)
  · intro address data write
    have member := writes address data write
    exact (List.mem_singleton.mp member).trans destination

end GbEmulator
