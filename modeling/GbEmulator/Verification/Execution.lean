import GbEmulator.InstructionSet.Execution
import GbEmulator.Verification.Process
import GbEmulator.Verification.StubPrograms

/-! Programs as sequences of whole instructions. Counting calls, the processor is
exactly where the instructions executed so far leave it, and the process ends exactly
where they lead to an opcode without an instruction. -/
namespace GbEmulator
open CpuRegisters Sm83

section
variable {δ : Type u}

def Cpu.configuration (cpu : Cpu δ) : Configuration (AddressBus δ) :=
  ⟨cpu.registers.visible, cpu.bus⟩

variable [AddressBusAddressable δ] {cpu : Cpu δ}

theorem Cpu.AtBoundary.machine (boundary : cpu.AtBoundary) :
    cpu.Represents cpu.configuration.machine := by
  obtain ⟨instruction, decoded, represents⟩ := boundary.represents
  have starts : cpu.configuration.machine = _ := Configuration.machine_starting decoded
  rw [starts]
  exact represents

theorem Cpu.Represents.after {machine next : Machine (AddressBus δ)}
    (represents : cpu.Represents machine) {calls : Nat}
    (arrived : Transition.after Machine.step calls machine = some next) :
    ∃ reached, cpu.after calls = some reached ∧ reached.Represents next := by
  have related := lockstep.after represents calls
  rw [arrived] at related
  cases image : cpu.after calls with
  | none =>
    rw [show Transition.after Cpu.call calls cpu = none from image] at related
    cases related
  | some reached =>
    rw [show Transition.after Cpu.call calls cpu = some reached from image] at related
    obtain ⟨kept⟩ := related
    exact ⟨reached, rfl, kept⟩

theorem Cpu.Represents.machine_after {machine : Machine (AddressBus δ)} {reached : Cpu δ}
    (represents : cpu.Represents machine) {calls : Nat} (arrived : cpu.after calls = some reached) :
    ∃ next, Transition.after Machine.step calls machine = some next ∧ reached.Represents next := by
  have related := lockstep.after represents calls
  rw [show Transition.after Cpu.call calls cpu = some reached from arrived] at related
  cases image : Transition.after Machine.step calls machine with
  | none => rw [image] at related; cases related
  | some next =>
    rw [image] at related
    obtain ⟨kept⟩ := related
    exact ⟨next, rfl, kept⟩

/-- Where a processor is `done` calls after a configuration. -/
inductive Cpu.Within (cpu : Cpu δ) (configuration : Configuration (AddressBus δ)) : Nat → Prop where
  | executing {instruction : Instruction} {done : Nat}
      (decoded : configuration.decoded = .implemented instruction)
      (inside : done < instruction.mCycles configuration.state)
      (shown : (cpu.registers.visible, cpu.bus) =
        (Position.mk instruction configuration.state configuration.memory done).current) :
      cpu.Within configuration done
  | halted {fault : Fault}
      (faulty : configuration.decoded.fault configuration.state.opcode = some fault)
      (shown : cpu.configuration = configuration) : cpu.Within configuration 0

/-- From a boundary, whole instructions take as many calls as they have machine cycles and
leave what they compute; and after any number of calls the processor is inside the
instruction that whole instructions lead to. -/
theorem cpu_executes (cpu : Cpu δ) (boundary : cpu.AtBoundary) :
    (∀ cycles last, cpu.configuration.Executes cycles last →
      ∃ reached, cpu.after cycles = some reached ∧ reached.configuration = last) ∧
    ∀ calls reached, cpu.after calls = some reached →
      ∃ cycles last done, cpu.configuration.Executes cycles last ∧ calls = cycles + done ∧
        reached.Within last done := by
  constructor
  · intro cycles last executes
    obtain ⟨reached, arrived, represents⟩ := boundary.machine.after executes.after
    exact ⟨reached, arrived, Configuration.ext represents.state represents.memory⟩
  · intro calls reached arrived
    obtain ⟨machine, arrivedMachine, represents⟩ := boundary.machine.machine_after arrived
    obtain ⟨cycles, last, done, executes, split, inside⟩ :=
      Configuration.after_inside arrivedMachine
    refine ⟨cycles, last, done, executes, split, ?_⟩
    cases inside with
    | executing decoded inside =>
      exact .executing decoded inside (Prod.ext represents.state represents.memory)
    | halted faulty => exact .halted faulty (Configuration.ext represents.state represents.memory)

/-- The NOP of the constructor and `LD B,0x12`, and one call into the latter. -/
theorem cpu_executes_chain :
    (∃ reached, (Cpu.construct (stubBus [0x06, 0x12])).after 3 = some reached ∧
      reached.registers.visible.b = 0x12 ∧ reached.registers.visible.pc = 0x0103) ∧
    ∃ reached cycles last done, (Cpu.construct (stubBus [0x06, 0x12])).after 2 = some reached ∧
      (Cpu.construct (stubBus [0x06, 0x12])).configuration.Executes cycles last ∧
      2 = cycles + done ∧ reached.Within last done := by
  obtain ⟨executes, inside⟩ := cpu_executes _ (construct_boundary (stubBus [0x06, 0x12]))
  constructor
  · let start := (Cpu.construct (stubBus [0x06, 0x12])).configuration
    have idles : start.decoded = .implemented .nop := construct_decoded _
    have loads : (Instruction.nop.execute start).decoded = .implemented (.loadImmediate .b) := by
      decide +kernel
    have chain : start.Executes 3 ((Instruction.loadImmediate .b).execute
        (Instruction.nop.execute start)) :=
      .step (Configuration.next_implemented idles)
        (.single (Configuration.next_implemented loads))
    obtain ⟨reached, arrived, same⟩ := executes 3 _ chain
    have state : reached.registers.visible = ((Instruction.loadImmediate .b).execute
        (Instruction.nop.execute start)).state := congrArg Configuration.state same
    refine ⟨reached, arrived, ?_, ?_⟩ <;> rw [state] <;> decide +kernel
  · obtain ⟨reached, arrived⟩ := Option.isSome_iff_exists.mp
      (by decide +kernel : ((Cpu.construct (stubBus [0x06, 0x12])).after 2).isSome = true)
    obtain ⟨cycles, last, done, chain, count, within⟩ := inside 2 reached arrived
    exact ⟨reached, cycles, last, done, arrived, chain, count, within⟩

end

/-- Power up with an image in place. -/
def mainConfiguration (romData : Array Byte) : Configuration (MemoryMap Ram.Owns) :=
  ⟨.powerUp, mainMemory romData⟩

theorem mainConfiguration_decoded (romData : Array Byte) :
    (mainConfiguration romData).decoded = .implemented .nop :=
  (by decide : decode 0x00 = .implemented .nop)

theorem mainMachine_configuration (romData : Array Byte) :
    mainMachine romData = (mainConfiguration romData).machine :=
  (Configuration.machine_starting (mainConfiguration_decoded romData)).symm

/-- The process goes on exactly as long as no chain of whole instructions has led to an opcode
without one. -/
theorem main_running_iff (program romFilePath : String) (files : String → Option RomFile)
    {romData : Array Byte} (loaded : loadRomData (files romFilePath) = .ok romData) (calls : Nat) :
    main [program, romFilePath] files calls = .running ↔
      ∀ cycles halt, (mainConfiguration romData).HaltsAt cycles halt → calls < cycles := by
  have starts := mainConfiguration_decoded romData
  rw [main_loaded loaded, mainMachine_configuration]
  constructor
  · intro running cycles halt reached
    by_contra late
    rw [(Configuration.halt_iff starts).mpr ⟨cycles, Nat.le_of_not_lt late, reached⟩] at running
    cases running
  · intro never
    cases halts : (mainConfiguration romData).machine.halt calls with
    | none => rfl
    | some halt =>
      obtain ⟨cycles, bound, reached⟩ := (Configuration.halt_iff starts).mp halts
      exact absurd (never cycles halt reached) (Nat.not_lt.mpr bound)

/-- The process has ended within a number of calls exactly if whole instructions lead from
power up to an opcode without one in as many machine cycles, and prints its report. -/
theorem main_exits_iff (program romFilePath : String) (files : String → Option RomFile)
    (romData : Array Byte) (loaded : loadRomData (files romFilePath) = .ok romData) (calls : Nat) :
    (∀ status output, main [program, romFilePath] files calls = .exited status output ↔
      status = -1 ∧ ∃ cycles halt, cycles ≤ calls ∧
        (mainConfiguration romData).HaltsAt cycles halt ∧ output = halt.output) ∧
    (main [program, romFilePath] files calls = .running ↔
      ∀ cycles halt, (mainConfiguration romData).HaltsAt cycles halt → calls < cycles) := by
  have starts := mainConfiguration_decoded romData
  refine ⟨?_, main_running_iff program romFilePath files loaded calls⟩
  rw [main_loaded loaded, mainMachine_configuration]
  intro status output
  constructor
  · intro exited
    obtain ⟨halt, halts, rfl, rfl⟩ := processOf_exited exited
    obtain ⟨cycles, bound, reached⟩ := (Configuration.halt_iff starts).mp halts
    exact ⟨rfl, cycles, halt, bound, reached, rfl⟩
  · rintro ⟨rfl, cycles, halt, bound, reached, rfl⟩
    rw [(Configuration.halt_iff starts).mpr ⟨cycles, bound, reached⟩]
    rfl

theorem main_exits_iff_illegalRom :
    ∃ cycles, ∃ halt : Halt (MemoryMap Ram.Owns), cycles ≤ 1 ∧
      (mainConfiguration (Array.ofFn (illegalRom 0x8000))).HaltsAt cycles halt := by
  obtain ⟨output, exited⟩ := illegalRom_exits 0x8000 rfl
  obtain ⟨-, cycles, halt, bound, reached, -⟩ :=
    ((main_exits_iff "emulator" "rom.gb" (illegalFiles 0x8000) _
      (illegalRom_loaded 0x8000 rfl "rom.gb") 1).1 _ _).mp exited
  exact ⟨cycles, halt, bound, reached⟩

end GbEmulator
