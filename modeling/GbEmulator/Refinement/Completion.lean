import GbEmulator.InstructionSet.Completion
import GbEmulator.Refinement.Boundary

/-! Complete instructions. The calls from a boundary to the next opcode fetch make
the accesses of the schedule and the fetch, and leave what the schedule leaves. -/
namespace GbEmulator
open CpuRegisters Sm83 Coroutine

variable {δ : Type u}

/-- The processor that a body with these segments leaves, before it fetches. -/
def Cpu.leftBy (cpu : Cpu δ) (earlier : List (Segment CpuRegisters (AddressBus δ) Word Byte))
    (last : Segment CpuRegisters (AddressBus δ) Word Byte) : Cpu δ :=
  ⟨last.memory,
    promote ((earlier.foldl (fun _ segment => segment.state) cpu.registers).masterInterruptState ==
      .pending) last.state, ⟨.done, none⟩⟩

/-- What a call that only resumed the handler leaves behind. -/
def Segment.ran (segment : Segment CpuRegisters (AddressBus δ) Word Byte) :
    List (Transaction Word Byte) × Option Byte × Option (CpuRegisters × AddressBus δ) :=
  (segment.transactions, none, some (segment.state, segment.memory))

def StepReport.ran (report : StepReport δ) :
    List (Transaction Word Byte) × Option Byte × Option (CpuRegisters × AddressBus δ) :=
  (report.transactions, report.fetched,
    report.outcome.cpu.map fun cpu => (cpu.registers, cpu.bus))

variable [AddressBusAddressable δ]

/-- The calls that execute a body: one for each segment, and the fetch with the last. -/
theorem run_body {cpu : Cpu δ} (handler : cpu.handler = ⟨.suspended rest, none⟩)
    (disciplined : Disciplined rest) :
    ∃ earlier last before, rest.segments cpu.registers cpu.bus = earlier ++ [last] ∧
      cpu.run (earlier.length + 1) = before ++ [(cpu.leftBy earlier last).fetch []] ∧
      before.map StepReport.ran = earlier.map Segment.ran ∧
      cpu.after (earlier.length + 1) = ((cpu.leftBy earlier last).fetch []).outcome.cpu := by
  generalize steps : (rest.segments cpu.registers cpu.bus).length = count
  induction count generalizing cpu rest with
  | zero => exact absurd (List.length_eq_zero_iff.mp steps) (segments_ne_nil rest _ _)
  | succ count ih =>
    have peeled := rest.segments_resume cpu.registers cpu.bus
    dsimp only at peeled
    rcases disciplined.resumed cpu.registers cpu.bus with
      ⟨next, suspends, kept, -⟩ | ⟨returns, silent⟩
    · rw [suspends] at peeled
      have stepped := cpu.step_suspends handler suspends
      dsimp only at peeled stepped
      rw [peeled, List.length_cons, Nat.succ_inj] at steps
      obtain ⟨earlier, last, before, parts, run, ran, arrived⟩ :=
        @ih next ⟨_, _, ⟨.suspended next, none⟩⟩ rfl kept steps
      have called : (cpu.call).2 = some ⟨_, _, ⟨.suspended next, none⟩⟩ :=
        congrArg (fun report => report.outcome.cpu) stepped
      refine ⟨_ :: earlier, last, cpu.step :: before, by rw [peeled, parts, List.cons_append], ?_, ?_, ?_⟩
      · rw [List.length_cons, Cpu.run, Transition.run_next Cpu.call called, ← Cpu.run, run]
        rfl
      · rw [List.map_cons, List.map_cons, ran, stepped]
        rfl
      · rw [List.length_cons, Cpu.after, Transition.after_succ, called, Option.bind_some, ← Cpu.after,
          arrived]
        rfl
    · rw [returns] at peeled
      have stepped := cpu.step_completes handler returns
      dsimp only at peeled stepped
      rw [silent] at stepped
      refine ⟨[], _, [], peeled, ?_, rfl, ?_⟩
      · rw [List.length_nil, Cpu.run, Transition.run_one]
        exact congrArg (fun report => [report]) stepped
      · rw [List.length_nil, Cpu.after_succ]
        exact congrArg (fun report => report.outcome.cpu) stepped

theorem fetch_shown (cpu : Cpu δ) :
    let opcode := cpu.bus.readFromAddress cpu.registers.visible.pc
    (cpu.fetch []).transactions = [.read cpu.registers.visible.pc opcode] ∧
      ∃ next, (cpu.fetch []).outcome.cpu = some next ∧
        next.registers = fetchedRegisters opcode cpu.registers ∧ next.bus = cpu.bus := by
  rw [cpu.fetch_decoded []]
  refine ⟨rfl, ?_⟩
  cases decode (cpu.bus.readFromAddress cpu.registers.visible.pc) with
  | implemented instruction => exact ⟨_, rfl, rfl, rfl⟩
  | unimplemented => exact ⟨_, rfl, rfl, rfl⟩
  | illegal => exact ⟨_, rfl, rfl, rfl⟩

/-- A fetch of an implemented opcode puts its handler in place. -/
theorem fetch_arrives {cpu next : Cpu δ} (arrived : (cpu.fetch []).outcome.cpu = some next)
    (decoded : decode next.registers.visible.opcode = .implemented instruction) :
    next.AtBoundary := by
  obtain ⟨-, other, reached, registers, -⟩ := fetch_shown cpu
  obtain rfl := Option.some.inj (reached.symm.trans arrived)
  have opcode : other.registers.visible.opcode =
      cpu.bus.readFromAddress cpu.registers.visible.pc := by
    rw [registers, visible_fetchedRegisters]
    rfl
  have fetched := decoded
  rw [opcode] at fetched
  rw [cpu.fetch_decoded [], fetched] at arrived
  exact (atBoundary_iff other).mpr ⟨instruction, decoded, by cases arrived; rfl⟩

/-- `next` has executed the instruction `cpu` was about to start and has fetched
what comes after it. -/
structure Cpu.Completes (cpu : Cpu δ) (instruction : Instruction) (next : Cpu δ) : Prop where
  boundary : cpu.AtBoundary
  decoded : decode cpu.registers.visible.opcode = .implemented instruction
  arrived : cpu.after (instruction.mCycles cpu.registers.visible) = some next

/-- A processor that is about to execute `instruction`. -/
def Cpu.about (bus : AddressBus δ) (registers : CpuRegisters) (instruction : Instruction) : Cpu δ :=
  ⟨bus, registers, ⟨.suspended instruction.handler, none⟩⟩

omit [AddressBusAddressable δ] in
theorem about_boundary (bus : AddressBus δ) {registers : CpuRegisters} {instruction : Instruction}
    (decoded : decode registers.visible.opcode = .implemented instruction) :
    (Cpu.about bus registers instruction).AtBoundary :=
  (atBoundary_iff _).mpr ⟨instruction, decoded, rfl⟩

/-- The bus accesses of the calls that execute `instruction`. -/
def Cpu.accesses (cpu : Cpu δ) (instruction : Instruction) : List (Transaction Word Byte) :=
  (cpu.run (instruction.mCycles cpu.registers.visible)).flatMap StepReport.transactions

theorem segments_length [Store μ Word Byte] (instruction : Instruction) (registers : CpuRegisters)
    (memory : μ) :
    (instruction.handler.segments registers memory).length =
      instruction.mCycles registers.visible := by
  have follows := congrArg List.length (handler_follows instruction registers memory)
  rwa [List.length_map, schedule_length] at follows

/-- What the calls of an instruction do, in terms of its handler. -/
theorem Cpu.AtBoundary.leaves {cpu : Cpu δ} {instruction : Instruction}
    {earlier : List (Segment CpuRegisters (AddressBus δ) Word Byte)}
    {last : Segment CpuRegisters (AddressBus δ) Word Byte} (boundary : cpu.AtBoundary)
    (decoded : decode cpu.registers.visible.opcode = .implemented instruction)
    (parts : instruction.handler.segments cpu.registers cpu.bus = earlier ++ [last]) :
    cpu.after (instruction.mCycles cpu.registers.visible) =
        ((cpu.leftBy earlier last).fetch []).outcome.cpu ∧
      cpu.accesses instruction = earlier.flatMap Segment.transactions ++
        ((cpu.leftBy earlier last).fetch []).transactions := by
  obtain ⟨same, decodedSame, fresh⟩ := (atBoundary_iff cpu).mp boundary
  rw [decoded, Decoded.implemented.injEq] at decodedSame
  subst decodedSame
  have count := segments_length instruction cpu.registers cpu.bus
  obtain ⟨earlierSame, lastSame, before, partsSame, run, ran, arrived⟩ :=
    run_body fresh (handler_disciplined instruction)
  obtain ⟨rfl, ends⟩ := List.append_inj' (partsSame.symm.trans parts) rfl
  obtain rfl := List.head_eq_of_cons_eq ends
  rw [parts, List.length_append, List.length_singleton] at count
  have transactions := congrArg (List.map Prod.fst) ran
  rw [List.map_map, List.map_map] at transactions
  rw [← count, Cpu.accesses, ← count, run, List.flatMap_append, List.flatMap_singleton,
    List.flatMap_def, List.flatMap_def]
  exact ⟨arrived, congrArg (List.flatten · ++ _) transactions⟩

/-- What the calls of an instruction do, in terms of its schedule. -/
theorem Cpu.AtBoundary.executes {cpu : Cpu δ} {instruction : Instruction}
    (boundary : cpu.AtBoundary)
    (decoded : decode cpu.registers.visible.opcode = .implemented instruction) :
    let final := instruction.finished cpu.registers.visible cpu.bus
    let opcode := final.2.readFromAddress final.1.pc
    ∃ next interrupts, cpu.after (instruction.mCycles cpu.registers.visible) = some next ∧
      next.registers.visible = (final.1.promoted interrupts).fetched opcode ∧
      next.bus = final.2 ∧
      cpu.accesses instruction =
        instruction.accesses cpu.registers.visible cpu.bus ++ [.read final.1.pc opcode] := by
  obtain ⟨earlier, last, parts⟩ := segments_last instruction.handler cpu.registers cpu.bus
  obtain ⟨arrived, accesses⟩ := boundary.leaves decoded parts
  have follows := handler_follows instruction cpu.registers cpu.bus
  have ends := instruction.finished_last cpu.registers.visible cpu.bus
  rw [parts, List.map_append, List.map_singleton] at follows
  rw [← follows, List.getLast?_append, List.getLast?_singleton, Option.some_or,
    Option.some.injEq, Segment.map, idle, Segment.mk.injEq] at ends
  obtain ⟨state, memory, silent⟩ := ends
  have accessed : instruction.accesses cpu.registers.visible cpu.bus =
      earlier.flatMap Segment.transactions := by
    rw [Instruction.accesses, ← follows, List.flatMap_append, List.flatMap_singleton, Segment.map,
      silent, List.append_nil, List.flatMap_map]
    rfl
  rw [accesses, arrived, accessed]
  generalize instruction.finished cpu.registers.visible cpu.bus = final at state memory
  obtain ⟨interrupts, left⟩ : ∃ interrupts,
      (cpu.leftBy earlier last).registers.visible = final.1.promoted interrupts :=
    ⟨_, (visible_promote _ last.state).trans (congrArg (State.promoted · _) state)⟩
  have held : (cpu.leftBy earlier last).bus = final.2 := memory
  obtain ⟨read, next, reached, registers, bus⟩ := fetch_shown (cpu.leftBy earlier last)
  rw [left, held, (State.promoted_frame _ _).2.2.2] at read registers
  refine ⟨next, interrupts, reached, ?_, bus.trans held, by rw [read]⟩
  rw [registers, visible_fetchedRegisters, left]

theorem Cpu.AtBoundary.completes {cpu : Cpu δ} {instruction : Instruction}
    (boundary : cpu.AtBoundary)
    (decoded : decode cpu.registers.visible.opcode = .implemented instruction) :
    ∃ next, cpu.Completes instruction next := by
  obtain ⟨next, -, arrived, -⟩ := boundary.executes decoded
  exact ⟨next, boundary, decoded, arrived⟩

namespace Cpu.Completes
variable {cpu next : Cpu δ} {instruction : Instruction} (completes : cpu.Completes instruction next)
include completes

theorem shown :
    let final := instruction.finished cpu.registers.visible cpu.bus
    (∃ interrupts, next.registers.visible =
      (final.1.promoted interrupts).fetched (final.2.readFromAddress final.1.pc)) ∧
      next.bus = final.2 := by
  obtain ⟨boundary, decoded, arrived⟩ := completes
  obtain ⟨reached, interrupts, arrivedSame, visible, bus, -⟩ := boundary.executes decoded
  obtain rfl := Option.some.inj (arrivedSame.symm.trans arrived)
  exact ⟨⟨interrupts, visible⟩, bus⟩

theorem bus : next.bus = (instruction.finished cpu.registers.visible cpu.bus).2 :=
  completes.shown.2

theorem registers : next.registers.visible.SameRegisters
    (instruction.finished cpu.registers.visible cpu.bus).1 := by
  obtain ⟨⟨interrupts, visible⟩, -⟩ := completes.shown
  rw [visible]
  exact State.fetched_registers _ _ _

/-- The next opcode is fetched from where the instruction leaves PC. -/
theorem opcode : next.registers.visible.opcode =
    next.bus.readFromAddress (instruction.finished cpu.registers.visible cpu.bus).1.pc := by
  obtain ⟨⟨interrupts, visible⟩, bus⟩ := completes.shown
  rw [visible, bus]
  rfl

theorem pc : next.registers.visible.pc =
    (instruction.finished cpu.registers.visible cpu.bus).1.pc + 1 := by
  obtain ⟨⟨interrupts, visible⟩, -⟩ := completes.shown
  rw [visible]
  exact congrArg (· + 1) (State.promoted_frame _ _).2.2.2

/-- An implemented opcode is the start of the next instruction. -/
theorem next_boundary (decoded : decode next.registers.visible.opcode = .implemented following) :
    next.AtBoundary := by
  obtain ⟨earlier, last, parts⟩ := segments_last instruction.handler cpu.registers cpu.bus
  obtain ⟨arrived, -⟩ := completes.boundary.leaves completes.decoded parts
  exact fetch_arrives (arrived.symm.trans completes.arrived) decoded

theorem follow (decoded : decode (next.bus.readFromAddress
    (instruction.finished cpu.registers.visible cpu.bus).1.pc) = .implemented following) :
    ∃ last, next.Completes following last := by
  rw [← completes.opcode] at decoded
  exact (completes.next_boundary decoded).completes decoded

theorem accesses_eq : cpu.accesses instruction =
    instruction.accesses cpu.registers.visible cpu.bus ++
      [.read (instruction.finished cpu.registers.visible cpu.bus).1.pc
        next.registers.visible.opcode] := by
  obtain ⟨-, -, -, -, -, accesses⟩ := completes.boundary.executes completes.decoded
  rw [accesses, completes.opcode, completes.bus]

end Cpu.Completes
end GbEmulator
