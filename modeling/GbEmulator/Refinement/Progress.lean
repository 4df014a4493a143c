import GbEmulator.InstructionSet.Position
import GbEmulator.Refinement.Boundary

/-! Calls on a processor that is inside an instruction. Each one executes the next
cycle of the schedule; the last one fetches, and starts the fetched instruction
unless the opcode has no handler. -/
namespace GbEmulator
open CpuRegisters Sm83

variable {δ : Type u} [AddressBusAddressable δ] {cpu : Cpu δ}
  {position : Position (AddressBus δ)} {cycle : Segment State (AddressBus δ) Word Byte}

/-- The state in which the last cycle of an instruction fetches. -/
def fetchState (position : Position (AddressBus δ))
    (cycle : Segment State (AddressBus δ) Word Byte) : State :=
  cycle.state.promoted position.current.1.interrupts

theorem Cpu.Represents.step_shown (represents : cpu.Represents position.machine)
    (runs : position.cycles[position.done]? = some cycle)
    (more : position.done + 1 < position.cycles.length) :
    cpu.step.transactions = cycle.transactions ∧ cpu.step.fetched = none ∧
      ∃ next, cpu.step.outcome = .returned next ∧ next.registers.visible = cycle.state ∧
        next.bus = cycle.memory ∧ next.Represents position.next.machine := by
  obtain ⟨seen, kept⟩ := step_represents represents
  rw [Position.step_shown runs more] at seen kept
  obtain ⟨transactions, fetched, next, outcome, state, memory⟩ := observation_returned seen
  rw [outcome] at kept
  cases kept with
  | some kept => exact ⟨transactions, fetched, next, outcome, state, memory, kept⟩

theorem Cpu.Represents.step_fetches (represents : cpu.Represents position.machine)
    (runs : position.cycles[position.done]? = some cycle)
    (ends : position.done + 1 = position.cycles.length) :
    let opcode := cycle.memory.readFromAddress (fetchState position cycle).pc
    let state := (fetchState position cycle).fetched opcode
    cpu.step.transactions = cycle.transactions ++ [.read (fetchState position cycle).pc opcode] ∧
      cpu.step.fetched = some opcode ∧
      ∃ next, cpu.step.outcome.cpu = some next ∧ next.registers.visible = state ∧
        next.bus = cycle.memory ∧
        ((∃ instruction, decode opcode = .implemented instruction ∧
            cpu.step.outcome = .returned next ∧
            next.Represents (Position.mk instruction state cycle.memory 0).machine) ∨
          ∃ error, cpu.step.outcome = .threw error next) := by
  obtain ⟨seen, kept⟩ := step_represents represents
  rw [Position.step_fetches runs ends] at seen kept
  have shown := observation_shown seen
  refine ⟨shown.1, shown.2, ?_⟩
  cases outcome : cpu.step.outcome with
  | undefinedBehaviour => rw [outcome] at kept; cases kept
  | threw error next =>
    rw [outcome] at kept
    obtain ⟨represents⟩ := kept
    exact ⟨next, rfl, represents.state, represents.memory, .inr ⟨error, rfl⟩⟩
  | returned next =>
    rw [outcome] at kept
    obtain ⟨represents⟩ := kept
    refine ⟨next, rfl, represents.state, represents.memory, .inl ?_⟩
    have faultless : ((decode (cycle.memory.readFromAddress (fetchState position cycle).pc)).fault
        (cycle.memory.readFromAddress (fetchState position cycle).pc)).map Fault.error = none :=
      observation_faultless outcome seen
    have started : next.Represents ⟨(fetchState position cycle).fetched
        (cycle.memory.readFromAddress (fetchState position cycle).pc), cycle.memory,
        (decode (cycle.memory.readFromAddress (fetchState position cycle).pc)).schedule _ _⟩ :=
      represents
    cases decoded : decode (cycle.memory.readFromAddress (fetchState position cycle).pc) with
    | implemented instruction =>
      rw [decoded] at started
      exact ⟨instruction, rfl, rfl, started⟩
    | unimplemented => rw [decoded] at faultless; cases faultless
    | illegal => rw [decoded] at faultless; cases faultless

/-- After `done` calls a processor that was at a boundary has executed `done` cycles. -/
theorem Cpu.Represents.after_cycles {instruction : Instruction} {state : State}
    {memory : AddressBus δ}
    (represents : cpu.Represents (.starting instruction state memory)) {done : Nat}
    (inside : done < (instruction.schedule state memory).length) :
    ∃ reached, cpu.after done = some reached ∧
      reached.Represents (Position.mk instruction state memory done).machine := by
  induction done with
  | zero => exact ⟨cpu, rfl, represents⟩
  | succ done ih =>
    obtain ⟨last, arrived, kept⟩ := ih (Nat.lt_of_succ_lt inside)
    have runs := List.getElem?_eq_getElem (Nat.lt_of_succ_lt inside)
    obtain ⟨-, -, next, outcome, -, -, keptNext⟩ := kept.step_shown runs inside
    exact ⟨next, Cpu.after_call arrived (by rw [outcome]; rfl), keptNext⟩

/-- The call that completes an instruction fetches in the state its last cycle leaves,
promotion aside. -/
theorem Cpu.Represents.completes {instruction : Instruction} {state final : State}
    {memory finalMemory : AddressBus δ}
    (represents : cpu.Represents (.starting instruction state memory))
    (ends : (instruction.schedule state memory).getLast? = some (idle final finalMemory)) :
    ∃ last next earlier, cpu.after (instruction.mCycles state - 1) = some last ∧
      cpu.after (instruction.mCycles state) = some next ∧
      let opcode := finalMemory.readFromAddress final.pc
      last.step.transactions = [.read final.pc opcode] ∧ last.step.fetched = some opcode ∧
        next.registers.visible = (final.promoted earlier).fetched opcode ∧
        next.bus = finalMemory := by
  have positive := schedule_pos state memory instruction
  have count := schedule_length state memory instruction
  have inside : instruction.mCycles state - 1 < (instruction.schedule state memory).length := by
    omega
  obtain ⟨last, arrived, kept⟩ := represents.after_cycles inside
  rw [List.getLast?_eq_getElem?, count] at ends
  have finishes : instruction.mCycles state - 1 + 1 = (instruction.schedule state memory).length := by
    omega
  obtain ⟨transactions, fetched, next, outcome, shown, bus, -⟩ := kept.step_fetches ends finishes
  have arrivedNext : cpu.after (instruction.mCycles state) = some next := by
    rw [show instruction.mCycles state = instruction.mCycles state - 1 + 1 by omega]
    exact Cpu.after_call arrived outcome
  have pc : (fetchState (Position.mk instruction state memory (instruction.mCycles state - 1))
      (idle final finalMemory)).pc = final.pc := (State.promoted_frame _ _).2.2.2
  rw [pc] at transactions fetched shown
  exact ⟨last, next, _, arrived, arrivedNext, transactions, fetched, shown, bus⟩

end GbEmulator
