import GbEmulator.InstructionSet.Completion
import GbEmulator.InstructionSet.Halting
import GbEmulator.InstructionSet.Interrupts
import GbEmulator.Transition.Timed

/-! Whole instructions. Between two of them there is only the programmer's state, with
the next opcode already fetched, and the memory; the cycles are counted but not seen. -/
namespace GbEmulator.Sm83

/-- Between two instructions. -/
@[ext] structure Configuration (μ : Type u) where
  state : State
  memory : μ

/-- The instruction that comes next. -/
def Configuration.decoded (configuration : Configuration μ) : Decoded :=
  decode configuration.state.opcode

section
variable {μ : Type u} [Store μ Word Byte]

/-- A whole instruction, with the fetch of the opcode after it. -/
def Instruction.execute (instruction : Instruction) (before : Configuration μ) : Configuration μ :=
  let (final, memory) := instruction.finished before.state before.memory
  let interrupts := instruction.nextInterrupts before.state.interrupts
  ⟨{ final with interrupts := interrupts }.fetched (Store.load memory final.pc), memory⟩

namespace Configuration

/-- One instruction and its machine cycles; `none` where there is no instruction. -/
def next (configuration : Configuration μ) : Option (Nat × Configuration μ) :=
  match configuration.decoded with
  | .implemented instruction =>
      some (instruction.mCycles configuration.state, instruction.execute configuration)
  | .unimplemented => none
  | .illegal => none

/-- Whole instructions that take `cycles` machine cycles together. -/
abbrev Executes (configuration : Configuration μ) (cycles : Nat) (last : Configuration μ) : Prop :=
  Transition.Timed next configuration cycles last

/-- The machine that is about to execute what has been fetched. -/
def machine (configuration : Configuration μ) : Machine μ :=
  ⟨configuration.state, configuration.memory,
    configuration.decoded.schedule configuration.state configuration.memory⟩

variable {configuration : Configuration μ} {instruction : Instruction}

theorem next_implemented (decoded : configuration.decoded = .implemented instruction) :
    configuration.next =
      some (instruction.mCycles configuration.state, instruction.execute configuration) := by
  simp only [next, decoded]

theorem next_fault {fault : Fault}
    (faulty : configuration.decoded.fault configuration.state.opcode = some fault) :
    configuration.next = none := by
  unfold next
  cases decoded : configuration.decoded with
  | implemented instruction => rw [decoded] at faulty; cases faulty
  | unimplemented => rfl
  | illegal => rfl

omit [Store μ Word Byte] in
/-- Every configuration has an instruction to execute or a fault to show. -/
theorem decoded_cases (configuration : Configuration μ) :
    (∃ instruction, configuration.decoded = .implemented instruction) ∨
      ∃ fault, configuration.decoded.fault configuration.state.opcode = some fault := by
  cases decoded : configuration.decoded with
  | implemented instruction => exact .inl ⟨instruction, rfl⟩
  | unimplemented => exact .inr ⟨_, rfl⟩
  | illegal => exact .inr ⟨_, rfl⟩

theorem machine_starting (decoded : configuration.decoded = .implemented instruction) :
    configuration.machine =
      .starting instruction configuration.state configuration.memory := by
  simp only [machine, decoded]
  rfl

end Configuration

namespace Position
variable (position : Position μ)

theorem cycles_split (inside : position.done < position.cycles.length) :
    position.cycles.take position.done ++ position.cycles[position.done] ::
      position.cycles.drop (position.done + 1) = position.cycles := by
  rw [← List.drop_eq_getElem_cons inside, List.take_append_drop]

/-- As many steps into an instruction as it says. -/
theorem arrives (inside : position.done < position.cycles.length) :
    Transition.after Machine.step position.done
      (.starting position.instruction position.state position.memory) = some position.machine := by
  have arrived := Machine.after_cycles (position.cycles.take position.done)
    position.cycles[position.done] (position.cycles.drop (position.done + 1)) position.state
    position.memory
  rw [position.cycles_split inside, List.length_take, Nat.min_eq_left (Nat.le_of_lt inside),
    ← List.drop_eq_getElem_cons inside] at arrived
  exact arrived

theorem halt_inside (inside : position.done < position.cycles.length) (calls : Nat) :
    (Machine.starting position.instruction position.state position.memory).halt
      (position.done + calls) = position.machine.halt calls := by
  have halts := halt_before calls (position.cycles.take position.done)
    position.cycles[position.done] (position.cycles.drop (position.done + 1)) position.state
    position.memory
  rw [position.cycles_split inside, List.length_take, Nat.min_eq_left (Nat.le_of_lt inside),
    ← List.drop_eq_getElem_cons inside] at halts
  exact halts

end Position

theorem promoted_eq (state : State) (before : MasterInterruptState) :
    state.promoted before = { state with interrupts := (state.promoted before).interrupts } := by
  unfold State.promoted
  split <;> rfl

/-- The last cycle of the instruction a configuration has ahead of it. -/
def Configuration.lastPosition (configuration : Configuration μ) (instruction : Instruction) :
    Position μ :=
  ⟨instruction, configuration.state, configuration.memory,
    instruction.mCycles configuration.state - 1⟩

section
variable (configuration : Configuration μ) (instruction : Instruction)

theorem mCycles_pos : 0 < instruction.mCycles configuration.state := by
  rw [← schedule_length configuration.state configuration.memory]
  exact schedule_pos _ _ _

theorem lastPosition_ends :
    (configuration.lastPosition instruction).done + 1 =
      (configuration.lastPosition instruction).cycles.length := by
  have positive := mCycles_pos configuration instruction
  have count := schedule_length configuration.state configuration.memory instruction
  change instruction.mCycles configuration.state - 1 + 1 =
    (instruction.schedule configuration.state configuration.memory).length
  omega

/-- It shows the fetch of the next opcode. -/
theorem lastPosition_step :
    let next := instruction.execute configuration
    let address := (instruction.finished configuration.state configuration.memory).1.pc
    (configuration.lastPosition instruction).machine.step =
      (some ⟨[.read address next.state.opcode], some next.state.opcode, next.state, next.memory,
        next.decoded.fault next.state.opcode⟩, some next.machine) := by
  obtain ⟨state, memory⟩ := configuration
  have final := instruction.finished_last state memory
  rw [List.getLast?_eq_getElem?, schedule_length] at final
  have runs : (Configuration.lastPosition ⟨state, memory⟩ instruction).cycles[
      (Configuration.lastPosition ⟨state, memory⟩ instruction).done]? = _ := final
  have ends := lastPosition_ends ⟨state, memory⟩ instruction
  have promoted := Position.promoted_interrupts runs ends
  rw [Position.step_fetches runs ends, promoted_eq, promoted]
  rfl

end

theorem Configuration.after_instruction {configuration : Configuration μ} {instruction : Instruction}
    (decoded : configuration.decoded = .implemented instruction) :
    Transition.after Machine.step (instruction.mCycles configuration.state) configuration.machine =
      some (instruction.execute configuration).machine := by
  have ends := lastPosition_ends configuration instruction
  have positive := mCycles_pos configuration instruction
  have arrived := (configuration.lastPosition instruction).arrives (by omega)
  rw [show instruction.mCycles configuration.state =
      instruction.mCycles configuration.state - 1 + 1 by omega, Transition.after_next,
    machine_starting decoded]
  refine (congrArg (Option.bind · _) arrived).trans ?_
  exact congrArg Prod.snd (lastPosition_step configuration instruction)

/-- Where a machine is that was started between two instructions. -/
inductive Configuration.Inside (configuration : Configuration μ) : Nat → Machine μ → Prop where
  | executing {instruction : Instruction} {done : Nat}
      (decoded : configuration.decoded = .implemented instruction)
      (inside : done < instruction.mCycles configuration.state) :
      configuration.Inside done
        (Position.mk instruction configuration.state configuration.memory done).machine
  | halted {fault : Fault}
      (faulty : configuration.decoded.fault configuration.state.opcode = some fault) :
      configuration.Inside 0 configuration.machine

namespace Configuration
variable {configuration last : Configuration μ} {cycles : Nat}

theorem machine_fault {fault : Fault}
    (faulty : configuration.decoded.fault configuration.state.opcode = some fault) :
    configuration.machine = ⟨configuration.state, configuration.memory, []⟩ := by
  unfold machine
  cases decoded : configuration.decoded with
  | implemented instruction => rw [decoded] at faulty; cases faulty
  | unimplemented => rfl
  | illegal => rfl

/-- Whole instructions are as many steps of the machine as their cycles. -/
theorem Executes.after (executes : configuration.Executes cycles last) :
    Transition.after Machine.step cycles configuration.machine = some last.machine := by
  induction executes with
  | refl => rfl
  | @step state time following more last taken rest ih =>
    rcases state.decoded_cases with ⟨instruction, decoded⟩ | ⟨fault, faulty⟩
    · rw [next_implemented decoded] at taken
      cases taken
      rw [Transition.after_add, after_instruction decoded]
      exact ih
    · rw [next_fault faulty] at taken
      cases taken

/-- Every step of the machine is inside an instruction that whole instructions lead to. -/
theorem after_inside {machine : Machine μ}
    (arrived : Transition.after Machine.step cycles configuration.machine = some machine) :
    ∃ earlier reached done, configuration.Executes earlier reached ∧ cycles = earlier + done ∧
      reached.Inside done machine := by
  induction cycles using Nat.strongRecOn generalizing configuration with
  | ind cycles ih =>
    rcases configuration.decoded_cases with ⟨instruction, decoded⟩ | ⟨fault, faulty⟩
    · by_cases inside : cycles < instruction.mCycles configuration.state
      · refine ⟨0, configuration, cycles, .refl _, (Nat.zero_add _).symm, ?_⟩
        have reached := (Position.mk instruction configuration.state configuration.memory
          cycles).arrives (Nat.lt_of_lt_of_eq inside (schedule_length _ _ _).symm)
        rw [machine_starting decoded] at arrived
        obtain rfl := Option.some.inj (reached.symm.trans arrived)
        exact .executing decoded inside
      · obtain ⟨later, rfl⟩ := Nat.exists_eq_add_of_le (Nat.le_of_not_lt inside)
        have positive := mCycles_pos configuration instruction
        rw [Transition.after_add, after_instruction decoded, Option.bind_some] at arrived
        obtain ⟨earlier, reached, done, executes, rfl, within⟩ := ih later (by omega) arrived
        exact ⟨_, reached, done, .step (next_implemented decoded) executes,
          (Nat.add_assoc _ _ _).symm, within⟩
    · cases cycles with
      | zero =>
        obtain rfl := Option.some.inj arrived
        exact ⟨0, configuration, 0, .refl _, rfl, .halted faulty⟩
      | succ cycles =>
        rw [machine_fault faulty] at arrived
        cases arrived

/-- A run over a whole instruction stops if there is none to follow. -/
theorem halt_instruction {instruction : Instruction}
    (decoded : configuration.decoded = .implemented instruction) (calls : Nat) :
    let next := instruction.execute configuration
    configuration.machine.halt (instruction.mCycles configuration.state + calls) =
      match next.decoded.fault next.state.opcode with
      | some fault => some ⟨fault, next.state, next.memory⟩
      | none => next.machine.halt calls := by
  intro next
  have ends := lastPosition_ends configuration instruction
  have positive := mCycles_pos configuration instruction
  have stepped := lastPosition_step configuration instruction
  rw [show instruction.mCycles configuration.state + calls =
      (configuration.lastPosition instruction).done + (calls + 1) from
        by change _ = instruction.mCycles configuration.state - 1 + _; omega,
    machine_starting decoded]
  refine ((configuration.lastPosition instruction).halt_inside (by omega) (calls + 1)).trans ?_
  cases faulty : next.decoded.fault next.state.opcode with
  | none => exact halt_continues calls stepped faulty
  | some fault => exact halt_stops calls stepped faulty

theorem halt_short {instruction : Instruction}
    (decoded : configuration.decoded = .implemented instruction)
    (short : calls < instruction.mCycles configuration.state) :
    configuration.machine.halt calls = none := by
  cases halts : configuration.machine.halt calls with
  | none => rfl
  | some halt =>
    have ends := lastPosition_ends configuration instruction
    have later := halt_mono calls halts (instruction.mCycles configuration.state - 1 - calls)
    rw [show calls + (instruction.mCycles configuration.state - 1 - calls) =
        (configuration.lastPosition instruction).done + 0 from
          by change _ = instruction.mCycles configuration.state - 1; omega,
      machine_starting decoded] at later
    exact later.symm.trans ((configuration.lastPosition instruction).halt_inside (by omega) 0)

/-- Where whole instructions lead to an opcode without one. -/
structure HaltsAt (configuration : Configuration μ) (cycles : Nat) (halt : Halt μ) : Prop where
  executes : configuration.Executes cycles ⟨halt.state, halt.memory⟩
  fault : (decode halt.state.opcode).fault halt.state.opcode = some halt.fault

/-- A run of single cycles halts exactly where whole instructions do. -/
theorem halt_iff {instruction : Instruction}
    (decoded : configuration.decoded = .implemented instruction) {calls : Nat} {halt : Halt μ} :
    configuration.machine.halt calls = some halt ↔
      ∃ cycles, cycles ≤ calls ∧ configuration.HaltsAt cycles halt := by
  constructor
  · intro halts
    induction calls using Nat.strongRecOn generalizing configuration instruction with
    | ind calls ih =>
      by_cases short : calls < instruction.mCycles configuration.state
      · rw [halt_short decoded short] at halts
        cases halts
      · obtain ⟨later, rfl⟩ := Nat.exists_eq_add_of_le (Nat.le_of_not_lt short)
        have positive := mCycles_pos configuration instruction
        have taken := next_implemented decoded
        rw [halt_instruction decoded] at halts
        rcases (instruction.execute configuration).decoded_cases with
          ⟨following, decodedNext⟩ | ⟨fault, faulty⟩
        · rw [decodedNext] at halts
          obtain ⟨cycles, bound, executes, faulty⟩ := ih later (by omega) decodedNext halts
          exact ⟨_, Nat.add_le_add_left bound _, .step taken executes, faulty⟩
        · rw [faulty] at halts
          obtain rfl := Option.some.inj halts
          exact ⟨_, Nat.le_add_right _ later, .single taken, faulty⟩
  · rintro ⟨cycles, bound, executes, faulty⟩
    obtain ⟨more, rfl⟩ := Nat.exists_eq_add_of_le bound
    refine halt_mono cycles ?_ more
    clear bound
    generalize reached : Configuration.mk halt.state halt.memory = last at executes
    induction executes generalizing instruction with
    | refl =>
      subst reached
      rw [show decode halt.state.opcode = .implemented instruction from decoded] at faulty
      cases faulty
    | @step state time following rest last taken run ih =>
      rw [next_implemented decoded] at taken
      cases taken
      rw [halt_instruction decoded]
      rcases (instruction.execute state).decoded_cases with
        ⟨after, decodedNext⟩ | ⟨fault, faultyNext⟩
      · rw [decodedNext]
        exact ih decodedNext reached
      · obtain ⟨-, rfl⟩ := run.stuck (next_fault faultyNext)
        rw [← reached] at faultyNext ⊢
        rw [faultyNext]
        exact congrArg some (congrArg (Halt.mk · _ _)
          (Option.some.inj (faultyNext.symm.trans faulty)))

end Configuration
end
end GbEmulator.Sm83
