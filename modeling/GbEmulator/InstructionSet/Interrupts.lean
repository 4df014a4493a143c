import GbEmulator.InstructionSet.Position

/-! The interrupt master state across an instruction: EI is delayed by one
instruction, DI and RETI are not, and RETI takes effect in its third cycle. -/
namespace GbEmulator.Sm83

/-- What a completed instruction makes of the state it started in. -/
def Instruction.nextInterrupts (interrupts : MasterInterruptState) :
    Instruction → MasterInterruptState
  | .enableInterrupts => if interrupts = .disabled then .pending else .enabled
  | .disableInterrupts => .disabled
  | .reti => .enabled
  | _ => if interrupts = .pending then .enabled else interrupts

/-- What is seen of it before the instruction completes. -/
def Instruction.shownInterrupts (interrupts : MasterInterruptState) (steps : Nat) :
    Instruction → MasterInterruptState
  | .reti => if 3 ≤ steps then .enabled else interrupts
  | _ => interrupts

/-- What cycle number `steps` leaves, before the promotion that a fetch makes. -/
def Instruction.cycleInterrupts (interrupts : MasterInterruptState) (steps : Nat) :
    Instruction → MasterInterruptState
  | .enableInterrupts => if interrupts = .disabled then .pending else interrupts
  | .disableInterrupts => .disabled
  | instruction => instruction.shownInterrupts interrupts steps

theorem shownInterrupts_zero (interrupts : MasterInterruptState) (instruction : Instruction) :
    instruction.shownInterrupts interrupts 0 = interrupts := by
  cases instruction <;> rfl

theorem nextInterrupts_pending (instruction : Instruction) :
    instruction.nextInterrupts .pending ≠ .pending := by
  cases instruction <;> simp [Instruction.nextInterrupts]

section
variable {μ : Type u} [Store μ Word Byte] (state : State) (memory : μ)

attribute [local simp] Instruction.schedule fetchImmediate fetchImmediateWord popCycles pushCycles
  returnCycles idle reading writing State.skip

theorem schedule_interrupts (instruction : Instruction)
    (ordinary : instruction ≠ .enableInterrupts ∧ instruction ≠ .disableInterrupts ∧
      instruction ≠ .reti) :
    ∀ cycle ∈ instruction.schedule state memory, cycle.state.interrupts = state.interrupts := by
  cases instruction with
  | enableInterrupts => exact absurd rfl ordinary.1
  | disableInterrupts => exact absurd rfl ordinary.2.1
  | reti => exact absurd rfl ordinary.2.2
  | jump condition => cases taken : state.takes condition <;> simp [taken]
  | jumpRelative condition => cases taken : state.takes condition <;> simp [taken]
  | call condition => cases taken : state.takes condition <;> simp [taken]
  | retIf condition => cases taken : state.holds condition <;> simp [taken]
  | _ => simp

theorem cycle_interrupts {instruction : Instruction} {cycle : Segment State μ Word Byte}
    (runs : (instruction.schedule state memory)[index]? = some cycle) :
    cycle.state.interrupts = instruction.cycleInterrupts state.interrupts (index + 1) := by
  have member := List.mem_of_getElem? runs
  cases instruction with
  | enableInterrupts =>
    obtain rfl := List.mem_singleton.mp member
    rfl
  | disableInterrupts =>
    obtain rfl := List.mem_singleton.mp member
    rfl
  | reti =>
    match index with
    | 0 | 1 | 2 | 3 =>
      obtain rfl := Option.some.inj runs
      rfl
    | index + 4 => simp at runs
  | _ => exact schedule_interrupts state memory _ (by simp) cycle member

/-- Only one-cycle instructions differ from what is shown before completion. -/
theorem cycleInterrupts_shown {instruction : Instruction} (more : index + 1 < instruction.mCycles state)
    (interrupts : MasterInterruptState) (steps : Nat) :
    instruction.cycleInterrupts interrupts steps = instruction.shownInterrupts interrupts steps := by
  cases instruction with
  | enableInterrupts => simp [Instruction.mCycles] at more
  | disableInterrupts => simp [Instruction.mCycles] at more
  | _ => rfl

end

theorem promoted_state (state : State) (before : MasterInterruptState) :
    (state.promoted before).interrupts =
      if before = .pending ∧ state.interrupts = .pending then .enabled else state.interrupts := by
  rw [State.promoted, apply_ite State.interrupts]

section
variable {μ : Type u} [Store μ Word Byte] {position : Position μ}

/-- Before the last cycle the state is the one shown. -/
theorem Position.current_interrupts (inside : position.done < position.cycles.length) :
    position.current.1.interrupts =
      position.instruction.shownInterrupts position.state.interrupts position.done := by
  obtain ⟨instruction, state, memory, done⟩ := position
  cases done with
  | zero => exact (shownInterrupts_zero _ _).symm
  | succ done =>
    have runs : (Position.mk instruction state memory done).cycles[done]? = some _ :=
      List.getElem?_eq_getElem (Nat.lt_of_succ_lt inside)
    have moved : (Position.mk instruction state memory (done + 1)).current = _ :=
      Position.next_current runs
    have more : done + 1 < instruction.mCycles state := by
      rw [← schedule_length state memory]
      exact inside
    rw [moved]
    exact (cycle_interrupts state memory runs).trans (cycleInterrupts_shown state more _ _)

/-- The promotion turns the state of the last cycle into that of the next instruction. -/
theorem Position.promoted_interrupts {cycle : Segment State μ Word Byte}
    (runs : position.cycles[position.done]? = some cycle)
    (ends : position.done + 1 = position.cycles.length) :
    (cycle.state.promoted position.current.1.interrupts).interrupts =
      position.instruction.nextInterrupts position.state.interrupts := by
  have before := position.current_interrupts (by omega)
  have final := cycle_interrupts position.state position.memory runs
  have length : position.cycles.length = position.instruction.mCycles position.state :=
    schedule_length position.state position.memory position.instruction
  rw [promoted_state, before, final]
  obtain ⟨instruction, state, memory, done⟩ := position
  dsimp only at ends length ⊢
  cases instruction with
  | reti =>
    have returned : 3 ≤ done + 1 := by
      simp only [Instruction.mCycles] at length
      omega
    simp [Instruction.cycleInterrupts, Instruction.shownInterrupts, Instruction.nextInterrupts,
      returned]
  | _ => cases state.interrupts <;> rfl

end
end GbEmulator.Sm83
