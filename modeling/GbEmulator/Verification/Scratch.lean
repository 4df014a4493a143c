import GbEmulator.Refinement.Boundary
import GbEmulator.Verification.StubPrograms

/-! WZ and the unused interrupt enable register are invisible: two processors that
differ only there represent one machine, so nothing they do can be told apart. -/
namespace GbEmulator
open CpuRegisters Sm83

def CpuRegisters.DifferInScratch (left right : CpuRegisters) : Prop :=
  right = { left with
    backingWzRegister := right.backingWzRegister
    backingInterruptEnableRegister := right.backingInterruptEnableRegister }

structure Cpu.DifferInScratch (left right : Cpu δ) : Prop where
  bus : left.bus = right.bus
  handler : left.handler = right.handler
  registers : left.registers.DifferInScratch right.registers

/-- The view determines every backing field but those two. -/
theorem differInScratch_iff (left right : CpuRegisters) :
    left.DifferInScratch right ↔ left.visible = right.visible := by
  constructor
  · intro differ
    rw [differ]
    rfl
  · intro same
    have pair (view : State → Word) : view left.visible = view right.visible :=
      congrArg view same
    have af : left.backingAfRegister = right.backingAfRegister :=
      Word.ext_halves (congrArg State.a same) (congrArg State.f same)
    have bc : left.backingBcRegister = right.backingBcRegister :=
      Word.ext_halves (congrArg State.b same) (congrArg State.c same)
    have de : left.backingDeRegister = right.backingDeRegister :=
      Word.ext_halves (congrArg State.d same) (congrArg State.e same)
    have hl : left.backingHlRegister = right.backingHlRegister :=
      Word.ext_halves (congrArg State.h same) (congrArg State.l same)
    have opcode : left.backingInstructionRegister = right.backingInstructionRegister :=
      congrArg State.opcode same
    have interrupts : left.masterInterruptState = right.masterInterruptState :=
      congrArg State.interrupts same
    ext1
    · exact opcode.symm
    · rfl
    · exact af.symm
    · exact bc.symm
    · exact de.symm
    · exact hl.symm
    · rfl
    · exact (pair State.pc).symm
    · exact (pair State.sp).symm
    · exact interrupts.symm

variable {δ : Type u}

/-- The processor with other contents of the two scratch registers. -/
def Cpu.withScratch (cpu : Cpu δ) (wz : Word) (interruptEnable : Byte) : Cpu δ :=
  { cpu with registers := { cpu.registers with
      backingWzRegister := wz, backingInterruptEnableRegister := interruptEnable } }

theorem Cpu.withScratch_differs (cpu : Cpu δ) (wz : Word) (interruptEnable : Byte) :
    cpu.DifferInScratch (cpu.withScratch wz interruptEnable) :=
  ⟨rfl, rfl, rfl⟩

theorem boundary_seen {left right : StepReport δ} (same : left.observation = right.observation) :
    Option.Rel (fun left right => left.registers.visible = right.registers.visible ∧
      left.bus = right.bus) left.boundary right.boundary := by
  obtain ⟨leftTransactions, leftFetched, leftOutcome⟩ := left
  obtain ⟨rightTransactions, rightFetched, rightOutcome⟩ := right
  cases leftOutcome with
  | returned leftCpu =>
    cases rightOutcome with
    | returned rightCpu =>
      simp only [StepReport.observation, Option.some.injEq, Observation.mk.injEq] at same
      obtain ⟨-, rfl, state, memory, -⟩ := same
      cases leftFetched with
      | none => exact .none
      | some opcode => exact .some ⟨state, memory⟩
    | threw error rightCpu => simp [StepReport.observation] at same
    | undefinedBehaviour => simp [StepReport.observation] at same
  | threw error leftCpu =>
    cases rightOutcome with
    | returned rightCpu => simp [StepReport.observation] at same
    | threw error rightCpu => cases leftFetched <;> cases rightFetched <;> exact .none
    | undefinedBehaviour => simp [StepReport.observation] at same
  | undefinedBehaviour =>
    cases rightOutcome with
    | returned rightCpu => simp [StepReport.observation] at same
    | threw error rightCpu => simp [StepReport.observation] at same
    | undefinedBehaviour => cases leftFetched <;> cases rightFetched <;> exact .none

section
variable [AddressBusAddressable δ]

/-- Two processors behind one machine reach their next boundary together, with the
same fresh handler. -/
theorem boundary_differ {left right : Cpu δ} {machine : Machine (AddressBus δ)}
    (leftRepresents : left.Represents machine) (rightRepresents : right.Represents machine) :
    Option.Rel Cpu.DifferInScratch left.step.boundary right.step.boundary := by
  have seen := boundary_seen
    ((step_represents leftRepresents).1.trans (step_represents rightRepresents).1.symm)
  have leftBoundary (next : Cpu δ) (fetched : left.step.boundary = some next) :
      next.AtBoundary := leftRepresents.step_boundary fetched
  have rightBoundary (next : Cpu δ) (fetched : right.step.boundary = some next) :
      next.AtBoundary := rightRepresents.step_boundary fetched
  generalize left.step.boundary = leftNext at seen leftBoundary ⊢
  generalize right.step.boundary = rightNext at seen rightBoundary ⊢
  cases seen with
  | none => exact .none
  | some same =>
    exact .some ⟨same.2, (leftBoundary _ rfl).handler_eq (rightBoundary _ rfl) same.1,
      (differInScratch_iff _ _).mpr same.1⟩

theorem same_machine {left right : Cpu δ} (boundary : left.AtBoundary)
    (differ : left.DifferInScratch right) :
    ∃ machine, left.Represents machine ∧ right.Represents machine := by
  obtain ⟨instruction, decoded, fresh⟩ := (atBoundary_iff left).mp boundary
  have state := (differInScratch_iff _ _).mp differ.registers
  refine ⟨.starting instruction left.registers.visible left.bus, ⟨rfl, rfl, ?_⟩,
    ⟨state.symm, differ.bus.symm, ?_⟩⟩
  · rw [fresh]
    exact handler_pending left.registers left.bus instruction
  · rw [← differ.handler, fresh, ← differ.bus, state]
    exact handler_pending right.registers left.bus instruction

theorem scratch_invisible {left right : Cpu δ} (boundary : left.AtBoundary)
    (differ : left.DifferInScratch right) (count : Nat) :
    (left.run count).map StepReport.observation = (right.run count).map StepReport.observation ∧
      ∀ index : Nat, Option.Rel (Option.Rel Cpu.DifferInScratch)
        ((left.run count)[index]?.map StepReport.boundary)
        ((right.run count)[index]?.map StepReport.boundary) := by
  obtain ⟨machine, leftRepresents, rightRepresents⟩ := same_machine boundary differ
  refine ⟨(lockstep.run leftRepresents count).trans (lockstep.run rightRepresents count).symm,
    fun index => ?_⟩
  have leftReached := lockstep.after leftRepresents index
  have rightReached := lockstep.after rightRepresents index
  simp only [Cpu.run, Transition.run_getElem?]
  split
  · generalize Transition.after Cpu.call index left = leftState at leftReached ⊢
    generalize Transition.after Cpu.call index right = rightState at rightReached ⊢
    generalize Transition.after Machine.step index machine = image at leftReached rightReached
    cases leftReached with
    | none => cases rightReached; exact .none
    | some leftKept =>
      cases rightReached with
      | some rightKept => exact .some (boundary_differ leftKept rightKept)
  · exact .none

/-- `JP 0x0200` collects its target in WZ, whatever was there. -/
theorem scratch_invisible_jump :
    let cpu := Cpu.construct (stubBus [0xC3, 0x00, 0x02])
    let other := cpu.withScratch 0x1234 0xFF
    (cpu.after 1).map (fun cpu => cpu.registers.backingWzRegister) = some 0x0000 ∧
      (other.after 1).map (fun cpu => cpu.registers.backingWzRegister) = some 0x1234 ∧
      (other.after 4).map (fun cpu => cpu.registers.backingWzRegister) = some 0x0200 ∧
      (cpu.run 9).map StepReport.observation = (other.run 9).map StepReport.observation := by
  intro cpu other
  refine ⟨by decide +kernel, by decide +kernel, by decide +kernel, ?_⟩
  exact (scratch_invisible (construct_boundary _) (Cpu.withScratch_differs cpu 0x1234 0xFF) 9).1

end
end GbEmulator
