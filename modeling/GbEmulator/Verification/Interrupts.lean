import GbEmulator.InstructionSet.Interrupts
import GbEmulator.Refinement.Progress
import GbEmulator.Verification.StubPrograms

/-! The interrupt master state over whole runs: a fold over the instructions that
have been completed. Which instructions these are is read off the fetches. -/
namespace GbEmulator
open CpuRegisters Sm83

/-- What the fetches of a run tell: the opcodes completed, the one in progress, and
the calls made since it was fetched. -/
structure Progress where
  completed : List Byte := []
  current : Byte := 0x00
  steps : Nat := 0
  deriving DecidableEq, Repr

def Progress.observe (progress : Progress) : Option Byte → Progress
  | some opcode => ⟨progress.completed ++ [progress.current], opcode, 0⟩
  | none => { progress with steps := progress.steps + 1 }

/-- A processor starts out in the NOP its constructor put in place. -/
def progressOf (reports : List (StepReport δ)) : Progress :=
  reports.foldl (fun progress report => progress.observe report.fetched) {}

def interruptsAfter (interrupts : MasterInterruptState) (opcode : Byte) : MasterInterruptState :=
  match decode opcode with
  | .implemented instruction => instruction.nextInterrupts interrupts
  | _ => interrupts

theorem interruptsAfter_decoded (decoded : decode opcode = .implemented instruction)
    (interrupts : MasterInterruptState) :
    interruptsAfter interrupts opcode = instruction.nextInterrupts interrupts := by
  simp only [interruptsAfter, decoded]

theorem progressOf_append (reports more : List (StepReport δ)) :
    progressOf (reports ++ more) =
      more.foldl (fun progress report => progress.observe report.fetched) (progressOf reports) :=
  List.foldl_append

/-- The first opcode that is completed later is the one in progress. -/
theorem completed_later (progress : Progress) (reports : List (StepReport δ)) :
    let later := reports.foldl (fun progress report => progress.observe report.fetched) progress
    later.completed = progress.completed ∨
      ∃ rest, later.completed = progress.completed ++ progress.current :: rest := by
  induction reports generalizing progress with
  | nil => exact .inl rfl
  | cons report reports ih =>
    have continued := ih (progress.observe report.fetched)
    simp only [List.foldl_cons]
    cases fetched : report.fetched with
    | none =>
      rw [fetched] at continued
      exact continued
    | some opcode =>
      rw [fetched] at continued
      refine .inr ?_
      rcases continued with same | ⟨rest, more⟩
      · exact ⟨[], same⟩
      · exact ⟨_, more.trans (List.append_assoc _ _ _)⟩

variable {δ : Type u} [AddressBusAddressable δ]

/-- The processor is where its fetches say it is. -/
structure Tracks (cpu : Cpu δ) (progress : Progress) (position : Position (AddressBus δ)) :
    Prop where
  represents : cpu.Represents position.machine
  decoded : decode progress.current = .implemented position.instruction
  steps : position.done = progress.steps
  inside : position.done < position.cycles.length
  interrupts : position.state.interrupts = progress.completed.foldl interruptsAfter .disabled

theorem construct_tracks (bus : AddressBus δ) :
    Tracks (.construct bus) {} ⟨.nop, (Cpu.powerUp {}).visible, bus, 0⟩ where
  represents := ⟨rfl, rfl, handler_pending _ bus .nop⟩
  decoded := (by decide : decode 0x00 = .implemented .nop)
  steps := rfl
  inside := Nat.one_pos
  interrupts := congrArg State.interrupts visible_powerUp

theorem Tracks.step {cpu next : Cpu δ} {progress : Progress} {position : Position (AddressBus δ)}
    (tracks : Tracks cpu progress position) (returned : cpu.step.outcome = .returned next) :
    ∃ position, Tracks next (progress.observe cpu.step.fetched) position := by
  obtain ⟨represents, decoded, steps, inside, interrupts⟩ := tracks
  have runs := List.getElem?_eq_getElem inside
  rcases Nat.lt_or_eq_of_le (Nat.succ_le_of_lt inside) with more | ends
  · obtain ⟨-, fetched, reached, outcome, -, -, kept⟩ := represents.step_shown runs more
    rw [outcome, StepOutcome.returned.injEq] at returned
    rw [fetched, ← returned]
    exact ⟨position.next, kept, decoded, congrArg (· + 1) steps, more, interrupts⟩
  · obtain ⟨-, fetched, reached, -, -, -, ⟨started, decodedNext, outcome, kept⟩ | ⟨error, threw⟩⟩ :=
      represents.step_fetches runs ends
    · rw [outcome, StepOutcome.returned.injEq] at returned
      rw [fetched, ← returned]
      refine ⟨_, kept, decodedNext, rfl, ?_, ?_⟩
      · exact schedule_pos _ _ _
      · rw [Progress.observe, List.foldl_append, List.foldl_cons, List.foldl_nil,
          interruptsAfter_decoded decoded, ← interrupts]
        exact Position.promoted_interrupts runs ends
    · rw [threw] at returned
      cases returned

theorem run_tracks (bus : AddressBus δ) {reached : Cpu δ}
    (arrived : (Cpu.construct bus).after count = some reached)
    (returned : ∀ report ∈ (Cpu.construct bus).run count, ∃ next, report.outcome = .returned next) :
    ∃ position, Tracks reached (progressOf ((Cpu.construct bus).run count)) position := by
  induction count generalizing reached with
  | zero => exact ⟨_, Option.some.inj arrived ▸ construct_tracks bus⟩
  | succ count ih =>
    rw [Cpu.after_succ] at arrived
    obtain ⟨last, arrivedLast, continued⟩ := Option.bind_eq_some_iff.mp arrived
    have runs : (Cpu.construct bus).run (count + 1) = (Cpu.construct bus).run count ++ [last.step] := by
      rw [Cpu.run, Transition.run_append Cpu.call count 1 arrivedLast, Transition.run_one]
      rfl
    rw [runs] at returned
    obtain ⟨position, tracks⟩ := ih arrivedLast fun report member =>
      returned report (List.mem_append_left _ member)
    obtain ⟨next, outcome⟩ := returned last.step (by simp)
    rw [outcome] at continued
    obtain rfl := Option.some.inj continued
    rw [runs, progressOf_append]
    exact tracks.step outcome

theorem Tracks.interruptState {cpu : Cpu δ} {progress : Progress}
    {position : Position (AddressBus δ)} (tracks : Tracks cpu progress position) :
    cpu.registers.masterInterruptState = position.instruction.shownInterrupts
      (progress.completed.foldl interruptsAfter .disabled) progress.steps :=
  calc cpu.registers.masterInterruptState
    _ = position.current.1.interrupts := congrArg State.interrupts tracks.represents.state
    _ = _ := Position.current_interrupts tracks.inside
    _ = _ := by rw [tracks.interrupts, tracks.steps]

theorem interrupts_fold (bus : AddressBus δ) {reached : Cpu δ}
    (arrived : (Cpu.construct bus).after count = some reached)
    (returned : ∀ report ∈ (Cpu.construct bus).run count, ∃ next, report.outcome = .returned next) :
    let progress := progressOf ((Cpu.construct bus).run count)
    (∃ instruction, decode progress.current = .implemented instruction ∧
      reached.registers.masterInterruptState = instruction.shownInterrupts
        (progress.completed.foldl interruptsAfter .disabled) progress.steps) ∧
    ∀ calls next, reached.after calls = some next →
      (∀ report ∈ reached.run calls, ∃ next, report.outcome = .returned next) →
      let later := progressOf ((Cpu.construct bus).run (count + calls))
      progress.steps = 0 → later.steps = 0 →
      later.completed.length = progress.completed.length + 1 →
      reached.registers.masterInterruptState = .pending →
        next.registers.masterInterruptState ≠ .pending := by
  obtain ⟨position, tracks⟩ := run_tracks bus arrived returned
  refine ⟨⟨position.instruction, tracks.decoded, tracks.interruptState⟩, ?_⟩
  intro calls next arrivedNext returnedNext later boundary boundaryLater consecutive pending
  have runs : (Cpu.construct bus).run (count + calls) =
      (Cpu.construct bus).run count ++ reached.run calls :=
    Transition.run_append Cpu.call count calls arrived
  have arrivedLater : (Cpu.construct bus).after (count + calls) = some next := by
    rw [Cpu.after, Transition.after_add, ← Cpu.after, arrived]
    exact arrivedNext
  obtain ⟨positionLater, tracksLater⟩ := run_tracks bus arrivedLater fun report member =>
    (List.mem_append.mp (runs ▸ member)).elim (returned report) (returnedNext report)
  have extended := completed_later (progressOf ((Cpu.construct bus).run count)) (reached.run calls)
  dsimp only at extended
  rw [← progressOf_append, ← runs] at extended
  rw [tracks.interruptState, boundary, shownInterrupts_zero] at pending
  rw [tracksLater.interruptState, boundaryLater, shownInterrupts_zero]
  rcases extended with same | ⟨rest, extended⟩
  · rw [same] at consecutive
    omega
  · rw [extended, List.length_append, List.length_cons] at consecutive
    obtain rfl : rest = [] := List.length_eq_zero_iff.mp (by omega)
    rw [extended, List.foldl_append, pending, List.foldl_cons, List.foldl_nil,
      interruptsAfter_decoded tracks.decoded]
    exact nextInterrupts_pending _

/-- `EI` and the `NOP` behind it: PENDING when `EI` has been completed, for one instruction. -/
theorem interrupts_fold_enable :
    ∃ reached next, (Cpu.construct (stubBus [0xFB])).after 2 = some reached ∧
      reached.registers.masterInterruptState = .pending ∧ reached.after 1 = some next ∧
      next.registers.masterInterruptState ≠ .pending := by
  obtain ⟨reached, arrived⟩ := Option.isSome_iff_exists.mp
    (by decide +kernel : ((Cpu.construct (stubBus [0xFB])).after 2).isSome = true)
  obtain ⟨last, arrivedLast⟩ := Option.isSome_iff_exists.mp
    (by decide +kernel : ((Cpu.construct (stubBus [0xFB])).after 3).isSome = true)
  have arrivedNext : reached.after 1 = some last := by
    rw [Cpu.after, Transition.after_add Cpu.call 2 1, ← Cpu.after, arrived] at arrivedLast
    exact arrivedLast
  have runs : (Cpu.construct (stubBus [0xFB])).run 3 =
      (Cpu.construct (stubBus [0xFB])).run 2 ++ reached.run 1 :=
    Transition.run_append Cpu.call 2 1 arrived
  have returned := reports_returned (by decide +kernel :
    (((Cpu.construct (stubBus [0xFB])).run 3).all fun report => report.outcome.returns) = true)
  rw [runs, List.forall_mem_append] at returned
  have enabling : progressOf ((Cpu.construct (stubBus [0xFB])).run 2) = ⟨[0x00, 0xFB], 0x00, 0⟩ := by
    decide +kernel
  have later : progressOf ((Cpu.construct (stubBus [0xFB])).run 3) =
      ⟨[0x00, 0xFB, 0x00], 0x00, 0⟩ := by
    decide +kernel
  obtain ⟨⟨instruction, -, shown⟩, next⟩ := interrupts_fold (stubBus [0xFB]) arrived returned.1
  rw [enabling, shownInterrupts_zero] at shown
  have pending : reached.registers.masterInterruptState = .pending := shown.trans (by decide)
  refine ⟨reached, last, arrived, pending, arrivedNext, ?_⟩
  apply next 1 last arrivedNext returned.2
  · rw [enabling]
  · rw [later]
  · rw [later, enabling]
    rfl
  · exact pending

end GbEmulator
