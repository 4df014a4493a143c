import GbEmulator.Refinement.Instructions
import GbEmulator.Refinement.Steps

/-! `Cpu.step` simulates the machine cycle by cycle. A processor represents a
machine when it shows the machine's state and memory and its handler has the
machine's remaining cycles ahead of it; the scratch registers do not take part. -/
namespace GbEmulator
open CpuRegisters Sm83 Coroutine

/-- What the programmer sees of a call; nothing once its behaviour is undefined. -/
def StepReport.observation (report : StepReport δ) :
    Option (Observation (AddressBus δ) RuntimeError) :=
  match report.outcome with
  | .returned cpu =>
      some ⟨report.transactions, report.fetched, cpu.registers.visible, cpu.bus, none⟩
  | .threw error cpu =>
      some ⟨report.transactions, report.fetched, cpu.registers.visible, cpu.bus, some error⟩
  | .undefinedBehaviour => none

theorem observation_returned {report : StepReport δ}
    (seen : report.observation = some ⟨transactions, fetched, state, memory, none⟩) :
    report.transactions = transactions ∧ report.fetched = fetched ∧
      ∃ next, report.outcome = .returned next ∧ next.registers.visible = state ∧
        next.bus = memory := by
  obtain ⟨_, _, outcome⟩ := report
  cases outcome <;> simp [StepReport.observation] at seen ⊢
  exact ⟨seen.1, seen.2.1, seen.2.2⟩

theorem observation_shown {report : StepReport δ}
    (seen : report.observation = some ⟨transactions, fetched, state, memory, fault⟩) :
    report.transactions = transactions ∧ report.fetched = fetched := by
  obtain ⟨_, _, outcome⟩ := report
  cases outcome <;> simp [StepReport.observation] at seen ⊢ <;> exact ⟨seen.1, seen.2.1⟩

theorem observation_faultless {report : StepReport δ}
    (outcome : report.outcome = .returned cpu)
    (seen : report.observation = some ⟨transactions, fetched, state, memory, fault⟩) :
    fault = none := by
  simp only [StepReport.observation, outcome, Option.some.injEq, Observation.mk.injEq] at seen
  exact seen.2.2.2.2.symm

variable {δ : Type u} [AddressBusAddressable δ]

/-- The cycles a handler has ahead of it; a finished one is left behind by a throw. -/
inductive Pending (registers : CpuRegisters) (bus : AddressBus δ) :
    InstructionHandler → List (Segment State (AddressBus δ) Word Byte) → Prop where
  | done : Pending registers bus ⟨.done, none⟩ []
  | suspended (disciplined : Disciplined rest) :
      Pending registers bus ⟨.suspended rest, none⟩
        ((rest.segments registers bus).map (Segment.map visible))

structure Cpu.Represents (cpu : Cpu δ) (machine : Machine (AddressBus δ)) : Prop where
  state : cpu.registers.visible = machine.state
  memory : cpu.bus = machine.memory
  cycles : Pending cpu.registers cpu.bus cpu.handler machine.cycles

theorem visible_promote (before : MasterInterruptState) (registers : CpuRegisters) :
    (Cpu.promote (before == .pending) registers).visible =
      registers.visible.promoted before := by
  simp only [Cpu.promote, State.promoted, Bool.and_eq_true, beq_iff_eq, value_interrupts]
  split <;> rfl

theorem Disciplined.pending (disciplined : Disciplined rest) (registers : CpuRegisters)
    (bus : AddressBus δ) :
    let resumed := rest.resume registers bus
    let cycles := (rest.segments registers bus).map (Segment.map visible)
    (∃ next remaining, resumed.next = .suspended next ∧ remaining ≠ [] ∧
      cycles = resumed.toSegment.map visible :: remaining ∧
      Pending resumed.state resumed.memory ⟨.suspended next, none⟩ remaining) ∨
    resumed.next = .returned () ∧ cycles = [resumed.toSegment.map visible] := by
  have peeled := rest.segments_resume registers bus
  have position := disciplined.resumed registers bus
  dsimp only at peeled position ⊢
  rcases position with ⟨next, suspends, kept, -⟩ | ⟨returns, -⟩
  · rw [suspends] at peeled
    refine .inl ⟨next, _, suspends, ?_, by rw [peeled, List.map_cons], .suspended kept⟩
    exact fun empty => segments_ne_nil _ _ _ (List.map_eq_nil_iff.mp empty)
  · rw [returns] at peeled
    exact .inr ⟨returns, by rw [peeled, List.map_singleton]⟩

theorem handler_pending (registers : CpuRegisters) (bus : AddressBus δ) (decoded : Instruction) :
    Pending registers bus ⟨.suspended decoded.handler, none⟩
      (decoded.schedule registers.visible bus) := by
  rw [← handler_follows decoded registers bus]
  exact .suspended (handler_disciplined decoded)

theorem fetch_represents (cpu : Cpu δ) (finished : cpu.handler = ⟨.done, none⟩)
    (transactions : List (Transaction Word Byte)) :
    let fetched := Machine.fetch cpu.registers.visible cpu.bus transactions
    (cpu.fetch transactions).observation = some (fetched.1.mapFault Fault.error) ∧
      ∃ next, (cpu.fetch transactions).outcome.cpu = some next ∧ next.Represents fetched.2 := by
  have load : Store.load cpu.bus cpu.registers.visible.pc =
    cpu.bus.readFromAddress cpu.registers.visible.pc := rfl
  rw [cpu.fetch_decoded transactions]
  simp only [Machine.fetch, load]
  generalize cpu.bus.readFromAddress cpu.registers.visible.pc = opcode
  have state := visible_fetchedRegisters opcode cpu.registers
  cases decode opcode with
  | implemented instruction =>
    refine ⟨by rw [← state]; rfl, _, rfl, state, rfl, ?_⟩
    rw [← state]
    exact handler_pending _ cpu.bus instruction
  | unimplemented => exact ⟨by rw [← state]; rfl, _, rfl, state, rfl, by rw [finished]; exact .done⟩
  | illegal => exact ⟨by rw [← state]; rfl, _, rfl, state, rfl, by rw [finished]; exact .done⟩

theorem step_represents {cpu : Cpu δ} {machine : Machine (AddressBus δ)}
    (represents : cpu.Represents machine) :
    cpu.step.observation = machine.step.1.map (Observation.mapFault Fault.error) ∧
      Option.Rel Cpu.Represents cpu.step.outcome.cpu machine.step.2 := by
  obtain ⟨state, memory, cycles⟩ := machine
  obtain ⟨bus, registers, handler⟩ := cpu
  obtain ⟨shown, held, pending⟩ := represents
  dsimp only at shown held pending
  subst shown held
  cases pending with
  | done =>
    rw [Cpu.step_finished rfl]
    exact ⟨rfl, .none⟩
  | @suspended rest disciplined =>
    rcases disciplined.pending registers bus with
      ⟨next, remaining, suspends, more, cycles, kept⟩ | ⟨returns, cycles⟩
    · rw [Cpu.step_suspends rfl suspends, cycles]
      obtain ⟨second, rest, rfl⟩ := List.exists_cons_of_ne_nil more
      exact ⟨rfl, .some ⟨rfl, rfl, kept⟩⟩
    · rw [Cpu.step_completes rfl returns, cycles]
      generalize rest.resume registers bus = resumed
      have promoted : (Cpu.completed ⟨bus, registers, ⟨.suspended rest, none⟩⟩
          resumed.toSegment).registers.visible =
            resumed.state.visible.promoted registers.visible.interrupts :=
        visible_promote _ _
      obtain ⟨shown, next, reached, represents⟩ :=
        fetch_represents (Cpu.completed _ resumed.toSegment) rfl resumed.transactions
      rw [promoted] at shown represents
      refine ⟨shown, ?_⟩
      rw [reached]
      exact .some represents

theorem lockstep : Transition.Lockstep (Cpu.call (δ := δ)) StepReport.observation Machine.step
    (Option.map (Observation.mapFault Fault.error)) Cpu.Represents where
  shown represents := (step_represents represents).1
  next represents := (step_represents represents).2

end GbEmulator
