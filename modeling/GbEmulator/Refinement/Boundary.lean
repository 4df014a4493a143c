import GbEmulator.Refinement.Simulation

/-! Instruction boundaries: the handler in place is the one the opcode table gives
for the opcode in the instruction register, not yet resumed. -/
namespace GbEmulator
open CpuRegisters Sm83 Coroutine

variable {δ : Type u}

def Cpu.AtBoundary (cpu : Cpu δ) : Prop :=
  createOpcodeHandlers[(instructionRegister.value cpu.registers).toFin] cpu.registers =
    .ok cpu.handler

/-- The state after a call that fetched an opcode and returned. -/
def StepReport.boundary (report : StepReport δ) : Option (Cpu δ) :=
  match report.fetched, report.outcome with
  | some _, .returned cpu => some cpu
  | _, _ => none

theorem atBoundary_iff (cpu : Cpu δ) :
    cpu.AtBoundary ↔ ∃ instruction, decode cpu.registers.visible.opcode = .implemented instruction ∧
      cpu.handler = ⟨.suspended instruction.handler, none⟩ := by
  unfold Cpu.AtBoundary
  rw [createOpcodeHandlers_decode]
  change (decode cpu.registers.visible.opcode).opcodeHandler cpu.registers = _ ↔ _
  cases decode cpu.registers.visible.opcode with
  | implemented instruction =>
    simp only [Decoded.opcodeHandler, started, Except.ok.injEq, Decoded.implemented.injEq,
      exists_eq_left', eq_comm]
  | unimplemented => simp [Decoded.opcodeHandler, unimplementedOpcode]
  | illegal => simp [Decoded.opcodeHandler, illegalOpcode]

theorem visible_powerUp :
    (Cpu.powerUp {}).visible =
      { a := 0x01, f := 0x80, b := 0x00, c := 0x13, d := 0x00, e := 0xD8, h := 0x01, l := 0x4D,
        sp := 0xFFFE, pc := 0x0100, opcode := 0x00, interrupts := .disabled } := by
  decide

theorem construct_decoded (bus : AddressBus δ) :
    decode (Cpu.construct bus).registers.visible.opcode = .implemented .nop :=
  congrArg (fun state => decode state.opcode) visible_powerUp

theorem construct_boundary (bus : AddressBus δ) : (Cpu.construct bus).AtBoundary :=
  (atBoundary_iff _).mpr ⟨.nop, construct_decoded bus, rfl⟩

/-- The handler at a boundary is a function of the opcode. -/
theorem Cpu.AtBoundary.handler_eq {left right : Cpu δ} (leftBoundary : left.AtBoundary)
    (rightBoundary : right.AtBoundary)
    (same : left.registers.visible = right.registers.visible) : left.handler = right.handler := by
  obtain ⟨_, leftDecoded, leftFresh⟩ := (atBoundary_iff left).mp leftBoundary
  obtain ⟨_, rightDecoded, rightFresh⟩ := (atBoundary_iff right).mp rightBoundary
  rw [same, rightDecoded] at leftDecoded
  cases leftDecoded
  rw [leftFresh, rightFresh]

variable [AddressBusAddressable δ]

theorem Cpu.AtBoundary.represents {cpu : Cpu δ} (boundary : cpu.AtBoundary) :
    ∃ instruction, decode cpu.registers.visible.opcode = .implemented instruction ∧
      cpu.Represents (.starting instruction cpu.registers.visible cpu.bus) := by
  obtain ⟨instruction, decoded, fresh⟩ := (atBoundary_iff cpu).mp boundary
  refine ⟨instruction, decoded, rfl, rfl, ?_⟩
  rw [fresh]
  exact handler_pending cpu.registers cpu.bus instruction

theorem Cpu.AtBoundary.starting {cpu : Cpu δ} {instruction : Instruction}
    (boundary : cpu.AtBoundary)
    (decoded : decode cpu.registers.visible.opcode = .implemented instruction) :
    cpu.Represents (.starting instruction cpu.registers.visible cpu.bus) := by
  obtain ⟨same, decodedSame, represents⟩ := boundary.represents
  rw [decoded, Decoded.implemented.injEq] at decodedSame
  exact decodedSame ▸ represents

theorem fetch_boundary {cpu next : Cpu δ} (fetched : (cpu.fetch transactions).boundary = some next) :
    next.AtBoundary := by
  rw [cpu.fetch_decoded transactions] at fetched
  apply (atBoundary_iff next).mpr
  generalize cpu.bus.readFromAddress cpu.registers.visible.pc = opcode at fetched
  have opcode_eq := congrArg State.opcode (visible_fetchedRegisters opcode cpu.registers)
  cases decoded : decode opcode with
  | implemented instruction =>
    rw [decoded] at fetched
    obtain rfl := Option.some.inj fetched
    exact ⟨instruction, by rw [opcode_eq]; exact decoded, rfl⟩
  | unimplemented => rw [decoded] at fetched; cases fetched
  | illegal => rw [decoded] at fetched; cases fetched

theorem Cpu.Represents.step_boundary {cpu next : Cpu δ} {machine : Machine (AddressBus δ)}
    (represents : cpu.Represents machine) (fetched : cpu.step.boundary = some next) :
    next.AtBoundary := by
  obtain ⟨state, memory, cycles⟩ := machine
  obtain ⟨bus, registers, handler⟩ := cpu
  obtain ⟨-, -, pending⟩ := represents
  dsimp only at pending
  cases pending with
  | done => rw [Cpu.step_finished rfl] at fetched; cases fetched
  | @suspended rest disciplined =>
    rcases disciplined.resumed registers bus with ⟨next, suspends, -⟩ | ⟨returns, -⟩
    · rw [Cpu.step_suspends rfl suspends] at fetched
      cases fetched
    · rw [Cpu.step_completes rfl returns] at fetched
      exact fetch_boundary fetched

end GbEmulator
