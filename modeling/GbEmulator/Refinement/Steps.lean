import GbEmulator.Emulator.Cpu
import GbEmulator.InstructionSet.Machine
import GbEmulator.Refinement.Discipline
import GbEmulator.Refinement.Registers

/-! What one call of `Step` can do. A running handler suspends again or returns,
and only in the second case an opcode is fetched and dispatched; a finished
handler is resumed all the same. -/
namespace GbEmulator
open CpuRegisters Sm83 Coroutine

/-- What a fault is reported as. -/
def Sm83.Fault.error : Fault → RuntimeError
  | .unimplemented opcode => ⟨"Unimplemented opcode: " ++ formatByte opcode⟩
  | .illegal opcode => ⟨"Illegal opcode: " ++ formatByte opcode⟩

variable {δ : Type u} [AddressBusAddressable δ]

/-- The registers once an opcode has been fetched. -/
def fetchedRegisters (opcode : Byte) (registers : CpuRegisters) : CpuRegisters :=
  (programCounter.postIncrement (instructionRegister.assign opcode registers)).2

theorem visible_fetchedRegisters (opcode : Byte) (registers : CpuRegisters) :
    (fetchedRegisters opcode registers).visible = registers.visible.fetched opcode := by
  rw [fetchedRegisters, Register.assign_full rfl]
  rfl

theorem value_instructionRegister (opcode : Byte) (registers : CpuRegisters) :
    instructionRegister.value (fetchedRegisters opcode registers) = opcode := by
  rw [fetchedRegisters, Register.assign_full rfl]
  rfl

/-- What becomes of a fetched opcode: a fresh handler, or an error from the factory. -/
def Sm83.Decoded.outcome (cpu : Cpu δ) (opcode : Byte) : Decoded → StepOutcome δ
  | .implemented instruction =>
      .returned { cpu with handler := ⟨.suspended instruction.handler, none⟩ }
  | .unimplemented => .threw (Fault.unimplemented opcode).error cpu
  | .illegal => .threw (Fault.illegal opcode).error cpu

theorem Cpu.fetch_dispatch (cpu : Cpu δ) (transactions : List (Transaction Word Byte)) :
    let opcode := cpu.bus.readFromAddress (programCounter.load cpu.registers)
    let registers := fetchedRegisters opcode cpu.registers
    cpu.fetch transactions =
      ⟨transactions ++ [.read (programCounter.load cpu.registers) opcode], some opcode,
        match (decode (instructionRegister.value registers)).opcodeHandler registers with
        | .ok handler => .returned ⟨cpu.bus, registers, handler⟩
        | .error error => .threw error ⟨cpu.bus, registers, cpu.handler⟩⟩ := by
  dsimp only
  rw [← createOpcodeHandlers_decode]
  unfold Cpu.fetch
  dsimp only
  change (match createOpcodeHandlers[(instructionRegister.value (fetchedRegisters
    (cpu.bus.readFromAddress (programCounter.load cpu.registers)) cpu.registers)).toFin]
      (fetchedRegisters (cpu.bus.readFromAddress (programCounter.load cpu.registers))
        cpu.registers) with | .ok handler => _ | .error error => _) = _
  split <;> rename_i dispatched <;> rw [dispatched] <;> rfl

theorem Cpu.fetch_decoded (cpu : Cpu δ) (transactions : List (Transaction Word Byte)) :
    let opcode := cpu.bus.readFromAddress cpu.registers.visible.pc
    cpu.fetch transactions =
      ⟨transactions ++ [.read cpu.registers.visible.pc opcode], some opcode,
        (decode opcode).outcome { cpu with registers := fetchedRegisters opcode cpu.registers }
          opcode⟩ := by
  have dispatched := cpu.fetch_dispatch transactions
  rw [load_programCounter] at dispatched
  dsimp only at dispatched ⊢
  rw [dispatched, value_instructionRegister]
  cases decode (cpu.bus.readFromAddress cpu.registers.visible.pc) with
  | implemented instruction => rfl
  | unimplemented =>
    simp only [Decoded.opcodeHandler, unimplementedOpcode, value_instructionRegister]
    rfl
  | illegal =>
    simp only [Decoded.opcodeHandler, illegalOpcode, value_instructionRegister]
    rfl

/-- A disciplined body suspends disciplined, or returns without a bus access. -/
theorem Disciplined.resumed (disciplined : Disciplined rest) (registers : CpuRegisters)
    (bus : AddressBus δ) :
    let resumed := rest.resume registers bus
    (∃ next, resumed.next = .suspended next ∧ Disciplined next ∧
      resumed.transactions.length ≤ 1) ∨ resumed.next = .returned () ∧ resumed.transactions = [] := by
  have contract := Meets.resume disciplined registers bus
  dsimp only at contract ⊢
  cases position : (rest.resume registers bus).next with
  | suspended next =>
    rw [position] at contract
    exact .inl ⟨next, rfl, contract.2, contract.1⟩
  | returned value =>
    rw [position] at contract
    exact .inr ⟨rfl, contract⟩
  | threw error =>
    rw [position] at contract
    exact contract.elim

theorem Cpu.step_finished {cpu : Cpu δ} (finished : cpu.handler = ⟨.done, none⟩) :
    cpu.step = ⟨[], none, .undefinedBehaviour⟩ := by
  simp only [Cpu.step, finished]

theorem Cpu.step_suspends {cpu : Cpu δ} (running : cpu.handler = ⟨.suspended rest, none⟩)
    (suspends : (rest.resume cpu.registers cpu.bus).next = .suspended next) :
    let resumed := rest.resume cpu.registers cpu.bus
    cpu.step = ⟨resumed.transactions, none,
      .returned ⟨resumed.memory, resumed.state, ⟨.suspended next, none⟩⟩⟩ := by
  simp only [Cpu.step, running, suspends, InstructionHandler.suspendedAt]

def StepOutcome.error : StepOutcome δ → Option RuntimeError
  | .returned _ => none
  | .threw error _ => some error
  | .undefinedBehaviour => none

/-- The processor as a finished instruction leaves it, before the opcode fetch. -/
def Cpu.completed (cpu : Cpu δ) (resumed : Segment CpuRegisters (AddressBus δ) Word Byte) : Cpu δ :=
  ⟨resumed.memory,
    promote (cpu.registers.masterInterruptState == .pending) resumed.state, ⟨.done, none⟩⟩

theorem Cpu.step_completes {cpu : Cpu δ} (running : cpu.handler = ⟨.suspended rest, none⟩)
    (returns : (rest.resume cpu.registers cpu.bus).next = .returned ()) :
    let resumed := rest.resume cpu.registers cpu.bus
    cpu.step = (cpu.completed resumed.toSegment).fetch resumed.transactions := by
  simp only [Cpu.step, running, returns, InstructionHandler.suspendedAt, Cpu.completed]

theorem Cpu.after_succ (cpu : Cpu δ) (count : Nat) :
    cpu.after (count + 1) = (cpu.after count).bind fun last => last.step.outcome.cpu :=
  Transition.after_next Cpu.call count cpu

theorem Cpu.after_call {cpu last next : Cpu δ} (arrived : cpu.after count = some last)
    (continued : last.step.outcome.cpu = some next) : cpu.after (count + 1) = some next := by
  rw [cpu.after_succ, arrived, Option.bind_some, continued]

/-- A fetch only reads. -/
theorem Cpu.fetch_memory {cpu next : Cpu δ} {transactions : List (Transaction Word Byte)}
    (reached : (cpu.fetch transactions).outcome.cpu = some next) (start : AddressBus δ) :
    next.bus = cpu.bus ∧
      (cpu.fetch transactions).transactions.foldl Transaction.perform start =
        transactions.foldl Transaction.perform start := by
  rw [cpu.fetch_decoded transactions] at reached ⊢
  refine ⟨?_, List.foldl_append⟩
  cases decoded : decode (cpu.bus.readFromAddress cpu.registers.visible.pc) <;>
    rw [decoded] at reached <;> obtain rfl := Option.some.inj reached <;> rfl

/-- Memory changes by the accesses a call reports and by nothing else. -/
theorem Cpu.step_memory {cpu next : Cpu δ} (reached : cpu.step.outcome.cpu = some next) :
    next.bus = cpu.step.transactions.foldl Transaction.perform cpu.bus := by
  obtain ⟨bus, registers, ⟨handle, exception⟩⟩ := cpu
  cases exception with
  | some error =>
    obtain rfl := Option.some.inj reached
    rfl
  | none =>
    cases handle with
    | done => cases reached
    | suspended rest =>
      have memory := resume_memory rest registers bus
      unfold Cpu.step at reached ⊢
      dsimp only at reached ⊢
      generalize rest.resume registers bus = resumed at memory reached ⊢
      split at reached
      · obtain rfl := Option.some.inj reached
        exact memory
      · obtain ⟨kept, performed⟩ := Cpu.fetch_memory reached bus
        rw [kept, performed]
        exact memory

end GbEmulator
