import GbEmulator.Handlers.OpcodeHandlerMap
import GbEmulator.Transition.Runs

/-! `Cpu`. A step reports what it did on the bus, the opcode it fetched, and one
of three outcomes: it returned, it threw, or it resumed a finished coroutine,
which has no defined behaviour. -/
namespace GbEmulator
open CpuRegisters

structure Cpu (δ : Type u) where
  bus : AddressBus δ
  registers : CpuRegisters
  handler : InstructionHandler

inductive StepOutcome (δ : Type u) where
  | returned (cpu : Cpu δ)
  | threw (error : RuntimeError) (cpu : Cpu δ)
  | undefinedBehaviour

structure StepReport (δ : Type u) where
  transactions : List (Transaction Word Byte)
  fetched : Option Byte
  outcome : StepOutcome δ

/-- The state the caller finds after the call, also when it caught an error. -/
def StepOutcome.cpu : StepOutcome δ → Option (Cpu δ)
  | .returned cpu => some cpu
  | .threw _ cpu => some cpu
  | .undefinedBehaviour => none

namespace Cpu
variable {δ : Type u} [AddressBusAddressable δ]

def powerUp (registers : CpuRegisters) : CpuRegisters :=
  let registers := instructionRegister.assign 0x00 registers
  let registers := accumulator.assign 0x01 registers
  let registers := flags.assign CpuFlags.zero registers
  let registers := programCounter.assign 0x0100 registers
  let registers := stackPointer.assign 0xFFFE registers
  let registers := bcRegister.assign 0x0013 registers
  let registers := deRegister.assign 0x00D8 registers
  let registers := hlRegister.assign 0x014D registers
  wzRegister.assign 0x0000 registers

/-- The first handler is the coroutine of `m_opcodeHandlers[0x00]`. -/
def construct (bus : AddressBus δ) : Cpu δ :=
  ⟨bus, powerUp {}, ⟨.suspended executeNoop, none⟩⟩

def promote (interruptEnableWasPending : Bool) (registers : CpuRegisters) : CpuRegisters :=
  if interruptEnableWasPending && registers.masterInterruptState == .pending then
    { registers with masterInterruptState := .enabled }
  else registers

/-- `Step()` from the point where the handler is done: promotion, opcode fetch,
and the factory call that replaces `m_handler` unless it throws. -/
def fetch (cpu : Cpu δ) (transactions : List (Transaction Word Byte)) : StepReport δ :=
  let address := programCounter.load cpu.registers
  let instruction := cpu.bus.readFromAddress address
  let registers := instructionRegister.assign instruction cpu.registers
  let registers := (programCounter.postIncrement registers).2
  let transactions := transactions ++ [.read address instruction]
  match createOpcodeHandlers[(instructionRegister.value registers).toFin] registers with
  | .ok handler => ⟨transactions, some instruction, .returned ⟨cpu.bus, registers, handler⟩⟩
  | .error error =>
      ⟨transactions, some instruction, .threw error ⟨cpu.bus, registers, cpu.handler⟩⟩

def step (cpu : Cpu δ) : StepReport δ :=
  match cpu.handler.exception with
  | some error => ⟨[], none, .threw error cpu⟩
  | none =>
    let interruptEnableWasPending := cpu.registers.masterInterruptState == .pending
    match cpu.handler.handle with
    | .done => ⟨[], none, .undefinedBehaviour⟩
    | .suspended rest =>
      let resumed := rest.resume cpu.registers cpu.bus
      let handler := cpu.handler.suspendedAt resumed.next
      match handler.handle with
      | .suspended _ =>
          ⟨resumed.transactions, none, .returned ⟨resumed.memory, resumed.state, handler⟩⟩
      | .done =>
          fetch ⟨resumed.memory, promote interruptEnableWasPending resumed.state, handler⟩
            resumed.transactions

/-- The caller catches what is thrown and may call again; there is no call after
undefined behaviour. -/
def call (cpu : Cpu δ) : StepReport δ × Option (Cpu δ) := (cpu.step, cpu.step.outcome.cpu)

/-- The reports of `count` successive calls. -/
def run (count : Nat) (cpu : Cpu δ) : List (StepReport δ) := Transition.run call count cpu

/-- The state that call number `count` is made in. -/
def after (count : Nat) (cpu : Cpu δ) : Option (Cpu δ) := Transition.after call count cpu

end Cpu
end GbEmulator
