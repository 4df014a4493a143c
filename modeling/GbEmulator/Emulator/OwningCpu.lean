import GbEmulator.Emulator.InstructionHandler

/-! `cpu.cpp` with the objects that own its coroutines: `m_handler`, the object that a
factory returns, and the temporary in `get_return_object`. -/
namespace GbEmulator
open CpuRegisters

inductive CpuObject where
  | handler
  | returned
  | temporary
  deriving DecidableEq, Repr

structure OwningCpu (δ : Type u) where
  bus : AddressBus δ
  registers : CpuRegisters
  objects : HandlerObjects CpuObject

inductive OwningOutcome (δ : Type u) where
  | returned (cpu : OwningCpu δ)
  | threw (error : RuntimeError) (cpu : OwningCpu δ)
  | undefinedBehaviour (misuse : HandleMisuse)

structure OwningReport (δ : Type u) where
  transactions : List (Transaction Word Byte)
  fetched : Option Byte
  outcome : OwningOutcome δ

def OwningOutcome.cpu : OwningOutcome δ → Option (OwningCpu δ)
  | .returned cpu => some cpu
  | .threw _ cpu => some cpu
  | .undefinedBehaviour _ => none

/-- `m_handler = m_opcodeHandlers[…].handler(…)`, with the end of the full expression. -/
def HandlerObjects.assignCall (frame : InstructionHandler) (objects : HandlerObjects CpuObject) :
    Except HandleMisuse (HandlerObjects CpuObject) := do
  let objects ← objects.call .returned .temporary frame
  let objects ← objects.moveAssign .handler .returned
  objects.destruct .returned

namespace OwningCpu
variable {δ : Type u} [AddressBusAddressable δ]

/-- `m_handler` is the object that the factory of the first opcode returns. -/
def construct (bus : AddressBus δ) : Except HandleMisuse (OwningCpu δ) :=
  (HandlerObjects.call .handler .temporary ⟨.suspended executeNoop, none⟩ {}).map fun objects =>
    ⟨bus, Cpu.powerUp {}, objects⟩

def fetch (cpu : OwningCpu δ) (transactions : List (Transaction Word Byte)) : OwningReport δ :=
  let address := programCounter.load cpu.registers
  let instruction := cpu.bus.readFromAddress address
  let registers := instructionRegister.assign instruction cpu.registers
  let registers := (programCounter.postIncrement registers).2
  let transactions := transactions ++ [.read address instruction]
  match createOpcodeHandlers[(instructionRegister.value registers).toFin] registers with
  | .error error =>
      ⟨transactions, some instruction, .threw error ⟨cpu.bus, registers, cpu.objects⟩⟩
  | .ok frame =>
    match cpu.objects.assignCall frame with
    | .error misuse => ⟨transactions, some instruction, .undefinedBehaviour misuse⟩
    | .ok objects =>
        ⟨transactions, some instruction, .returned ⟨cpu.bus, registers, objects⟩⟩

/-- `std::rethrow_exception(m_handler.Exception())`. -/
def rethrow (cpu : OwningCpu δ) : OwningOutcome δ :=
  match cpu.objects.exception .handler with
  | .error misuse => .undefinedBehaviour misuse
  | .ok none => .undefinedBehaviour .nullException
  | .ok (some error) => .threw error cpu

def step (cpu : OwningCpu δ) : OwningReport δ :=
  match cpu.objects.hasException .handler with
  | .error misuse => ⟨[], none, .undefinedBehaviour misuse⟩
  | .ok true => ⟨[], none, cpu.rethrow⟩
  | .ok false =>
    let interruptEnableWasPending := cpu.registers.masterInterruptState == .pending
    match cpu.objects.resume .handler cpu.registers cpu.bus with
    | .error misuse => ⟨[], none, .undefinedBehaviour misuse⟩
    | .ok (resumed, objects) =>
      match objects.isDone .handler with
      | .error misuse => ⟨resumed.transactions, none, .undefinedBehaviour misuse⟩
      | .ok false =>
          ⟨resumed.transactions, none, .returned ⟨resumed.memory, resumed.state, objects⟩⟩
      | .ok true =>
          fetch ⟨resumed.memory, Cpu.promote interruptEnableWasPending resumed.state, objects⟩
            resumed.transactions

def call (cpu : OwningCpu δ) : OwningReport δ × Option (OwningCpu δ) :=
  (cpu.step, cpu.step.outcome.cpu)

def run (count : Nat) (cpu : OwningCpu δ) : List (OwningReport δ) := Transition.run call count cpu

def after (count : Nat) (cpu : OwningCpu δ) : Option (OwningCpu δ) :=
  Transition.after call count cpu

/-- `~Cpu() = default`, as far as it concerns coroutines. -/
def destruct (cpu : OwningCpu δ) : Except HandleMisuse (HandlerObjects CpuObject) :=
  cpu.objects.destruct .handler

end OwningCpu
end GbEmulator
