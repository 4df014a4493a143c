import GbEmulator.InstructionSet.Subroutines
import GbEmulator.Verification.Loops
import GbEmulator.Verification.Stack
import GbEmulator.Verification.StubPrograms

/-! Subroutines in the program that the processor executes, with the stack in work memory. -/
namespace GbEmulator
open CpuRegisters Sm83

/-- Work memory as the place of the stack. -/
def workStack : StackRegion := ⟨0xC000, 0xE000, by decide, by decide⟩

section
variable {δ : Type u} [AddressBusAddressable δ]

end

/-! A subroutine that saves BC, calls another, and restores BC into DE, over a word of its
caller. -/
namespace NestedCalls

/-- `CALL` at 0x0100; `PUSH BC`, `INC B`, `CALL`, `POP DE` and `RET` at 0x0105; `RET` at 0x010C. -/
def program : List Byte :=
  [0xCD, 0x05, 0x01, 0x00, 0x00, 0xC5, 0x04, 0xCD, 0x0C, 0x01, 0xD1, 0xC9, 0xC9]

/-- 0x1234 on a stack that begins a few bytes into work memory. -/
def bus : AddressBus StubDevice :=
  ((stubBus program).writeToAddress 0xC006 0x34).writeToAddress 0xC007 0x12

def cpu : Cpu StubDevice :=
  .about bus { Cpu.powerUp {} with
    backingInstructionRegister := 0xCD
    backingProgramCounterRegister := 0x0101
    backingStackPointerRegister := 0xC006 } (.call none)

def entered : Configuration (AddressBus StubDevice) :=
  (Instruction.call none).execute cpu.configuration
def saved : Configuration (AddressBus StubDevice) := (Instruction.push .bc).execute entered
def counted : Configuration (AddressBus StubDevice) := (Instruction.increment .b).execute saved
def nested : Configuration (AddressBus StubDevice) := (Instruction.call none).execute counted
def resumed : Configuration (AddressBus StubDevice) := Instruction.ret.execute nested
def restored : Configuration (AddressBus StubDevice) := (Instruction.pop .de).execute resumed

end NestedCalls

end GbEmulator
