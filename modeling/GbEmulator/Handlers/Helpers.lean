import GbEmulator.Emulator.CpuRegisters
import GbEmulator.Emulator.AddressBus
import GbEmulator.Utility.Arithmetic

/-! What the instruction handlers share: the coroutine type, the register
accessors of `register_io_helpers.h`, the flag helpers and the predicates. -/
namespace GbEmulator
open CpuRegisters UtilityLib

structure RuntimeError where
  what : String
  deriving DecidableEq, Repr

/-- The body of an instruction handler. -/
abbrev Handler := Coroutine CpuRegisters Word Byte RuntimeError

def readFromAddress (address : Word) : Handler Byte := Coroutine.readFrom address
def writeToAddress (address : Word) (data : Byte) : Handler Unit := Coroutine.writeTo address data
def coYield : Handler Unit := Coroutine.coYield

/-- The masked value an expression of the source reads from a register. -/
def loadOf (register : Register CpuRegisters w) : Handler (BitVec w) := do
  return register.load (← get)

/-- The backing value, `.value` in the source. -/
def valueOf (register : Register CpuRegisters w) : Handler (BitVec w) := do
  return register.value (← get)

def increment (register : Register CpuRegisters w) : Handler (BitVec w) :=
  modifyGet register.postIncrement

def decrement (register : Register CpuRegisters w) : Handler (BitVec w) :=
  modifyGet register.postDecrement

def registerA : Register8Bit := accumulator
def registerB : Register8Bit := bRegister
def registerC : Register8Bit := cRegister
def registerD : Register8Bit := dRegister
def registerE : Register8Bit := eRegister
def registerH : Register8Bit := hRegister
def registerL : Register8Bit := lRegister
def registerZ : Register8Bit := zRegister
def registerAF : Register16Bit := afRegister
def registerBC : Register16Bit := bcRegister
def registerDE : Register16Bit := deRegister
def registerHL : Register16Bit := hlRegister
def registerSP : Register16Bit := stackPointer

abbrev RegisterModifier := Register16Bit → CpuRegisters → CpuRegisters

def register16BitIncrement : RegisterModifier := fun register registers =>
  register.write registers (register.value registers + 1)
def register16BitDecrement : RegisterModifier := fun register registers =>
  register.write registers (register.value registers - 1)
def registerNoModifier : RegisterModifier := fun _ registers => registers

def carryIn (registers : CpuRegisters) : Bool := flags.value registers &&& CpuFlags.carry > 0

/-- `condition ? flag : 0x00_b`. -/
def flagIf (condition : Bool) (flag : Byte) : Byte := if condition then flag else 0

def applyAdditionFlags (result carryPerBit : Byte) (registers : CpuRegisters) : CpuRegisters :=
  flags.write registers
    (flagIf (result == 0) CpuFlags.zero |||
      flagIf (carryPerBit &&& bitMask 3 > 0) CpuFlags.halfCarry |||
      flagIf (carryPerBit &&& bitMask 7 > 0) CpuFlags.carry)

def applySubtractionFlags (result carryPerBit : Byte) (registers : CpuRegisters) : CpuRegisters :=
  flags.write registers
    (CpuFlags.subtract ||| flagIf (result == 0) CpuFlags.zero |||
      flagIf (carryPerBit &&& bitMask 3 > 0) CpuFlags.halfCarry |||
      flagIf (carryPerBit &&& bitMask 7 > 0) CpuFlags.carry)

def applyAndFlags (result _carry : Byte) (registers : CpuRegisters) : CpuRegisters :=
  flags.write registers (flagIf (result == 0) CpuFlags.zero ||| CpuFlags.halfCarry)

def applyOrFlags (result _carry : Byte) (registers : CpuRegisters) : CpuRegisters :=
  flags.write registers (flagIf (result == 0) CpuFlags.zero)

def applyXorFlags (result _carry : Byte) (registers : CpuRegisters) : CpuRegisters :=
  flags.write registers (flagIf (result == 0) CpuFlags.zero)

abbrev CpuRegisterPredicate := CpuRegisters → Bool

def alwaysTrue : CpuRegisterPredicate := fun _ => true
def nonZero : CpuRegisterPredicate := fun registers => flags.value registers &&& CpuFlags.zero == 0
def zero : CpuRegisterPredicate := fun registers => flags.value registers &&& CpuFlags.zero > 0
def nonCarry : CpuRegisterPredicate := fun registers => flags.value registers &&& CpuFlags.carry == 0
def carry : CpuRegisterPredicate := fun registers => flags.value registers &&& CpuFlags.carry > 0

end GbEmulator
