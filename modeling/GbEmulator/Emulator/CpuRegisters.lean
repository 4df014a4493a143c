import GbEmulator.Emulator.Register

/-! `CpuRegisters` and `CpuFlags`. Every register is a view of a backing word or
byte; the eight-bit registers of a pair alias the halves of one word. -/
namespace GbEmulator

inductive MasterInterruptState where
  | disabled
  | pending
  | enabled
  deriving DecidableEq, Repr

@[ext] structure CpuRegisters where
  backingInstructionRegister : Byte := 0
  backingInterruptEnableRegister : Byte := 0
  backingAfRegister : Word := 0
  backingBcRegister : Word := 0
  backingDeRegister : Word := 0
  backingHlRegister : Word := 0
  backingWzRegister : Word := 0
  backingProgramCounterRegister : Word := 0
  backingStackPointerRegister : Word := 0
  masterInterruptState : MasterInterruptState := .disabled
  deriving DecidableEq, Repr

abbrev Register8Bit := Register CpuRegisters 8
abbrev Register16Bit := Register CpuRegisters 16

namespace CpuRegisters

def instructionRegister : Register8Bit where
  value := backingInstructionRegister
  write registers data := { registers with backingInstructionRegister := data }

def interruptEnableRegister : Register8Bit where
  value := backingInterruptEnableRegister
  write registers data := { registers with backingInterruptEnableRegister := data }

def afRegister : Register16Bit where
  value := backingAfRegister
  write registers data := { registers with backingAfRegister := data }
  mask := 0xFFF0

def accumulator : Register8Bit := afRegister.upperByteAsRegister
def flags : Register8Bit := afRegister.lowerByteAsRegister

def bcRegister : Register16Bit where
  value := backingBcRegister
  write registers data := { registers with backingBcRegister := data }

def bRegister : Register8Bit := bcRegister.upperByteAsRegister
def cRegister : Register8Bit := bcRegister.lowerByteAsRegister

def deRegister : Register16Bit where
  value := backingDeRegister
  write registers data := { registers with backingDeRegister := data }

def dRegister : Register8Bit := deRegister.upperByteAsRegister
def eRegister : Register8Bit := deRegister.lowerByteAsRegister

def hlRegister : Register16Bit where
  value := backingHlRegister
  write registers data := { registers with backingHlRegister := data }

def hRegister : Register8Bit := hlRegister.upperByteAsRegister
def lRegister : Register8Bit := hlRegister.lowerByteAsRegister

def wzRegister : Register16Bit where
  value := backingWzRegister
  write registers data := { registers with backingWzRegister := data }

def wRegister : Register8Bit := wzRegister.upperByteAsRegister
def zRegister : Register8Bit := wzRegister.lowerByteAsRegister

def programCounter : Register16Bit where
  value := backingProgramCounterRegister
  write registers data := { registers with backingProgramCounterRegister := data }

def stackPointer : Register16Bit where
  value := backingStackPointerRegister
  write registers data := { registers with backingStackPointerRegister := data }

end CpuRegisters

namespace CpuFlags

def zero : Byte := (1 : Byte) <<< 7
def subtract : Byte := (1 : Byte) <<< 6
def halfCarry : Byte := (1 : Byte) <<< 5
def carry : Byte := (1 : Byte) <<< 4

end CpuFlags
end GbEmulator
