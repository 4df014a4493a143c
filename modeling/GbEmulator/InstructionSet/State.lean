import GbEmulator.Emulator.CpuRegisters

/-! The programmer's view of the SM83: eight byte registers, two pointers, the
last fetched opcode and the interrupt master state. Nothing here mentions the
scratch pair, the masks or the words the emulator keeps the registers in. -/
namespace GbEmulator.Sm83

inductive Register8 where
  | a | b | c | d | e | h | l
  deriving DecidableEq, Repr

inductive Register16 where
  | bc | de | hl | sp
  deriving DecidableEq, Repr

/-- The pairs PUSH and POP name. -/
inductive StackRegister where
  | bc | de | hl | af
  deriving DecidableEq, Repr

/-- The pointers of `LD A,(..)` and `LD (..),A`. -/
inductive Pointer where
  | bc | de | hlIncrement | hlDecrement
  deriving DecidableEq, Repr

inductive Condition where
  | nz | z | nc | c
  deriving DecidableEq, Repr

structure Flags where
  zero : Bool
  subtract : Bool
  halfCarry : Bool
  carry : Bool
  deriving DecidableEq, Repr

/-- The F byte of four flags; its low four bits are clear. -/
def Flags.toByte (flags : Flags) : Byte :=
  (if flags.zero then 0x80 else 0) ||| (if flags.subtract then 0x40 else 0) |||
    (if flags.halfCarry then 0x20 else 0) ||| (if flags.carry then 0x10 else 0)

theorem Flags.toByte_zero (flags : Flags) : flags.toByte.getLsbD 7 = flags.zero := by
  obtain ⟨zero, subtract, halfCarry, carry⟩ := flags
  revert zero subtract halfCarry carry
  decide

theorem Flags.toByte_carry (flags : Flags) : flags.toByte.getLsbD 4 = flags.carry := by
  obtain ⟨zero, subtract, halfCarry, carry⟩ := flags
  revert zero subtract halfCarry carry
  decide

theorem Flags.toByte_low (flags : Flags) : flags.toByte &&& 0x0F = 0 := by
  obtain ⟨zero, subtract, halfCarry, carry⟩ := flags
  revert zero subtract halfCarry carry
  decide

/-- The four flags an F byte holds. -/
def Flags.ofByte (f : Byte) : Flags := ⟨f.getLsbD 7, f.getLsbD 6, f.getLsbD 5, f.getLsbD 4⟩

@[simp] theorem Flags.ofByte_toByte (flags : Flags) : Flags.ofByte flags.toByte = flags := by
  obtain ⟨zero, subtract, halfCarry, carry⟩ := flags
  revert zero subtract halfCarry carry
  decide

@[ext] structure State where
  a : Byte
  f : Byte
  b : Byte
  c : Byte
  d : Byte
  e : Byte
  h : Byte
  l : Byte
  sp : Word
  pc : Word
  opcode : Byte
  interrupts : MasterInterruptState
  deriving DecidableEq, Repr

namespace State

def get (state : State) : Register8 → Byte
  | .a => state.a
  | .b => state.b
  | .c => state.c
  | .d => state.d
  | .e => state.e
  | .h => state.h
  | .l => state.l

def set (state : State) (data : Byte) : Register8 → State
  | .a => { state with a := data }
  | .b => { state with b := data }
  | .c => { state with c := data }
  | .d => { state with d := data }
  | .e => { state with e := data }
  | .h => { state with h := data }
  | .l => { state with l := data }

def af (state : State) : Word := Word.ofBytes state.a state.f
def bc (state : State) : Word := Word.ofBytes state.b state.c
def de (state : State) : Word := Word.ofBytes state.d state.e
def hl (state : State) : Word := Word.ofBytes state.h state.l

def setBc (state : State) (word : Word) : State :=
  { state with b := Word.upper word, c := Word.lower word }
def setDe (state : State) (word : Word) : State :=
  { state with d := Word.upper word, e := Word.lower word }
def setHl (state : State) (word : Word) : State :=
  { state with h := Word.upper word, l := Word.lower word }

def getPair (state : State) : Register16 → Word
  | .bc => state.bc
  | .de => state.de
  | .hl => state.hl
  | .sp => state.sp

def setPair (state : State) (word : Word) : Register16 → State
  | .bc => state.setBc word
  | .de => state.setDe word
  | .hl => state.setHl word
  | .sp => { state with sp := word }

def getStack (state : State) : StackRegister → Word
  | .bc => state.bc
  | .de => state.de
  | .hl => state.hl
  | .af => state.af

/-- POP AF drops the low four bits of the word. -/
def setStack (state : State) (word : Word) : StackRegister → State
  | .bc => state.setBc word
  | .de => state.setDe word
  | .hl => state.setHl word
  | .af => { state with a := Word.upper word, f := Word.lower word &&& 0xF0 }

def pointed (state : State) : Pointer → Word
  | .bc => state.bc
  | .de => state.de
  | .hlIncrement | .hlDecrement => state.hl

def advance (state : State) : Pointer → State
  | .bc | .de => state
  | .hlIncrement => state.setHl (state.hl + 1)
  | .hlDecrement => state.setHl (state.hl - 1)

def flags (state : State) : Flags := Flags.ofByte state.f

def zeroFlag (state : State) : Bool := state.f.getLsbD 7
def carryFlag (state : State) : Bool := state.f.getLsbD 4

def holds (state : State) : Condition → Bool
  | .nz => !state.zeroFlag
  | .z => state.zeroFlag
  | .nc => !state.carryFlag
  | .c => state.carryFlag

/-- `none` is the unconditional form of an instruction. -/
def takes (state : State) : Option Condition → Bool
  | none => true
  | some condition => state.holds condition

section Frames
variable (state : State)

@[simp] theorem set_frame (data : Byte) (target : Register8) :
    (state.set data target).f = state.f ∧ (state.set data target).sp = state.sp ∧
      (state.set data target).pc = state.pc ∧
      (state.set data target).interrupts = state.interrupts := by
  cases target <;> exact ⟨rfl, rfl, rfl, rfl⟩

@[simp] theorem setPair_frame (word : Word) (target : Register16) :
    (state.setPair word target).a = state.a ∧ (state.setPair word target).f = state.f ∧
      (state.setPair word target).pc = state.pc ∧
      (state.setPair word target).interrupts = state.interrupts := by
  cases target <;> exact ⟨rfl, rfl, rfl, rfl⟩

@[simp] theorem setStack_frame (word : Word) (target : StackRegister) :
    (state.setStack word target).sp = state.sp ∧ (state.setStack word target).pc = state.pc ∧
      (state.setStack word target).interrupts = state.interrupts := by
  cases target <;> exact ⟨rfl, rfl, rfl⟩

@[simp] theorem advance_frame (pointer : Pointer) :
    (state.advance pointer).a = state.a ∧ (state.advance pointer).f = state.f ∧
      (state.advance pointer).sp = state.sp ∧ (state.advance pointer).pc = state.pc ∧
      (state.advance pointer).interrupts = state.interrupts := by
  cases pointer <;> exact ⟨rfl, rfl, rfl, rfl, rfl⟩

end Frames
end State
end GbEmulator.Sm83
