import GbEmulator.InstructionSet.State

/-! Syntax of the implemented instructions and the field decoder of the opcode
map: two bits for the quadrant, then two three-bit fields. -/
namespace GbEmulator.Sm83

/-- In the order of their opcode field. -/
inductive AluOperation where
  | add | adc | sub | sbc | and | xor | or | cp
  deriving DecidableEq, Repr

inductive Rotation where
  | rlca | rrca | rla | rra
  deriving DecidableEq, Repr

inductive Instruction where
  | nop
  /-- `LD r,r'`, `LD r,n`, `LD r,(HL)`, `LD (HL),r`, `LD (HL),n` -/
  | load (destination source : Register8)
  | loadImmediate (destination : Register8)
  | loadFromHl (destination : Register8)
  | storeToHl (source : Register8)
  | storeImmediateToHl
  /-- `LD A,(BC/DE/HL+/HL-)` and the matching stores -/
  | loadIndirect (pointer : Pointer)
  | storeIndirect (pointer : Pointer)
  /-- `LDH A,(a8)`, `LDH (a8),A`, `LD A,(C)`, `LD (C),A`, `LD A,(a16)`, `LD (a16),A` -/
  | loadHighImmediate
  | storeHighImmediate
  | loadHighC
  | storeHighC
  | loadAbsolute
  | storeAbsolute
  /-- `LD rr,nn`, `LD (a16),SP`, `LD SP,HL`, `LD HL,SP+e8` -/
  | loadPairImmediate (destination : Register16)
  | storeSp
  | loadSpHl
  | loadHlSpOffset
  | push (source : StackRegister)
  | pop (destination : StackRegister)
  | alu (operation : AluOperation) (source : Register8)
  | aluFromHl (operation : AluOperation)
  | aluImmediate (operation : AluOperation)
  | increment (target : Register8)
  | decrement (target : Register8)
  | incrementPair (target : Register16)
  | decrementPair (target : Register16)
  | rotate (rotation : Rotation)
  | complement
  | complementCarry
  /-- `JP`, `JR`, `CALL`, each with or without a condition -/
  | jump (condition : Option Condition)
  | jumpRelative (condition : Option Condition)
  | call (condition : Option Condition)
  | jumpHl
  | ret
  | retIf (condition : Condition)
  | reti
  | restart (vector : BitVec 3)
  | disableInterrupts
  | enableInterrupts
  deriving DecidableEq, Repr

inductive Decoded where
  | implemented (instruction : Instruction)
  | unimplemented
  | illegal
  deriving DecidableEq, Repr

/-- Field value 6 stands for the byte at HL. -/
def Register8.ofField : Nat → Option Register8
  | 0 => some .b
  | 1 => some .c
  | 2 => some .d
  | 3 => some .e
  | 4 => some .h
  | 5 => some .l
  | 6 => none
  | _ => some .a

def Register16.ofField : Nat → Register16
  | 0 => .bc
  | 1 => .de
  | 2 => .hl
  | _ => .sp

def StackRegister.ofField : Nat → StackRegister
  | 0 => .bc
  | 1 => .de
  | 2 => .hl
  | _ => .af

def Pointer.ofField : Nat → Pointer
  | 0 => .bc
  | 1 => .de
  | 2 => .hlIncrement
  | _ => .hlDecrement

def Condition.ofField : Nat → Condition
  | 0 => .nz
  | 1 => .z
  | 2 => .nc
  | _ => .c

def AluOperation.ofField : Nat → AluOperation
  | 0 => .add
  | 1 => .adc
  | 2 => .sub
  | 3 => .sbc
  | 4 => .and
  | 5 => .xor
  | 6 => .or
  | _ => .cp

/-- Opcodes `00yyyzzz`. -/
def decodeFirst (y z : Nat) : Decoded :=
  match z, y with
  | 0, 0 => .implemented .nop
  | 0, 1 => .implemented .storeSp
  | 0, 2 => .unimplemented
  | 0, 3 => .implemented (.jumpRelative none)
  | 0, y => .implemented (.jumpRelative (some (.ofField (y - 4))))
  | 1, y => if y % 2 = 0 then .implemented (.loadPairImmediate (.ofField (y / 2)))
      else .unimplemented
  | 2, y => .implemented (if y % 2 = 0 then .storeIndirect (.ofField (y / 2))
      else .loadIndirect (.ofField (y / 2)))
  | 3, y => .implemented (if y % 2 = 0 then .incrementPair (.ofField (y / 2))
      else .decrementPair (.ofField (y / 2)))
  | 4, y => match Register8.ofField y with
      | some target => .implemented (.increment target)
      | none => .unimplemented
  | 5, y => match Register8.ofField y with
      | some target => .implemented (.decrement target)
      | none => .unimplemented
  | 6, y => match Register8.ofField y with
      | some destination => .implemented (.loadImmediate destination)
      | none => .implemented .storeImmediateToHl
  | _, 0 => .implemented (.rotate .rlca)
  | _, 1 => .implemented (.rotate .rrca)
  | _, 2 => .implemented (.rotate .rla)
  | _, 3 => .implemented (.rotate .rra)
  | _, 5 => .implemented .complement
  | _, 7 => .implemented .complementCarry
  | _, _ => .unimplemented

/-- Opcodes `01yyyzzz`; HALT sits where both fields name the byte at HL. -/
def decodeLoad (y z : Nat) : Decoded :=
  match Register8.ofField y, Register8.ofField z with
  | some destination, some source => .implemented (.load destination source)
  | some destination, none => .implemented (.loadFromHl destination)
  | none, some source => .implemented (.storeToHl source)
  | none, none => .unimplemented

/-- Opcodes `10yyyzzz`. -/
def decodeAlu (y z : Nat) : Decoded :=
  match Register8.ofField z with
  | some source => .implemented (.alu (.ofField y) source)
  | none => .implemented (.aluFromHl (.ofField y))

/-- Opcodes `11yyyzzz`. -/
def decodeLast (y z : Nat) : Decoded :=
  match z, y with
  | 0, 4 => .implemented .storeHighImmediate
  | 0, 5 => .unimplemented
  | 0, 6 => .implemented .loadHighImmediate
  | 0, 7 => .implemented .loadHlSpOffset
  | 0, y => .implemented (.retIf (.ofField y))
  | 1, 1 => .implemented .ret
  | 1, 3 => .implemented .reti
  | 1, 5 => .implemented .jumpHl
  | 1, 7 => .implemented .loadSpHl
  | 1, y => .implemented (.pop (.ofField (y / 2)))
  | 2, 4 => .implemented .storeHighC
  | 2, 5 => .implemented .storeAbsolute
  | 2, 6 => .implemented .loadHighC
  | 2, 7 => .implemented .loadAbsolute
  | 2, y => .implemented (.jump (some (.ofField y)))
  | 3, 0 => .implemented (.jump none)
  | 3, 1 => .unimplemented
  | 3, 6 => .implemented .disableInterrupts
  | 3, 7 => .implemented .enableInterrupts
  | 3, _ => .illegal
  | 4, y => if y < 4 then .implemented (.call (some (.ofField y))) else .illegal
  | 5, 1 => .implemented (.call none)
  | 5, y => if y % 2 = 0 then .implemented (.push (.ofField (y / 2))) else .illegal
  | 6, y => .implemented (.aluImmediate (.ofField y))
  | _, y => .implemented (.restart (BitVec.ofNat 3 y))

def decode (opcode : Byte) : Decoded :=
  let y := opcode.toNat / 8 % 8
  let z := opcode.toNat % 8
  match opcode.toNat / 64 with
  | 0 => decodeFirst y z
  | 1 => decodeLoad y z
  | 2 => decodeAlu y z
  | _ => decodeLast y z

end GbEmulator.Sm83
