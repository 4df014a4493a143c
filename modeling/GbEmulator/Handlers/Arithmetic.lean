import GbEmulator.Handlers.Helpers

/-! Arithmetic, logic, rotate and flag handlers. -/
namespace GbEmulator
open CpuRegisters UtilityLib

/-! `mathetical_r.h` -/

/-- An operand of the source either takes the two bytes alone or, for ADC and
SBC, the registers as well; the first kind ignores the registers here. -/
abbrev MathOperand := CpuRegisters → Byte → Byte → MathematicalResult 8

abbrev SetFlagFunction := Byte → Byte → CpuRegisters → CpuRegisters

def addOperand : MathOperand := fun _ => addWithCarry
def subOperand : MathOperand := fun _ => subWithBorrow
def adcWithCarryWrapper : MathOperand := fun registers left right =>
  addWithCarryIn left right (carryIn registers)
def sbcWithBorrowWrapper : MathOperand := fun registers left right =>
  subWithBorrowIn left right (carryIn registers)
def andOperand : MathOperand := fun _ left right => ⟨left &&& right, 0⟩
def orOperand : MathOperand := fun _ left right => ⟨left ||| right, 0⟩
def xorOperand : MathOperand := fun _ left right => ⟨left ^^^ right, 0⟩

def executeMathOperandR (targetRegister : Register8Bit) (operand : MathOperand)
    (flagFunction : SetFlagFunction) (accumulatorRegister : Register8Bit) : Handler Unit := do
  let ⟨result, carry⟩ := operand (← get) (← valueOf accumulator) (← valueOf targetRegister)
  modify (accumulatorRegister.assign result)
  modify (flagFunction result carry)

def executeAddA := executeMathOperandR registerA addOperand applyAdditionFlags registerA
def executeAddB := executeMathOperandR registerB addOperand applyAdditionFlags registerA
def executeAddC := executeMathOperandR registerC addOperand applyAdditionFlags registerA
def executeAddD := executeMathOperandR registerD addOperand applyAdditionFlags registerA
def executeAddE := executeMathOperandR registerE addOperand applyAdditionFlags registerA
def executeAddH := executeMathOperandR registerH addOperand applyAdditionFlags registerA
def executeAddL := executeMathOperandR registerL addOperand applyAdditionFlags registerA

def executeAdcA := executeMathOperandR registerA adcWithCarryWrapper applyAdditionFlags registerA
def executeAdcB := executeMathOperandR registerB adcWithCarryWrapper applyAdditionFlags registerA
def executeAdcC := executeMathOperandR registerC adcWithCarryWrapper applyAdditionFlags registerA
def executeAdcD := executeMathOperandR registerD adcWithCarryWrapper applyAdditionFlags registerA
def executeAdcE := executeMathOperandR registerE adcWithCarryWrapper applyAdditionFlags registerA
def executeAdcH := executeMathOperandR registerH adcWithCarryWrapper applyAdditionFlags registerA
def executeAdcL := executeMathOperandR registerL adcWithCarryWrapper applyAdditionFlags registerA

def executeSubA := executeMathOperandR registerA subOperand applySubtractionFlags registerA
def executeSubB := executeMathOperandR registerB subOperand applySubtractionFlags registerA
def executeSubC := executeMathOperandR registerC subOperand applySubtractionFlags registerA
def executeSubD := executeMathOperandR registerD subOperand applySubtractionFlags registerA
def executeSubE := executeMathOperandR registerE subOperand applySubtractionFlags registerA
def executeSubH := executeMathOperandR registerH subOperand applySubtractionFlags registerA
def executeSubL := executeMathOperandR registerL subOperand applySubtractionFlags registerA

def executeSbcA := executeMathOperandR registerA sbcWithBorrowWrapper applySubtractionFlags registerA
def executeSbcB := executeMathOperandR registerB sbcWithBorrowWrapper applySubtractionFlags registerA
def executeSbcC := executeMathOperandR registerC sbcWithBorrowWrapper applySubtractionFlags registerA
def executeSbcD := executeMathOperandR registerD sbcWithBorrowWrapper applySubtractionFlags registerA
def executeSbcE := executeMathOperandR registerE sbcWithBorrowWrapper applySubtractionFlags registerA
def executeSbcH := executeMathOperandR registerH sbcWithBorrowWrapper applySubtractionFlags registerA
def executeSbcL := executeMathOperandR registerL sbcWithBorrowWrapper applySubtractionFlags registerA

def executeAndA := executeMathOperandR registerA andOperand applyAndFlags registerA
def executeAndB := executeMathOperandR registerB andOperand applyAndFlags registerA
def executeAndC := executeMathOperandR registerC andOperand applyAndFlags registerA
def executeAndD := executeMathOperandR registerD andOperand applyAndFlags registerA
def executeAndE := executeMathOperandR registerE andOperand applyAndFlags registerA
def executeAndH := executeMathOperandR registerH andOperand applyAndFlags registerA
def executeAndL := executeMathOperandR registerL andOperand applyAndFlags registerA

def executeOrA := executeMathOperandR registerA orOperand applyOrFlags registerA
def executeOrB := executeMathOperandR registerB orOperand applyOrFlags registerA
def executeOrC := executeMathOperandR registerC orOperand applyOrFlags registerA
def executeOrD := executeMathOperandR registerD orOperand applyOrFlags registerA
def executeOrE := executeMathOperandR registerE orOperand applyOrFlags registerA
def executeOrH := executeMathOperandR registerH orOperand applyOrFlags registerA
def executeOrL := executeMathOperandR registerL orOperand applyOrFlags registerA

def executeXorA := executeMathOperandR registerA xorOperand applyXorFlags registerA
def executeXorB := executeMathOperandR registerB xorOperand applyXorFlags registerA
def executeXorC := executeMathOperandR registerC xorOperand applyXorFlags registerA
def executeXorD := executeMathOperandR registerD xorOperand applyXorFlags registerA
def executeXorE := executeMathOperandR registerE xorOperand applyXorFlags registerA
def executeXorH := executeMathOperandR registerH xorOperand applyXorFlags registerA
def executeXorL := executeMathOperandR registerL xorOperand applyXorFlags registerA

def executeCpA := executeMathOperandR registerA subOperand applySubtractionFlags registerZ
def executeCpB := executeMathOperandR registerB subOperand applySubtractionFlags registerZ
def executeCpC := executeMathOperandR registerC subOperand applySubtractionFlags registerZ
def executeCpD := executeMathOperandR registerD subOperand applySubtractionFlags registerZ
def executeCpE := executeMathOperandR registerE subOperand applySubtractionFlags registerZ
def executeCpH := executeMathOperandR registerH subOperand applySubtractionFlags registerZ
def executeCpL := executeMathOperandR registerL subOperand applySubtractionFlags registerZ

def executeMathN8 (operand : MathOperand) (flagFunction : SetFlagFunction)
    (accumulatorRegister : Register8Bit) : Handler Unit := do
  modify (zRegister.assign (← readFromAddress (← increment programCounter)))
  coYield
  let ⟨result, carry⟩ := operand (← get) (← valueOf accumulator) (← valueOf zRegister)
  modify (accumulatorRegister.assign result)
  modify (flagFunction result carry)

def executeAddAn8 := executeMathN8 addOperand applyAdditionFlags registerA
def executeAdcAn8 := executeMathN8 adcWithCarryWrapper applyAdditionFlags registerA
def executeSubAn8 := executeMathN8 subOperand applySubtractionFlags registerA
def executeSbcAn8 := executeMathN8 sbcWithBorrowWrapper applySubtractionFlags registerA
def executeAndAn8 := executeMathN8 andOperand applyAndFlags registerA
def executeOrAn8 := executeMathN8 orOperand applyOrFlags registerA
def executeXorAn8 := executeMathN8 xorOperand applyXorFlags registerA
def executeCpAn8 := executeMathN8 subOperand applySubtractionFlags registerZ

/-! The eight `*_a_from_indirect_hl.h` files differ in the operation, the flags
and in what becomes of the result, which CP drops. -/

def executeMathFromIndirectHL (operand : MathOperand) (flagFunction : SetFlagFunction)
    (keep : Byte → CpuRegisters → CpuRegisters) : Handler Unit := do
  modify (zRegister.assign (← readFromAddress (← loadOf hlRegister)))
  coYield
  let ⟨result, carry⟩ := operand (← get) (← valueOf accumulator) (← valueOf zRegister)
  modify (keep result)
  modify (flagFunction result carry)

def executeAddAFromIndirectHL :=
  executeMathFromIndirectHL addOperand applyAdditionFlags accumulator.assign
def executeAdcAFromIndirectHL :=
  executeMathFromIndirectHL adcWithCarryWrapper applyAdditionFlags accumulator.assign
def executeSubAFromIndirectHL :=
  executeMathFromIndirectHL subOperand applySubtractionFlags accumulator.assign
def executeSbcAFromIndirectHL :=
  executeMathFromIndirectHL sbcWithBorrowWrapper applySubtractionFlags accumulator.assign
def executeAndAFromIndirectHL :=
  executeMathFromIndirectHL andOperand applyAndFlags accumulator.assign
def executeOrAFromIndirectHL := executeMathFromIndirectHL orOperand applyOrFlags accumulator.assign
def executeXorAFromIndirectHL :=
  executeMathFromIndirectHL xorOperand applyXorFlags accumulator.assign
def executeCpAFromIndirectHL :=
  executeMathFromIndirectHL subOperand applySubtractionFlags (fun _ registers => registers)

/-! `inc_r.h`, `dec_r.h` -/

def executeIncR (targetRegister : Register8Bit) : Handler Unit := do
  let ⟨result, carry⟩ := addWithCarry (← valueOf targetRegister) 1
  modify (targetRegister.assign result)
  modify fun registers => flags.write registers (flags.value registers &&& CpuFlags.carry)
  modify fun registers =>
    flags.write registers (flags.value registers ||| flagIf (result == 0) CpuFlags.zero)
  modify fun registers =>
    flags.write registers
      (flags.value registers ||| flagIf (carry &&& bitMask 3 > 0) CpuFlags.halfCarry)

def executeIncB := executeIncR registerB
def executeIncC := executeIncR registerC
def executeIncD := executeIncR registerD
def executeIncE := executeIncR registerE
def executeIncH := executeIncR registerH
def executeIncL := executeIncR registerL
def executeIncA := executeIncR registerA

def executeDecR (targetRegister : Register8Bit) : Handler Unit := do
  let ⟨result, borrow⟩ := subWithBorrow (← valueOf targetRegister) 1
  modify (targetRegister.assign result)
  modify fun registers => flags.write registers (flags.value registers &&& CpuFlags.carry)
  modify fun registers => flags.write registers (flags.value registers ||| CpuFlags.subtract)
  modify fun registers =>
    flags.write registers (flags.value registers ||| flagIf (result == 0) CpuFlags.zero)
  modify fun registers =>
    flags.write registers
      (flags.value registers ||| flagIf (borrow &&& bitMask 3 > 0) CpuFlags.halfCarry)

def executeDecB := executeDecR registerB
def executeDecC := executeDecR registerC
def executeDecD := executeDecR registerD
def executeDecE := executeDecR registerE
def executeDecH := executeDecR registerH
def executeDecL := executeDecR registerL
def executeDecA := executeDecR registerA

/-! `inc_rr.h`, `dec_rr.h` -/

def executeIncRR (targetRegister : Register16Bit) : Handler Unit := do
  modify (targetRegister.addAssign 1)
  coYield

def executeIncBC := executeIncRR registerBC
def executeIncDE := executeIncRR registerDE
def executeIncHL := executeIncRR registerHL
def executeIncSP := executeIncRR registerSP

def executeDecRR (targetRegister : Register16Bit) : Handler Unit := do
  modify (targetRegister.subAssign 1)
  coYield

def executeDecBC := executeDecRR registerBC
def executeDecDE := executeDecRR registerDE
def executeDecHL := executeDecRR registerHL
def executeDecSP := executeDecRR registerSP

/-! `rlca.h`, `rrca.h`, `rla.h`, `rra.h` -/

def executeRlca : Handler Unit := do
  let newBit0 : Byte := if (← loadOf accumulator) &&& 0x80 != 0 then 0x01 else 0x00
  modify (accumulator.assign (((← loadOf accumulator) <<< 1) ||| newBit0))
  modify (flags.assign (0 ||| flagIf (newBit0 != 0) CpuFlags.carry))

def executeRrca : Handler Unit := do
  let newBit7 : Byte := if (← loadOf accumulator) &&& 0x01 != 0 then 0x80 else 0x00
  modify (accumulator.assign (((← loadOf accumulator) >>> 1) ||| newBit7))
  modify (flags.assign (0 ||| flagIf (newBit7 != 0) CpuFlags.carry))

/-- `newValue` is an `int` in the source; its bits all lie in the low sixteen. -/
def executeRla : Handler Unit := do
  let newValue : Word := (← valueOf accumulator).setWidth 16 <<< 1
  let newFlagsValue := flagIf (newValue &&& 0x100 != 0) CpuFlags.carry
  modify (accumulator.assign
    (Word.lower newValue ||| if (← loadOf flags) &&& CpuFlags.carry > 0 then 0x01 else 0x00))
  modify (flags.assign newFlagsValue)

def executeRra : Handler Unit := do
  let newValue : Word := (← valueOf accumulator).setWidth 16 <<< 7
  let newFlagsValue := flagIf (newValue &&& 0x80 != 0) CpuFlags.carry
  modify (accumulator.assign
    (Word.upper newValue ||| if (← loadOf flags) &&& CpuFlags.carry > 0 then 0x80 else 0x00))
  modify (flags.assign newFlagsValue)

/-! `cpl.h`, `ccf.h` -/

def executeCpl : Handler Unit := do
  modify (accumulator.assign (~~~(← loadOf accumulator)))
  modify (flags.orAssign (CpuFlags.subtract ||| CpuFlags.halfCarry))

def executeCcf : Handler Unit := do
  modify (flags.andAssign (CpuFlags.carry ||| CpuFlags.zero))
  modify (flags.xorAssign CpuFlags.carry)

end GbEmulator
