import GbEmulator.Handlers.Helpers

/-! Load, push and pop handlers. Each template is one definition over its
accessors; the instantiations follow it under their names in the source. -/
namespace GbEmulator
open CpuRegisters UtilityLib

/-! `load_r_r.h` -/

def executeLoadRegReg (writeLocation sourceLocation : Register8Bit) : Handler Unit := do
  modify (writeLocation.assign (← valueOf sourceLocation))

def executeLoad_A_A := executeLoadRegReg registerA registerA
def executeLoad_A_B := executeLoadRegReg registerA registerB
def executeLoad_A_C := executeLoadRegReg registerA registerC
def executeLoad_A_D := executeLoadRegReg registerA registerD
def executeLoad_A_E := executeLoadRegReg registerA registerE
def executeLoad_A_H := executeLoadRegReg registerA registerH
def executeLoad_A_L := executeLoadRegReg registerA registerL

def executeLoad_B_A := executeLoadRegReg registerB registerA
def executeLoad_B_B := executeLoadRegReg registerB registerB
def executeLoad_B_C := executeLoadRegReg registerB registerC
def executeLoad_B_D := executeLoadRegReg registerB registerD
def executeLoad_B_E := executeLoadRegReg registerB registerE
def executeLoad_B_H := executeLoadRegReg registerB registerH
def executeLoad_B_L := executeLoadRegReg registerB registerL

def executeLoad_C_A := executeLoadRegReg registerC registerA
def executeLoad_C_B := executeLoadRegReg registerC registerB
def executeLoad_C_C := executeLoadRegReg registerC registerC
def executeLoad_C_D := executeLoadRegReg registerC registerD
def executeLoad_C_E := executeLoadRegReg registerC registerE
def executeLoad_C_H := executeLoadRegReg registerC registerH
def executeLoad_C_L := executeLoadRegReg registerC registerL

def executeLoad_D_A := executeLoadRegReg registerD registerA
def executeLoad_D_B := executeLoadRegReg registerD registerB
def executeLoad_D_C := executeLoadRegReg registerD registerC
def executeLoad_D_D := executeLoadRegReg registerD registerD
def executeLoad_D_E := executeLoadRegReg registerD registerE
def executeLoad_D_H := executeLoadRegReg registerD registerH
def executeLoad_D_L := executeLoadRegReg registerD registerL

def executeLoad_E_A := executeLoadRegReg registerE registerA
def executeLoad_E_B := executeLoadRegReg registerE registerB
def executeLoad_E_C := executeLoadRegReg registerE registerC
def executeLoad_E_D := executeLoadRegReg registerE registerD
def executeLoad_E_E := executeLoadRegReg registerE registerE
def executeLoad_E_H := executeLoadRegReg registerE registerH
def executeLoad_E_L := executeLoadRegReg registerE registerL

def executeLoad_H_A := executeLoadRegReg registerH registerA
def executeLoad_H_B := executeLoadRegReg registerH registerB
def executeLoad_H_C := executeLoadRegReg registerH registerC
def executeLoad_H_D := executeLoadRegReg registerH registerD
def executeLoad_H_E := executeLoadRegReg registerH registerE
def executeLoad_H_H := executeLoadRegReg registerH registerH
def executeLoad_H_L := executeLoadRegReg registerH registerL

def executeLoad_L_A := executeLoadRegReg registerL registerA
def executeLoad_L_B := executeLoadRegReg registerL registerB
def executeLoad_L_C := executeLoadRegReg registerL registerC
def executeLoad_L_D := executeLoadRegReg registerL registerD
def executeLoad_L_E := executeLoadRegReg registerL registerE
def executeLoad_L_H := executeLoadRegReg registerL registerH
def executeLoad_L_L := executeLoadRegReg registerL registerL

/-! `load_r_n8.h` -/

def executeLoadRegN8 (writeLocation : Register8Bit) : Handler Unit := do
  modify (zRegister.assign (← readFromAddress (← increment programCounter)))
  coYield
  modify (writeLocation.assign (← valueOf zRegister))

def executeLoadAn8 := executeLoadRegN8 registerA
def executeLoadBn8 := executeLoadRegN8 registerB
def executeLoadCn8 := executeLoadRegN8 registerC
def executeLoadDn8 := executeLoadRegN8 registerD
def executeLoadEn8 := executeLoadRegN8 registerE
def executeLoadHn8 := executeLoadRegN8 registerH
def executeLoadLn8 := executeLoadRegN8 registerL

/-! `load_r_indirect_rr.h` -/

def executeLoadRIndirectRr (registerDestination : Register8Bit) (registerSource : Register16Bit)
    (modifier : RegisterModifier) : Handler Unit := do
  let address ← valueOf registerSource
  modify (modifier registerSource)
  let value ← readFromAddress address
  coYield
  modify (registerDestination.assign value)

def executeLoadIndirectAFromBC := executeLoadRIndirectRr registerA registerBC registerNoModifier
def executeLoadIndirectAFromDE := executeLoadRIndirectRr registerA registerDE registerNoModifier
def executeLoadIndirectAFromHLIncrement :=
  executeLoadRIndirectRr registerA registerHL register16BitIncrement
def executeLoadIndirectAFromHLDecrement :=
  executeLoadRIndirectRr registerA registerHL register16BitDecrement
def executeLoadIndirectBFromHL := executeLoadRIndirectRr registerB registerHL registerNoModifier
def executeLoadIndirectCFromHL := executeLoadRIndirectRr registerC registerHL registerNoModifier
def executeLoadIndirectDFromHL := executeLoadRIndirectRr registerD registerHL registerNoModifier
def executeLoadIndirectEFromHL := executeLoadRIndirectRr registerE registerHL registerNoModifier
def executeLoadIndirectHFromHL := executeLoadRIndirectRr registerH registerHL registerNoModifier
def executeLoadIndirectLFromHL := executeLoadRIndirectRr registerL registerHL registerNoModifier
def executeLoadIndirectAFromHL := executeLoadRIndirectRr registerA registerHL registerNoModifier

/-! `load_indirect_r.h` -/

def executeLoadIndirectFrom (registerDestinationAddress : Register16Bit)
    (readLocation : Register8Bit) (modifier : RegisterModifier) : Handler Unit := do
  let address ← valueOf registerDestinationAddress
  modify (modifier registerDestinationAddress)
  writeToAddress address (← valueOf readLocation)
  coYield

def executeLoadIndirectBCFromA := executeLoadIndirectFrom registerBC registerA registerNoModifier
def executeLoadIndirectDEFromA := executeLoadIndirectFrom registerDE registerA registerNoModifier
def executeLoadIndirectHLFromA := executeLoadIndirectFrom registerHL registerA registerNoModifier
def executeLoadIndirectHLFromB := executeLoadIndirectFrom registerHL registerB registerNoModifier
def executeLoadIndirectHLFromC := executeLoadIndirectFrom registerHL registerC registerNoModifier
def executeLoadIndirectHLFromD := executeLoadIndirectFrom registerHL registerD registerNoModifier
def executeLoadIndirectHLFromE := executeLoadIndirectFrom registerHL registerE registerNoModifier
def executeLoadIndirectHLFromH := executeLoadIndirectFrom registerHL registerH registerNoModifier
def executeLoadIndirectHLFromL := executeLoadIndirectFrom registerHL registerL registerNoModifier
def executeLoadIndirectHLIncrementFromA :=
  executeLoadIndirectFrom registerHL registerA register16BitIncrement
def executeLoadIndirectHLDecrementFromA :=
  executeLoadIndirectFrom registerHL registerA register16BitDecrement

/-! `load_indirect_n8.h` -/

def executeLoadIndirectHlN8 : Handler Unit := do
  modify (zRegister.assign (← readFromAddress (← increment programCounter)))
  coYield
  writeToAddress (← loadOf hlRegister) (← loadOf zRegister)
  coYield

/-! `load_a_from_indirect_address.h` -/

/-- `0xFF00 | static_cast<uint8_t>(low)`. -/
def highAddress (low : Byte) : Word := 0xFF00 ||| low.setWidth 16

def executeLoadAFromIndirectA8 : Handler Unit := do
  modify (zRegister.assign (← readFromAddress (← increment programCounter)))
  coYield
  modify (zRegister.assign (← readFromAddress (highAddress (← valueOf zRegister))))
  coYield
  modify (accumulator.assign (← valueOf zRegister))

def executeLoadAFromIndirectA16 : Handler Unit := do
  modify (zRegister.assign (← readFromAddress (← increment programCounter)))
  coYield
  modify (wRegister.assign (← readFromAddress (← increment programCounter)))
  coYield
  modify (zRegister.assign (← readFromAddress (← valueOf wzRegister)))
  coYield
  modify (accumulator.assign (← valueOf zRegister))

/-! `load_indirect_address_from_a.h` -/

def executeLoadIndirectA8FromA : Handler Unit := do
  modify (zRegister.assign (← readFromAddress (← increment programCounter)))
  coYield
  writeToAddress (highAddress (← valueOf zRegister)) (← valueOf accumulator)
  coYield

def executeLoadIndirectA16FromA : Handler Unit := do
  modify (zRegister.assign (← readFromAddress (← increment programCounter)))
  coYield
  modify (wRegister.assign (← readFromAddress (← increment programCounter)))
  coYield
  writeToAddress (← valueOf wzRegister) (← valueOf accumulator)
  coYield

/-! `load_a_from_indirect_c.h`, `load_indirect_c_from_a.h` -/

def executeLoadAFromIndirectC : Handler Unit := do
  modify (accumulator.assign (← readFromAddress (highAddress (← valueOf cRegister))))
  coYield

def executeLoadIndirectCFromA : Handler Unit := do
  writeToAddress (highAddress (← valueOf cRegister)) (← valueOf accumulator)
  coYield

/-! `load_rr_n16.h` -/

def executeLoadRegN16 (writeLocation : Register16Bit) : Handler Unit := do
  modify (zRegister.assign (← readFromAddress (← increment programCounter)))
  coYield
  modify (wRegister.assign (← readFromAddress (← increment programCounter)))
  coYield
  modify (writeLocation.assign (← valueOf wzRegister))

def executeLoadBCn16 := executeLoadRegN16 registerBC
def executeLoadDEn16 := executeLoadRegN16 registerDE
def executeLoadHLn16 := executeLoadRegN16 registerHL
def executeLoadSPn16 := executeLoadRegN16 registerSP

/-! `load_rr_rr.h` -/

def executeLoadReg16Reg16 (writeLocation sourceLocation : Register16Bit) : Handler Unit := do
  modify (writeLocation.assign (← valueOf sourceLocation))
  coYield

def executeLoad_SP_HL := executeLoadReg16Reg16 registerSP registerHL

/-! `load_a16_sp.h` -/

def executeLoadA16SP : Handler Unit := do
  modify (zRegister.assign (← readFromAddress (← increment programCounter)))
  coYield
  modify (wRegister.assign (← readFromAddress (← increment programCounter)))
  coYield
  writeToAddress (← valueOf wzRegister) (Word.lower ((← valueOf stackPointer) &&& 0xFF))
  let _ ← increment wzRegister
  coYield
  writeToAddress (← valueOf wzRegister) (Word.upper (← valueOf stackPointer))
  coYield

/-! `load_hl_from_sp_e8.h` -/

def executeLoadSPFromHlPlusE8 : Handler Unit := do
  modify (zRegister.assign (← readFromAddress (← increment programCounter)))
  coYield
  let zSign := bitMask 7 &&& (← loadOf zRegister)
  let ⟨result, carryPerBit⟩ :=
    addWithCarry (Word.lower (← valueOf stackPointer)) (← valueOf zRegister)
  modify (lRegister.assign result)
  modify (flags.assign
    (0 ||| flagIf (carryPerBit &&& bitMask 3 > 0) CpuFlags.halfCarry |||
      flagIf (carryPerBit &&& bitMask 7 > 0) CpuFlags.carry))
  coYield
  let adjustment : Byte := if zSign > 0 then 0xFF else 0
  modify (hRegister.assign
    (Word.upper (← valueOf stackPointer) + adjustment + if carryIn (← get) then 1 else 0))

/-! `push_rr.h` -/

/-- The source register is held by reference and read again at each write. -/
def executePushRr (readLocation : Register16Bit) : Handler Unit := do
  let _ ← decrement stackPointer
  coYield
  writeToAddress (← decrement stackPointer) (Word.upper (← valueOf readLocation))
  coYield
  writeToAddress (← loadOf stackPointer) (Word.lower ((← valueOf readLocation) &&& 0xFF))
  coYield

def executePushBC := executePushRr registerBC
def executePushDE := executePushRr registerDE
def executePushHL := executePushRr registerHL
def executePushAF := executePushRr registerAF

/-! `pop_rr.h` -/

def executePopRr (writeLocation : Register16Bit) : Handler Unit := do
  modify (zRegister.assign (← readFromAddress (← increment stackPointer)))
  coYield
  modify (wRegister.assign (← readFromAddress (← increment stackPointer)))
  coYield
  modify (writeLocation.assign (← valueOf wzRegister))

def executePopBC := executePopRr registerBC
def executePopDE := executePopRr registerDE
def executePopHL := executePopRr registerHL
def executePopAF := executePopRr registerAF

end GbEmulator
