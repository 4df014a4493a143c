import GbEmulator.Handlers.Loads
import GbEmulator.Handlers.Arithmetic
import GbEmulator.Handlers.Control

/-! `opcode_handler_map.h`: the coroutine object and the table of its factories. -/
namespace GbEmulator
open CpuRegisters

/-- A coroutine handle that owns a frame: suspended before `rest`, or done. -/
inductive CoroutineHandle where
  | suspended (rest : Handler Unit)
  | done

/-- `InstructionHandler` with its promise. The source can also hold a null
handle, which no handler stored in a `Cpu` ever has. -/
structure InstructionHandler where
  handle : CoroutineHandle
  exception : Option RuntimeError

namespace InstructionHandler

/-- How `final_suspend`, `yield_value` and `unhandled_exception` leave the object. -/
def suspendedAt (handler : InstructionHandler) :
    Suspension CpuRegisters Word Byte RuntimeError Unit → InstructionHandler
  | .suspended rest => { handler with handle := .suspended rest }
  | .returned _ => { handler with handle := .done }
  | .threw error => ⟨.done, some error⟩

end InstructionHandler

/-- A factory either throws before there is a coroutine or returns one that is
suspended at its first statement. -/
abbrev OpcodeHandler := CpuRegisters → Except RuntimeError InstructionHandler

def started (body : Handler Unit) : OpcodeHandler := fun _ => .ok ⟨.suspended body, none⟩

def hexDigit (digit : Nat) : Char := "0123456789ABCDEF".toList.getD digit '0'

/-- `std::formatter<std::byte>`: `0x{:02X}`. -/
def formatByte (byte : Byte) : String :=
  "0x" ++ String.ofList [hexDigit (byte.toNat / 16), hexDigit (byte.toNat % 16)]

def unimplementedOpcode : OpcodeHandler := fun registers =>
  .error ⟨"Unimplemented opcode: " ++ formatByte (instructionRegister.value registers)⟩

def illegalOpcode : OpcodeHandler := fun registers =>
  .error ⟨"Illegal opcode: " ++ formatByte (instructionRegister.value registers)⟩

set_option maxRecDepth 10000 in
/-- One row for each eight opcodes; every slot of the array is assigned. -/
def createOpcodeHandlers : Vector OpcodeHandler 256 := #v[
  -- 0x00
  started executeNoop, started executeLoadBCn16, started executeLoadIndirectBCFromA,
  started executeIncBC, started executeIncB, started executeDecB, started executeLoadBn8,
  started executeRlca,
  -- 0x08
  started executeLoadA16SP, unimplementedOpcode, started executeLoadIndirectAFromBC,
  started executeDecBC, started executeIncC, started executeDecC, started executeLoadCn8,
  started executeRrca,
  -- 0x10
  unimplementedOpcode, started executeLoadDEn16, started executeLoadIndirectDEFromA,
  started executeIncDE, started executeIncD, started executeDecD, started executeLoadDn8,
  started executeRla,
  -- 0x18
  started executeJumpRelativeE8, unimplementedOpcode, started executeLoadIndirectAFromDE,
  started executeDecDE, started executeIncE, started executeDecE, started executeLoadEn8,
  started executeRra,
  -- 0x20
  started executeJumpRelativeNzE8, started executeLoadHLn16,
  started executeLoadIndirectHLIncrementFromA, started executeIncHL, started executeIncH,
  started executeDecH, started executeLoadHn8, unimplementedOpcode,
  -- 0x28
  started executeJumpRelativeZE8, unimplementedOpcode,
  started executeLoadIndirectAFromHLIncrement, started executeDecHL, started executeIncL,
  started executeDecL, started executeLoadLn8, started executeCpl,
  -- 0x30
  started executeJumpRelativeNcE8, started executeLoadSPn16,
  started executeLoadIndirectHLDecrementFromA, started executeIncSP, unimplementedOpcode,
  unimplementedOpcode, started executeLoadIndirectHlN8, unimplementedOpcode,
  -- 0x38
  started executeJumpRelativeCE8, unimplementedOpcode,
  started executeLoadIndirectAFromHLDecrement, started executeDecSP, started executeIncA,
  started executeDecA, started executeLoadAn8, started executeCcf,
  -- 0x40
  started executeLoad_B_B, started executeLoad_B_C, started executeLoad_B_D,
  started executeLoad_B_E, started executeLoad_B_H, started executeLoad_B_L,
  started executeLoadIndirectBFromHL, started executeLoad_B_A,
  -- 0x48
  started executeLoad_C_B, started executeLoad_C_C, started executeLoad_C_D,
  started executeLoad_C_E, started executeLoad_C_H, started executeLoad_C_L,
  started executeLoadIndirectCFromHL, started executeLoad_C_A,
  -- 0x50
  started executeLoad_D_B, started executeLoad_D_C, started executeLoad_D_D,
  started executeLoad_D_E, started executeLoad_D_H, started executeLoad_D_L,
  started executeLoadIndirectDFromHL, started executeLoad_D_A,
  -- 0x58
  started executeLoad_E_B, started executeLoad_E_C, started executeLoad_E_D,
  started executeLoad_E_E, started executeLoad_E_H, started executeLoad_E_L,
  started executeLoadIndirectEFromHL, started executeLoad_E_A,
  -- 0x60
  started executeLoad_H_B, started executeLoad_H_C, started executeLoad_H_D,
  started executeLoad_H_E, started executeLoad_H_H, started executeLoad_H_L,
  started executeLoadIndirectHFromHL, started executeLoad_H_A,
  -- 0x68
  started executeLoad_L_B, started executeLoad_L_C, started executeLoad_L_D,
  started executeLoad_L_E, started executeLoad_L_H, started executeLoad_L_L,
  started executeLoadIndirectLFromHL, started executeLoad_L_A,
  -- 0x70
  started executeLoadIndirectHLFromB, started executeLoadIndirectHLFromC,
  started executeLoadIndirectHLFromD, started executeLoadIndirectHLFromE,
  started executeLoadIndirectHLFromH, started executeLoadIndirectHLFromL, unimplementedOpcode,
  started executeLoadIndirectHLFromA,
  -- 0x78
  started executeLoad_A_B, started executeLoad_A_C, started executeLoad_A_D,
  started executeLoad_A_E, started executeLoad_A_H, started executeLoad_A_L,
  started executeLoadIndirectAFromHL, started executeLoad_A_A,
  -- 0x80
  started executeAddB, started executeAddC, started executeAddD, started executeAddE,
  started executeAddH, started executeAddL, started executeAddAFromIndirectHL,
  started executeAddA,
  -- 0x88
  started executeAdcB, started executeAdcC, started executeAdcD, started executeAdcE,
  started executeAdcH, started executeAdcL, started executeAdcAFromIndirectHL,
  started executeAdcA,
  -- 0x90
  started executeSubB, started executeSubC, started executeSubD, started executeSubE,
  started executeSubH, started executeSubL, started executeSubAFromIndirectHL,
  started executeSubA,
  -- 0x98
  started executeSbcB, started executeSbcC, started executeSbcD, started executeSbcE,
  started executeSbcH, started executeSbcL, started executeSbcAFromIndirectHL,
  started executeSbcA,
  -- 0xA0
  started executeAndB, started executeAndC, started executeAndD, started executeAndE,
  started executeAndH, started executeAndL, started executeAndAFromIndirectHL,
  started executeAndA,
  -- 0xA8
  started executeXorB, started executeXorC, started executeXorD, started executeXorE,
  started executeXorH, started executeXorL, started executeXorAFromIndirectHL,
  started executeXorA,
  -- 0xB0
  started executeOrB, started executeOrC, started executeOrD, started executeOrE,
  started executeOrH, started executeOrL, started executeOrAFromIndirectHL, started executeOrA,
  -- 0xB8
  started executeCpB, started executeCpC, started executeCpD, started executeCpE,
  started executeCpH, started executeCpL, started executeCpAFromIndirectHL, started executeCpA,
  -- 0xC0
  started executeRetNz, started executePopBC, started executeJumpNzA16, started executeJumpA16,
  started executeCallNzA16, started executePushBC, started executeAddAn8, started executeRst00,
  -- 0xC8
  started executeRetZ, started executeRet, started executeJumpZA16, unimplementedOpcode,
  started executeCallZA16, started executeCallA16, started executeAdcAn8, started executeRst08,
  -- 0xD0
  started executeRetNc, started executePopDE, started executeJumpNcA16, illegalOpcode,
  started executeCallNcA16, started executePushDE, started executeSubAn8, started executeRst10,
  -- 0xD8
  started executeRetC, started executeRetI, started executeJumpCA16, illegalOpcode,
  started executeCallCA16, illegalOpcode, started executeSbcAn8, started executeRst18,
  -- 0xE0
  started executeLoadIndirectA8FromA, started executePopHL, started executeLoadIndirectCFromA,
  illegalOpcode, illegalOpcode, started executePushHL, started executeAndAn8,
  started executeRst20,
  -- 0xE8
  unimplementedOpcode, started executeJumpHl, started executeLoadIndirectA16FromA, illegalOpcode,
  illegalOpcode, illegalOpcode, started executeXorAn8, started executeRst28,
  -- 0xF0
  started executeLoadAFromIndirectA8, started executePopAF, started executeLoadAFromIndirectC,
  started executeDi, illegalOpcode, started executePushAF, started executeOrAn8,
  started executeRst30,
  -- 0xF8
  started executeLoadSPFromHlPlusE8, started executeLoad_SP_HL,
  started executeLoadAFromIndirectA16, started executeEi, illegalOpcode, illegalOpcode,
  started executeCpAn8, started executeRst38]

end GbEmulator
