import GbEmulator.Refinement.Loads
import GbEmulator.Refinement.Arithmetic
import GbEmulator.Refinement.Control

/-! Every handler of the opcode table follows the instruction it is decoded from. -/
namespace GbEmulator
open Sm83

theorem handler_follows [Store μ Word Byte] (instruction : Instruction) :
    Follows μ instruction.handler instruction := by
  cases instruction with
  | nop => exact executeNoop_follows
  | load destination source => exact executeLoadRegReg_follows destination source
  | loadImmediate destination => exact executeLoadRegN8_follows destination
  | loadFromHl destination => exact executeLoadFromHl_follows destination
  | storeToHl source => exact executeStoreToHl_follows source
  | storeImmediateToHl => exact executeLoadIndirectHlN8_follows
  | loadIndirect pointer => exact executeLoadRIndirectRr_follows pointer
  | storeIndirect pointer => exact executeLoadIndirectFrom_follows pointer
  | loadHighImmediate => exact executeLoadAFromIndirectA8_follows
  | storeHighImmediate => exact executeLoadIndirectA8FromA_follows
  | loadHighC => exact executeLoadAFromIndirectC_follows
  | storeHighC => exact executeLoadIndirectCFromA_follows
  | loadAbsolute => exact executeLoadAFromIndirectA16_follows
  | storeAbsolute => exact executeLoadIndirectA16FromA_follows
  | loadPairImmediate destination => exact executeLoadRegN16_follows destination
  | storeSp => exact executeLoadA16SP_follows
  | loadSpHl => exact executeLoadReg16Reg16_follows
  | loadHlSpOffset => exact executeLoadSPFromHlPlusE8_follows
  | push source => exact executePushRr_follows source
  | pop destination => exact executePopRr_follows destination
  | alu operation source => exact executeMathOperandR_follows operation source
  | aluFromHl operation => exact executeMathFromIndirectHL_follows operation
  | aluImmediate operation => exact executeMathN8_follows operation
  | increment target => exact executeIncR_follows target
  | decrement target => exact executeDecR_follows target
  | incrementPair target => exact executeIncRR_follows target
  | decrementPair target => exact executeDecRR_follows target
  | rotate rotation => exact rotation_follows rotation
  | complement => exact executeCpl_follows
  | complementCarry => exact executeCcf_follows
  | jump condition => exact executeJump_follows condition
  | jumpRelative condition => exact executeJumpRelative_follows condition
  | call condition => exact executeCall_follows condition
  | jumpHl => exact executeJumpHl_follows
  | ret => exact executeRet_follows
  | retIf condition => exact executeRetConditional_follows condition
  | reti => exact executeRetI_follows
  | restart vector => exact executeRst_follows vector
  | disableInterrupts => exact executeDi_follows
  | enableInterrupts => exact executeEi_follows

end GbEmulator
