import GbEmulator.Handlers.OpcodeHandlerMap
import GbEmulator.InstructionSet.Instruction

/-! The hand-written opcode table agrees with the field decoder: each slot holds
the handler template of the decoded instruction, at the accessors its fields name. -/
namespace GbEmulator.Sm83
open CpuRegisters

def Register8.location : Register8 → Register8Bit
  | .a => registerA
  | .b => registerB
  | .c => registerC
  | .d => registerD
  | .e => registerE
  | .h => registerH
  | .l => registerL

def Register16.location : Register16 → Register16Bit
  | .bc => registerBC
  | .de => registerDE
  | .hl => registerHL
  | .sp => registerSP

def StackRegister.location : StackRegister → Register16Bit
  | .bc => registerBC
  | .de => registerDE
  | .hl => registerHL
  | .af => registerAF

def Pointer.location : Pointer → Register16Bit
  | .bc => registerBC
  | .de => registerDE
  | .hlIncrement | .hlDecrement => registerHL

def Pointer.modifier : Pointer → RegisterModifier
  | .bc | .de => registerNoModifier
  | .hlIncrement => register16BitIncrement
  | .hlDecrement => register16BitDecrement

def predicate : Option Condition → CpuRegisterPredicate
  | none => alwaysTrue
  | some .nz => nonZero
  | some .z => zero
  | some .nc => nonCarry
  | some .c => carry

def AluOperation.operand : AluOperation → MathOperand
  | .add => addOperand
  | .adc => adcWithCarryWrapper
  | .sub | .cp => subOperand
  | .sbc => sbcWithBorrowWrapper
  | .and => andOperand
  | .xor => xorOperand
  | .or => orOperand

def AluOperation.flagFunction : AluOperation → SetFlagFunction
  | .add | .adc => applyAdditionFlags
  | .sub | .sbc | .cp => applySubtractionFlags
  | .and => applyAndFlags
  | .xor => applyXorFlags
  | .or => applyOrFlags

/-- CP sends its result to Z, or nowhere in the form that reads from HL. -/
def AluOperation.sink : AluOperation → Register8Bit
  | .cp => registerZ
  | _ => registerA

def AluOperation.keep : AluOperation → Byte → CpuRegisters → CpuRegisters
  | .cp => fun _ registers => registers
  | _ => accumulator.assign

def Rotation.handler : Rotation → Handler Unit
  | .rlca => executeRlca
  | .rrca => executeRrca
  | .rla => executeRla
  | .rra => executeRra

def Instruction.handler : Instruction → Handler Unit
  | .nop => executeNoop
  | .load destination source => executeLoadRegReg destination.location source.location
  | .loadImmediate destination => executeLoadRegN8 destination.location
  | .loadFromHl destination =>
      executeLoadRIndirectRr destination.location registerHL registerNoModifier
  | .storeToHl source => executeLoadIndirectFrom registerHL source.location registerNoModifier
  | .storeImmediateToHl => executeLoadIndirectHlN8
  | .loadIndirect pointer => executeLoadRIndirectRr registerA pointer.location pointer.modifier
  | .storeIndirect pointer => executeLoadIndirectFrom pointer.location registerA pointer.modifier
  | .loadHighImmediate => executeLoadAFromIndirectA8
  | .storeHighImmediate => executeLoadIndirectA8FromA
  | .loadHighC => executeLoadAFromIndirectC
  | .storeHighC => executeLoadIndirectCFromA
  | .loadAbsolute => executeLoadAFromIndirectA16
  | .storeAbsolute => executeLoadIndirectA16FromA
  | .loadPairImmediate destination => executeLoadRegN16 destination.location
  | .storeSp => executeLoadA16SP
  | .loadSpHl => executeLoadReg16Reg16 registerSP registerHL
  | .loadHlSpOffset => executeLoadSPFromHlPlusE8
  | .push source => executePushRr source.location
  | .pop destination => executePopRr destination.location
  | .alu operation source =>
      executeMathOperandR source.location operation.operand operation.flagFunction operation.sink
  | .aluFromHl operation =>
      executeMathFromIndirectHL operation.operand operation.flagFunction operation.keep
  | .aluImmediate operation =>
      executeMathN8 operation.operand operation.flagFunction operation.sink
  | .increment target => executeIncR target.location
  | .decrement target => executeDecR target.location
  | .incrementPair target => executeIncRR target.location
  | .decrementPair target => executeDecRR target.location
  | .rotate rotation => rotation.handler
  | .complement => executeCpl
  | .complementCarry => executeCcf
  | .jump condition => executeJump (predicate condition)
  | .jumpRelative condition => executeJumpRelative (predicate condition)
  | .call condition => executeCall (predicate condition)
  | .jumpHl => executeJumpHl
  | .ret => executeRet
  | .retIf condition => executeRetConditional (predicate (some condition))
  | .reti => executeRetI
  | .restart vector => executeRst (vector.setWidth 16 <<< 3)
  | .disableInterrupts => executeDi
  | .enableInterrupts => executeEi

def Decoded.opcodeHandler : Decoded → OpcodeHandler
  | .implemented instruction => started instruction.handler
  | .unimplemented => unimplementedOpcode
  | .illegal => illegalOpcode

set_option maxRecDepth 10000 in
theorem createOpcodeHandlers_rows :
    createOpcodeHandlers.toList =
      (List.range 256).map fun index => (decode (BitVec.ofNat 8 index)).opcodeHandler := rfl

theorem createOpcodeHandlers_decode (opcode : Byte) :
    createOpcodeHandlers[opcode.toFin] = (decode opcode).opcodeHandler := by
  have row := congrArg (fun rows => rows[opcode.toNat]?) createOpcodeHandlers_rows
  have bound : opcode.toNat < 256 := opcode.isLt
  simpa [bound] using row

end GbEmulator.Sm83
