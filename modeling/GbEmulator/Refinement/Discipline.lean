import GbEmulator.Coroutine.Contract
import GbEmulator.Refinement.Dispatch

/-! The bus discipline that lets the opcode fetch share a step with the end of
an instruction. It holds on every path, whatever is written to the registers or
the memory between two resumptions. -/
namespace GbEmulator
open CpuRegisters UtilityLib Sm83 Coroutine

/-- No path throws, a resumption that suspends makes at most one bus access and
one that returns makes none. -/
def Disciplined (body : Handler Unit) : Prop :=
  body.Meets (fun transactions => transactions.length ≤ 1) (fun _ transactions => transactions = [])
    []

section Accessors
variable {yields : List (Transaction Word Byte) → Prop} {done : List (Transaction Word Byte)}
  (register : Register CpuRegisters w) {returns : BitVec w → List (Transaction Word Byte) → Prop}

@[simp] theorem meets_loadOf :
    Meets yields (loadOf register) returns done ↔
      ∀ registers, returns (register.load registers) done := Iff.rfl

@[simp] theorem meets_valueOf :
    Meets yields (valueOf register) returns done ↔
      ∀ registers, returns (register.value registers) done := Iff.rfl

@[simp] theorem meets_increment :
    Meets yields (increment register) returns done ↔
      ∀ registers, returns (register.postIncrement registers).1 done := Iff.rfl

@[simp] theorem meets_decrement :
    Meets yields (decrement register) returns done ↔
      ∀ registers, returns (register.postDecrement registers).1 done := Iff.rfl

end Accessors

section Handlers

attribute [local simp] Disciplined GbEmulator.readFromAddress GbEmulator.writeToAddress
  GbEmulator.coYield

theorem handler_disciplined (instruction : Instruction) : Disciplined instruction.handler := by
  cases instruction with
  | nop => simp [Instruction.handler, executeNoop]
  | load destination source => simp [Instruction.handler, executeLoadRegReg]
  | loadImmediate destination => simp [Instruction.handler, executeLoadRegN8]
  | loadFromHl destination => simp [Instruction.handler, executeLoadRIndirectRr]
  | storeToHl source => simp [Instruction.handler, executeLoadIndirectFrom]
  | storeImmediateToHl => simp [Instruction.handler, executeLoadIndirectHlN8]
  | loadIndirect pointer => simp [Instruction.handler, executeLoadRIndirectRr]
  | storeIndirect pointer => simp [Instruction.handler, executeLoadIndirectFrom]
  | loadHighImmediate => simp [Instruction.handler, executeLoadAFromIndirectA8]
  | storeHighImmediate => simp [Instruction.handler, executeLoadIndirectA8FromA]
  | loadHighC => simp [Instruction.handler, executeLoadAFromIndirectC]
  | storeHighC => simp [Instruction.handler, executeLoadIndirectCFromA]
  | loadAbsolute => simp [Instruction.handler, executeLoadAFromIndirectA16]
  | storeAbsolute => simp [Instruction.handler, executeLoadIndirectA16FromA]
  | loadPairImmediate destination => simp [Instruction.handler, executeLoadRegN16]
  | storeSp => simp [Instruction.handler, executeLoadA16SP]
  | loadSpHl => simp [Instruction.handler, executeLoadReg16Reg16]
  | loadHlSpOffset => simp [Instruction.handler, executeLoadSPFromHlPlusE8]
  | push source => simp [Instruction.handler, executePushRr]
  | pop destination => simp [Instruction.handler, executePopRr]
  | alu operation source => simp [Instruction.handler, executeMathOperandR]
  | aluFromHl operation => simp [Instruction.handler, executeMathFromIndirectHL]
  | aluImmediate operation => simp [Instruction.handler, executeMathN8]
  | increment target => simp [Instruction.handler, executeIncR]
  | decrement target => simp [Instruction.handler, executeDecR]
  | incrementPair target => simp [Instruction.handler, executeIncRR]
  | decrementPair target => simp [Instruction.handler, executeDecRR]
  | rotate rotation =>
    cases rotation <;> simp [Instruction.handler, Rotation.handler, executeRlca, executeRrca,
      executeRla, executeRra]
  | complement => simp [Instruction.handler, executeCpl]
  | complementCarry => simp [Instruction.handler, executeCcf]
  | jump condition => simp [Instruction.handler, executeJump]
  | jumpRelative condition => simp [Instruction.handler, executeJumpRelative]
  | call condition => simp [Instruction.handler, executeCall]
  | jumpHl => simp [Instruction.handler, executeJumpHl]
  | ret => simp [Instruction.handler, executeRet]
  | retIf condition => simp [Instruction.handler, executeRetConditional]
  | reti => simp [Instruction.handler, executeRetI]
  | restart vector => simp [Instruction.handler, executeRst]
  | disableInterrupts => simp [Instruction.handler, executeDi]
  | enableInterrupts => simp [Instruction.handler, executeEi]

end Handlers
end GbEmulator
