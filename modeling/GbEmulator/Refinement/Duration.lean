import GbEmulator.Coroutine.Duration
import GbEmulator.InstructionSet.Timing
import GbEmulator.Refinement.Conditions

/-! Handlers take the machine cycles of their instructions on every path. -/
namespace GbEmulator
open CpuRegisters UtilityLib Sm83 Coroutine

/-- Some flags give the instruction this many machine cycles. -/
def Sm83.Instruction.Lasts (instruction : Instruction) (cycles : Nat) : Prop :=
  ∃ state, instruction.mCycles state = cycles

/-- The resumption that returns is one cycle more than there were suspensions. -/
def Paces (instruction : Instruction) (elapsed : Nat) (body : Handler Unit) : Prop :=
  body.Takes (fun _ suspensions => instruction.Lasts (suspensions + 1)) elapsed

section Accessors
variable {count : Nat} (register : Register CpuRegisters w) {returns : BitVec w → Nat → Prop}

@[simp] theorem takes_loadOf :
    Takes (loadOf register) returns count ↔
      ∀ registers, returns (register.load registers) count := Iff.rfl

@[simp] theorem takes_valueOf :
    Takes (valueOf register) returns count ↔
      ∀ registers, returns (register.value registers) count := Iff.rfl

@[simp] theorem takes_increment :
    Takes (increment register) returns count ↔
      ∀ registers, returns (register.postIncrement registers).1 count := Iff.rfl

@[simp] theorem takes_decrement :
    Takes (decrement register) returns count ↔
      ∀ registers, returns (register.postDecrement registers).1 count := Iff.rfl

end Accessors

section Handlers

attribute [local simp] Paces Instruction.Lasts Instruction.mCycles Instruction.handler
  GbEmulator.readFromAddress GbEmulator.writeToAddress GbEmulator.coYield

instance : Nonempty CpuRegisters := ⟨{}⟩

instance : Nonempty State := ⟨({} : CpuRegisters).visible⟩

/-- A branch that some registers take is a branch that some state takes. -/
theorem branch_witness (view : State → Bool) (registers : CpuRegisters) :
    if view registers.visible = true then ∃ state, view state = true
    else ∃ state, view state = false := by
  by_cases taken : view registers.visible = true
  · rw [if_pos taken]
    exact ⟨_, taken⟩
  · rw [if_neg taken]
    exact ⟨_, Bool.eq_false_iff.mpr taken⟩

theorem handler_paces (instruction : Instruction) : Paces instruction 0 instruction.handler := by
  cases instruction with
  | nop => simp [executeNoop]
  | load destination source => simp [executeLoadRegReg]
  | loadImmediate destination => simp [executeLoadRegN8]
  | loadFromHl destination => simp [executeLoadRIndirectRr]
  | storeToHl source => simp [executeLoadIndirectFrom]
  | storeImmediateToHl => simp [executeLoadIndirectHlN8]
  | loadIndirect pointer => simp [executeLoadRIndirectRr]
  | storeIndirect pointer => simp [executeLoadIndirectFrom]
  | loadHighImmediate => simp [executeLoadAFromIndirectA8]
  | storeHighImmediate => simp [executeLoadIndirectA8FromA]
  | loadHighC => simp [executeLoadAFromIndirectC]
  | storeHighC => simp [executeLoadIndirectCFromA]
  | loadAbsolute => simp [executeLoadAFromIndirectA16]
  | storeAbsolute => simp [executeLoadIndirectA16FromA]
  | loadPairImmediate destination => simp [executeLoadRegN16]
  | storeSp => simp [executeLoadA16SP]
  | loadSpHl => simp [executeLoadReg16Reg16]
  | loadHlSpOffset => simp [executeLoadSPFromHlPlusE8]
  | push source => simp [executePushRr]
  | pop destination => simp [executePopRr]
  | alu operation source => simp [executeMathOperandR]
  | aluFromHl operation => simp [executeMathFromIndirectHL]
  | aluImmediate operation => simp [executeMathN8]
  | increment target => simp [executeIncR]
  | decrement target => simp [executeDecR]
  | incrementPair target => simp [executeIncRR]
  | decrementPair target => simp [executeDecRR]
  | rotate rotation =>
    cases rotation <;> simp [Rotation.handler, executeRlca, executeRrca, executeRla, executeRra]
  | complement => simp [executeCpl]
  | complementCarry => simp [executeCcf]
  | jump condition => simpa [executeJump] using branch_witness (State.takes · condition)
  | jumpRelative condition =>
    simpa [executeJumpRelative] using branch_witness (State.takes · condition)
  | call condition => simpa [executeCall] using branch_witness (State.takes · condition)
  | jumpHl => simp [executeJumpHl]
  | ret => simp [executeRet]
  | retIf condition =>
    simpa [executeRetConditional] using branch_witness (State.holds · condition)
  | reti => simp [executeRetI]
  | restart vector => simp [executeRst]
  | disableInterrupts => simp [executeDi]
  | enableInterrupts => simp [executeEi]

end Handlers
end GbEmulator
