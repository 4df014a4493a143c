import GbEmulator.InstructionSet.Machine

/-! How long an instruction takes, how many bytes it occupies and whether it
transfers control, with what its schedule says about each. -/
namespace GbEmulator.Sm83

/-- Machine cycles, the one that fetches the next opcode included. -/
def Instruction.mCycles (state : State) : Instruction → Nat
  | .nop | .load _ _ | .alu _ _ | .increment _ | .decrement _ | .rotate _ | .complement
  | .complementCarry | .jumpHl | .disableInterrupts | .enableInterrupts => 1
  | .loadImmediate _ | .aluImmediate _ | .loadFromHl _ | .storeToHl _ | .aluFromHl _
  | .loadIndirect _ | .storeIndirect _ | .loadHighC | .storeHighC | .incrementPair _
  | .decrementPair _ | .loadSpHl => 2
  | .loadPairImmediate _ | .pop _ | .storeImmediateToHl | .loadHighImmediate
  | .storeHighImmediate | .loadHlSpOffset => 3
  | .ret | .reti | .push _ | .restart _ | .storeAbsolute | .loadAbsolute => 4
  | .storeSp => 5
  | .jumpRelative condition => if state.takes condition then 3 else 2
  | .retIf condition => if state.holds condition then 5 else 2
  | .jump condition => if state.takes condition then 4 else 3
  | .call condition => if state.takes condition then 6 else 3

/-- Bytes, the opcode included. -/
def Instruction.length : Instruction → Nat
  | .loadImmediate _ | .aluImmediate _ | .storeImmediateToHl | .loadHighImmediate
  | .storeHighImmediate | .loadHlSpOffset | .jumpRelative _ => 2
  | .loadPairImmediate _ | .storeAbsolute | .loadAbsolute | .storeSp | .jump _ | .call _ => 3
  | _ => 1

def Instruction.transfers (state : State) : Instruction → Bool
  | .jump condition | .jumpRelative condition | .call condition => state.takes condition
  | .retIf condition => state.holds condition
  | .jumpHl | .ret | .reti | .restart _ => true
  | _ => false

theorem Instruction.length_pos (instruction : Instruction) : 0 < instruction.length := by
  cases instruction <;> exact Nat.succ_pos _

section
variable {μ : Type u} [Store μ Word Byte] (state : State) (memory : μ)

attribute [local simp] Instruction.schedule Instruction.mCycles fetchImmediate fetchImmediateWord
  popCycles pushCycles returnCycles idle State.skip Instruction.length Instruction.transfers

theorem schedule_length (instruction : Instruction) :
    (instruction.schedule state memory).length = instruction.mCycles state := by
  cases instruction with
  | jump condition => cases taken : state.takes condition <;> simp [taken]
  | jumpRelative condition => cases taken : state.takes condition <;> simp [taken]
  | call condition => cases taken : state.takes condition <;> simp [taken]
  | retIf condition => cases taken : state.holds condition <;> simp [taken]
  | _ => simp

/-- The last cycle makes no access, and PC has passed the instruction unless it
transferred control. -/
theorem schedule_last (instruction : Instruction) :
    ∃ final finalMemory,
      (instruction.schedule state memory).getLast? = some (idle final finalMemory) ∧
        (instruction.transfers state = false →
          final.pc = state.pc + BitVec.ofNat 16 (instruction.length - 1)) := by
  cases instruction with
  | jump condition => cases taken : state.takes condition <;> simp [taken]
  | jumpRelative condition => cases taken : state.takes condition <;> simp [taken]
  | call condition => cases taken : state.takes condition <;> simp [taken]
  | retIf condition => cases taken : state.holds condition <;> simp [taken]
  | _ => simp

theorem schedule_pos (instruction : Instruction) :
    0 < (instruction.schedule state memory).length := by
  obtain ⟨final, finalMemory, ends, -⟩ := schedule_last state memory instruction
  exact List.length_pos_of_mem (List.mem_of_getLast? ends)

end
end GbEmulator.Sm83
