import GbEmulator.Refinement.Follows

/-! Jumps, calls, returns and the interrupt switches follow their instructions. -/
namespace GbEmulator
open CpuRegisters UtilityLib Sm83 Coroutine

/-- The three-way adjustment of the high byte is addition of the sign extension. -/
theorem relative_target (counter : Word) (offset : Byte) :
    let ⟨result, carryPerBit⟩ := addWithCarry offset (Word.lower (0xFF &&& counter))
    let zSign : Bool := offset &&& bitMask 7 != 0
    let adj : Byte :=
      if carryPerBit &&& bitMask 7 > 0 && !zSign then 1
      else if carryPerBit &&& bitMask 7 == 0 && zSign then -1
      else 0
    Word.ofBytes (Word.lower (0xFF &&& (counter >>> 8)) + adj) result =
      counter + offset.signExtend 16 := by
  have low : Word.lower (0xFF &&& counter) = Word.lower counter := by
    rw [BitVec.and_comm]
    exact lower_masked counter
  have high : Word.lower (0xFF &&& (counter >>> 8)) = Word.upper counter := by
    rw [BitVec.and_comm]
    exact lower_masked (counter >>> 8)
  have sign : (offset &&& bitMask 7 != 0) = offset.getLsbD 7 :=
    Mask.set_test offset (by decide)
  have untouched (data : Byte) : (data &&& bitMask 7 == 0) = !data.getLsbD 7 :=
    Mask.clear_test data (by decide)
  dsimp only
  apply Word.ext_halves
  · rw [low, high, sign, untouched, bit_seven_test, addWithCarry_byte, Word.upper_ofBytes,
      Word.upper_add, Word.upper_signExtend, Word.lower_signExtend]
    rw [Nat.add_comm offset.toNat]
    by_cases carried : (Word.lower counter).toNat + offset.toNat > 255 <;>
      cases offset.getLsbD 7 <;> simp [carried, BitVec.add_assoc]
  · rw [low, Word.lower_ofBytes, Word.lower_add, Word.lower_signExtend]
    exact BitVec.add_comm offset _

section Families
variable {μ : Type u} [Store μ Word Byte]

attribute [local simp] Follows segments Segment.map Instruction.schedule idle reading writing
  GbEmulator.readFromAddress GbEmulator.writeToAddress GbEmulator.coYield fetchImmediate
  fetchImmediateWord immediate immediateWord popCycles pushCycles returnCycles stackTop pushed
  State.skip State.hl

theorem executeNoop_follows : Follows μ executeNoop .nop := by
  simp [executeNoop]

theorem executeJumpHl_follows : Follows μ executeJumpHl .jumpHl := by
  simp [executeJumpHl]

theorem executeJump_follows (condition : Option Condition) :
    Follows μ (executeJump (predicate condition)) (.jump condition) := by
  intro registers memory
  cases taken : registers.visible.takes condition <;> simp [executeJump, taken]

theorem executeCall_follows (condition : Option Condition) :
    Follows μ (executeCall (predicate condition)) (.call condition) := by
  intro registers memory
  cases taken : registers.visible.takes condition <;> simp [executeCall, taken]

theorem executeJumpRelative_follows (condition : Option Condition) :
    Follows μ (executeJumpRelative (predicate condition)) (.jumpRelative condition) := by
  intro registers memory
  have target := relative_target (registers.visible.pc + 1) (Store.load memory registers.visible.pc)
  cases taken : registers.visible.takes condition with
  | false => simp [executeJumpRelative, taken]
  | true => simpa [executeJumpRelative, taken, ← BitVec.add_assoc] using target

theorem executeRst_follows (vector : BitVec 3) :
    Follows μ (executeRst (vector.setWidth 16 <<< 3)) (.restart vector) := by
  simp [executeRst]

theorem executeRet_follows : Follows μ executeRet .ret := by
  simp [executeRet]

theorem executeRetI_follows : Follows μ executeRetI .reti := by
  simp [executeRetI]

theorem executeRetConditional_follows (condition : Condition) :
    Follows μ (executeRetConditional (predicate (some condition))) (.retIf condition) := by
  intro registers memory
  cases taken : registers.visible.holds condition <;> simp [executeRetConditional, taken]

theorem executeDi_follows : Follows μ executeDi .disableInterrupts := by
  simp [executeDi]

theorem executeEi_follows : Follows μ executeEi .enableInterrupts := by
  intro registers memory
  by_cases disabled : registers.visible.interrupts = .disabled <;> simp [executeEi, disabled]

end Families
end GbEmulator
