import GbEmulator.Bits.Masks
import GbEmulator.Refinement.Registers
import GbEmulator.Utility.Carries

/-! The flag helpers and the arithmetic behind them. The source tests masks with
`> 0` and rebuilds F from its parts; the specification has four booleans and
natural-number comparisons. -/
namespace GbEmulator
open CpuRegisters UtilityLib Sm83

section Tests
variable (data : Byte)

theorem bit_seven_test : decide (data &&& bitMask 7 > 0) = data.getLsbD 7 :=
  Mask.positive_test data (by decide)

theorem bit_three_test : decide (data &&& bitMask 3 > 0) = data.getLsbD 3 :=
  Mask.positive_test data (by decide)

theorem zero_test : decide (data &&& CpuFlags.zero > 0) = data.getLsbD 7 :=
  Mask.positive_test data (by decide)

theorem nonZero_test : (data &&& CpuFlags.zero == 0) = !data.getLsbD 7 :=
  Mask.clear_test data (by decide)

theorem carry_test : decide (data &&& CpuFlags.carry > 0) = data.getLsbD 4 :=
  Mask.positive_test data (by decide)

theorem nonCarry_test : (data &&& CpuFlags.carry == 0) = !data.getLsbD 4 :=
  Mask.clear_test data (by decide)

end Tests

section Predicates
variable (registers : CpuRegisters)

@[simp] theorem carryIn_visible : carryIn registers = registers.visible.carryFlag :=
  carry_test _

@[simp] theorem predicate_takes (condition : Option Condition) :
    predicate condition registers = registers.visible.takes condition := by
  rcases condition with - | (_ | _ | _ | _)
  · rfl
  · exact nonZero_test _
  · exact zero_test _
  · exact nonCarry_test _
  · exact carry_test _

@[simp] theorem takes_some (state : State) (condition : Condition) :
    state.takes (some condition) = state.holds condition := rfl

end Predicates

section Assembly
variable (result carries : Byte) (registers : CpuRegisters)

theorem flags_assembled (zero halfCarry carry : Bool) :
    (flagIf zero CpuFlags.zero ||| flagIf halfCarry CpuFlags.halfCarry |||
        flagIf carry CpuFlags.carry) = Flags.toByte ⟨zero, false, halfCarry, carry⟩ := by
  cases zero <;> cases halfCarry <;> cases carry <;> rfl

theorem subtraction_flags_assembled (zero halfCarry carry : Bool) :
    (CpuFlags.subtract ||| flagIf zero CpuFlags.zero ||| flagIf halfCarry CpuFlags.halfCarry |||
        flagIf carry CpuFlags.carry) = Flags.toByte ⟨zero, true, halfCarry, carry⟩ := by
  cases zero <;> cases halfCarry <;> cases carry <;> rfl

@[simp] theorem visible_additionFlags :
    (applyAdditionFlags result carries registers).visible =
      registers.visible.setFlags
        ⟨result == 0, false, carries.getLsbD 3, carries.getLsbD 7⟩ := by
  rw [applyAdditionFlags, flags_assembled, bit_three_test, bit_seven_test]
  exact visible_writeFlags registers _

@[simp] theorem visible_subtractionFlags :
    (applySubtractionFlags result carries registers).visible =
      registers.visible.setFlags
        ⟨result == 0, true, carries.getLsbD 3, carries.getLsbD 7⟩ := by
  rw [applySubtractionFlags, subtraction_flags_assembled, bit_three_test, bit_seven_test]
  exact visible_writeFlags registers _

@[simp] theorem visible_andFlags :
    (applyAndFlags result carries registers).visible =
      registers.visible.setFlags ⟨result == 0, false, true, false⟩ := by
  rw [applyAndFlags, visible_writeFlags]
  cases result == 0 <;> rfl

@[simp] theorem visible_orFlags :
    (applyOrFlags result carries registers).visible =
      registers.visible.setFlags ⟨result == 0, false, false, false⟩ := by
  rw [applyOrFlags, visible_writeFlags]
  cases result == 0 <;> rfl

@[simp] theorem visible_xorFlags :
    (applyXorFlags result carries registers).visible =
      registers.visible.setFlags ⟨result == 0, false, false, false⟩ :=
  visible_orFlags result carries registers

end Assembly

section Arithmetic
variable (left right : Byte) (carry : Bool)

theorem addWithCarryIn_sum :
    let computed := addWithCarryIn left right carry
    computed.result = (sum left right carry).1 ∧
      ⟨computed.result == 0, false, computed.carryBits.getLsbD 3, computed.carryBits.getLsbD 7⟩ =
        (sum left right carry).2 := by
  have result : (addWithCarryIn left right carry).result = (sum left right carry).1 := by
    rw [addWithCarryIn_result]
    simp [sum, BitVec.ofNat_add]
  refine ⟨result, ?_⟩
  have nibble : (addWithCarryIn left right carry).carryBits.getLsbD 3 =
      decide (left.toNat % 16 + right.toNat % 16 + carry.toNat > 15) :=
    addWithCarryIn_carry (by decide) left right carry
  have byte : (addWithCarryIn left right carry).carryBits.getLsbD 7 =
      decide (left.toNat + right.toNat + carry.toNat > 255) := by
    rw [addWithCarryIn_carry (by decide), decide_eq_decide]
    have := left.isLt
    have := right.isLt
    omega
  rw [result, nibble, byte]
  rfl

theorem addWithCarry_nibble :
    (addWithCarry left right).carryBits.getLsbD 3 =
      decide (left.toNat % 16 + right.toNat % 16 > 15) :=
  congrArg Flags.halfCarry (addWithCarryIn_sum left right false).2

theorem addWithCarry_byte :
    (addWithCarry left right).carryBits.getLsbD 7 = decide (left.toNat + right.toNat > 255) :=
  congrArg Flags.carry (addWithCarryIn_sum left right false).2

theorem subWithBorrowIn_difference :
    let computed := subWithBorrowIn left right carry
    computed.result = (difference left right carry).1 ∧
      ⟨computed.result == 0, true, computed.carryBits.getLsbD 3, computed.carryBits.getLsbD 7⟩ =
        (difference left right carry).2 := by
  have result : (subWithBorrowIn left right carry).result = (difference left right carry).1 :=
    subWithBorrowIn_result left right carry
  refine ⟨result, ?_⟩
  have nibble : (subWithBorrowIn left right carry).carryBits.getLsbD 3 =
      decide (left.toNat % 16 < right.toNat % 16 + carry.toNat) :=
    subWithBorrowIn_borrow (by decide) left right carry
  have byte : (subWithBorrowIn left right carry).carryBits.getLsbD 7 =
      decide (left.toNat < right.toNat + carry.toNat) := by
    rw [subWithBorrowIn_borrow (by decide), decide_eq_decide]
    have := left.isLt
    have := right.isLt
    omega
  rw [result, nibble, byte]
  rfl

variable (operation : AluOperation) (registers other : CpuRegisters)

theorem operand_result :
    (operation.operand registers left right).result =
      (operation.apply left right registers.visible.carryFlag).1 := by
  rw [← carryIn_visible]
  cases operation with
  | add => exact (addWithCarryIn_sum left right false).1
  | adc => exact (addWithCarryIn_sum left right _).1
  | sub => exact (subWithBorrowIn_difference left right false).1
  | cp => exact (subWithBorrowIn_difference left right false).1
  | sbc => exact (subWithBorrowIn_difference left right _).1
  | and => rfl
  | xor => rfl
  | or => rfl

/-- The helper an operation is paired with in the table leaves its flags. -/
theorem visible_flagFunction :
    let computed := operation.operand registers left right
    (operation.flagFunction computed.result computed.carryBits other).visible =
      other.visible.setFlags (operation.apply left right registers.visible.carryFlag).2 := by
  rw [← carryIn_visible]
  have addition (carry : Bool) := (visible_additionFlags _ _ other).trans
    (congrArg other.visible.setFlags (addWithCarryIn_sum left right carry).2)
  have subtraction (carry : Bool) := (visible_subtractionFlags _ _ other).trans
    (congrArg other.visible.setFlags (subWithBorrowIn_difference left right carry).2)
  cases operation with
  | add => exact addition false
  | adc => exact addition (carryIn registers)
  | sub => exact subtraction false
  | cp => exact subtraction false
  | sbc => exact subtraction (carryIn registers)
  | and => exact visible_andFlags _ 0 other
  | xor => exact visible_xorFlags _ 0 other
  | or => exact visible_orFlags _ 0 other

end Arithmetic
end GbEmulator
