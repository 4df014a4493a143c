import GbEmulator.InstructionSet.Fields
import GbEmulator.Utility.Carries

/-! Eight-bit arithmetic and logic stated over the integers: the result modulo 256
and the four flags of each operation, for whatever operand it is given. -/
namespace GbEmulator.Sm83

/-- Sum with a carry in. -/
def IsSum (left right : Byte) (carry : Bool) (result : Byte) (flags : Flags) : Prop :=
  result.toNat = (left.toNat + right.toNat + carry.toNat) % 256 ∧ flags.subtract = false ∧
    (flags.halfCarry = true ↔ left.toNat % 16 + right.toNat % 16 + carry.toNat > 15) ∧
    (flags.carry = true ↔ left.toNat + right.toNat + carry.toNat > 255)

/-- Difference with a borrow in. -/
def IsDifference (left right : Byte) (borrow : Bool) (result : Byte) (flags : Flags) : Prop :=
  (result.toNat : Int) = (left.toNat - right.toNat - borrow.toNat : Int) % 256 ∧
    flags.subtract = true ∧
    (flags.halfCarry = true ↔ left.toNat % 16 < right.toNat % 16 + borrow.toNat) ∧
    (flags.carry = true ↔ left.toNat < right.toNat + borrow.toNat)

def IsLogical (combined : Byte) (halfCarry : Bool) (result : Byte) (flags : Flags) : Prop :=
  result = combined ∧ flags.subtract = false ∧ flags.halfCarry = halfCarry ∧ flags.carry = false

/-- Result and flags of an operation; Z tells in every case whether the result is 0. -/
def AluOperation.Law (left right : Byte) (carry : Bool) (result : Byte) (flags : Flags)
    (operation : AluOperation) : Prop :=
  (flags.zero = true ↔ result.toNat = 0) ∧
    match operation with
    | .add => IsSum left right false result flags
    | .adc => IsSum left right carry result flags
    | .sub | .cp => IsDifference left right false result flags
    | .sbc => IsDifference left right carry result flags
    | .and => IsLogical (left &&& right) true result flags
    | .xor => IsLogical (left ^^^ right) false result flags
    | .or => IsLogical (left ||| right) false result flags

section
variable (left right : Byte) (carry : Bool)

theorem sum_law : IsSum left right carry (sum left right carry).1 (sum left right carry).2 :=
  ⟨BitVec.toNat_ofNat _ _, rfl, decide_eq_true_iff, decide_eq_true_iff⟩

theorem difference_law :
    IsDifference left right carry (difference left right carry).1 (difference left right carry).2 :=
  ⟨UtilityLib.toNat_subBorrow left right carry, rfl, decide_eq_true_iff, decide_eq_true_iff⟩

theorem logical_law (combined : Byte) (halfCarry : Bool) :
    IsLogical combined halfCarry (logical combined halfCarry).1 (logical combined halfCarry).2 :=
  ⟨rfl, rfl, rfl, rfl⟩

theorem zero_iff (result : Byte) : (result == 0) = true ↔ result.toNat = 0 := by
  rw [beq_iff_eq, ← BitVec.toNat_inj]
  rfl

theorem apply_law (operation : AluOperation) :
    operation.Law left right carry (operation.apply left right carry).1
      (operation.apply left right carry).2 := by
  cases operation with
  | add => exact ⟨zero_iff _, sum_law left right false⟩
  | adc => exact ⟨zero_iff _, sum_law left right carry⟩
  | sub => exact ⟨zero_iff _, difference_law left right false⟩
  | sbc => exact ⟨zero_iff _, difference_law left right carry⟩
  | and => exact ⟨zero_iff _, logical_law _ _⟩
  | xor => exact ⟨zero_iff _, logical_law _ _⟩
  | or => exact ⟨zero_iff _, logical_law _ _⟩
  | cp => exact ⟨zero_iff _, difference_law left right false⟩

end

/-- Only ADC and SBC read the carry. -/
theorem apply_carry (operation : AluOperation) (left right : Byte) {carry other : Bool}
    (same : operation = .adc ∨ operation = .sbc → carry = other) :
    operation.apply left right carry = operation.apply left right other := by
  cases operation with
  | adc => rw [same (.inl rfl)]
  | sbc => rw [same (.inr rfl)]
  | _ => rfl

theorem State.alu_flags (state : State) (operation : AluOperation) (operand : Byte) :
    (state.alu operation operand).flags =
      (operation.apply state.a operand state.carryFlag).2 :=
  Flags.ofByte_toByte _

theorem State.alu_agrees {left right : State} (operation : AluOperation) (operand : Byte)
    (accumulator : left.a = right.a)
    (carry : operation = .adc ∨ operation = .sbc → left.carryFlag = right.carryFlag) :
    (left.alu operation operand).a = (right.alu operation operand).a ∧
      (left.alu operation operand).f = (right.alu operation operand).f := by
  have applied : operation.apply left.a operand left.carryFlag =
      operation.apply right.a operand right.carryFlag := by
    rw [accumulator]
    exact apply_carry operation right.a operand carry
  simp only [alu, setFlags, accumulator] at applied ⊢
  rw [applied]
  exact ⟨rfl, rfl⟩

/-- Every arithmetic opcode is its operation on the operand its fields name. -/
theorem arithmetic_decoded {opcode : Byte} (arithmetic : IsArithmetic opcode) {μ : Type u}
    [Store μ Word Byte] (state : State) (memory : μ) :
    ∃ instruction, decode opcode = .implemented instruction ∧
      (instruction.finished state memory).1.SameRegisters
        (state.alu (.ofField (opcode.toNat / 8 % 8)) (arithmeticOperand state memory opcode)) := by
  rcases arithmetic with quadrant | ⟨quadrant, column⟩
  · rw [decode_arithmetic quadrant, arithmeticOperand, if_pos quadrant, State.fieldValue, decodeAlu]
    cases Register8.ofField (opcode.toNat % 8) with
    | some source => exact ⟨_, rfl, .refl _⟩
    | none => exact ⟨_, rfl, .refl _⟩
  · have other : ¬opcode.toNat / 64 = 2 := by omega
    rw [decode_immediateArithmetic quadrant column, arithmeticOperand, if_neg other]
    refine ⟨_, rfl, fun register => ?_, rfl, rfl⟩
    cases register <;> rfl

end GbEmulator.Sm83
