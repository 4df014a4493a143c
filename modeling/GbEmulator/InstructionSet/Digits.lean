import GbEmulator.Bits.RippleCarry
import GbEmulator.InstructionSet.Arithmetic
import GbEmulator.InstructionSet.Counters
import GbEmulator.InstructionSet.Transfers

/-! Multi-precision numbers one digit at a time. A pass combines a digit in the
accumulator with the carry flag; what it stores and the carry it hands on conserve
the total. -/
namespace GbEmulator.Sm83
open RippleCarry

namespace Direction

/-- HL+ and HL-. -/
def pointer : Direction → Pointer
  | .up => .hlIncrement
  | .down => .hlDecrement

/-- The addresses HL runs through from `base` on. -/
def addresses (direction : Direction) : Word → Nat → List Word
  | _, 0 => []
  | base, count + 1 => base :: direction.addresses (direction.next base) count

theorem addresses_length (direction : Direction) (base : Word) (count : Nat) :
    (direction.addresses base count).length = count := by
  induction count generalizing base with
  | zero => rfl
  | succ count ih => exact congrArg Nat.succ (ih (direction.next base))

end Direction

/-- The number that little-endian digits stand for. -/
def digitsValue (digits : List Byte) : Nat := Nat.ofDigits 256 (digits.map BitVec.toNat)

theorem digitsValue_lt (digits : List Byte) : digitsValue digits < 256 ^ digits.length := by
  have bounded := Nat.ofDigits_lt_base_pow_length (by decide : 1 < 256)
    (List.forall_mem_map.mpr fun digit _ => digit.isLt : ∀ data ∈ digits.map BitVec.toNat, data < 256)
  rwa [List.length_map] at bounded

theorem digitsValue_map (items : List τ) (digit : τ → Byte) :
    digitsValue (items.map digit) = Nat.ofDigits 256 (items.map fun item => (digit item).toNat) := by
  rw [digitsValue, List.map_map]
  rfl

section Totals
variable {step : τ → Bool → Bool → Prop} {carryIn carryOut : Bool} (left right sum : τ → Byte)

theorem digits_ascend
    (digit : ∀ item carryIn carryOut, step item carryIn carryOut →
      (left item).toNat + (right item).toNat + carryIn.toNat =
        (sum item).toNat + 256 * carryOut.toNat)
    (threads : Threads step items carryIn carryOut) :
    digitsValue (items.map left) + digitsValue (items.map right) + carryIn.toNat =
      digitsValue (items.map sum) + 256 ^ items.length * carryOut.toNat := by
  rw [digitsValue_map, digitsValue_map, digitsValue_map]
  exact threads.ascending Bool.toNat _ _ _ digit

theorem digits_descend
    (digit : ∀ item carryIn carryOut, step item carryIn carryOut →
      (left item).toNat + (right item).toNat + carryOut.toNat =
        (sum item).toNat + 256 * carryIn.toNat)
    (threads : Threads step items carryIn carryOut) :
    digitsValue (items.map left).reverse + digitsValue (items.map right).reverse + carryOut.toNat =
      digitsValue (items.map sum).reverse + 256 ^ items.length * carryIn.toNat := by
  simp only [← List.map_reverse, digitsValue_map]
  simp only [List.map_reverse]
  exact threads.descending Bool.toNat _ _ _ digit

end Totals

/-- Where ADC and SBC find their operand. -/
inductive Operand where
  | register (source : Register8)
  | atHl
  | immediate
  deriving DecidableEq, Repr

def Operand.instruction (operation : AluOperation) : Operand → Instruction
  | .register source => .alu operation source
  | .atHl => .aluFromHl operation
  | .immediate => .aluImmediate operation

section
variable {μ : Type u} [Store μ Word Byte] (state : State) (memory : μ)

def Operand.value : Operand → Byte
  | .register source => state.get source
  | .atHl => Store.load memory state.hl
  | .immediate => Sm83.immediate state memory

theorem operand_finished (operand : Operand) (operation : AluOperation) :
    ((operand.instruction operation).finished state memory).1.SameRegisters
      (state.alu operation (operand.value state memory)) := by
  cases operand with
  | register source => exact .refl _
  | atHl => exact .refl _
  | immediate => exact ⟨fun register => by cases register <;> rfl, rfl, rfl⟩

theorem storeIndirect_finished (direction : Direction) :
    let final := (Instruction.storeIndirect direction.pointer).finished state memory
    final.1.carryFlag = state.carryFlag ∧ final.1.hl = direction.next state.hl ∧
      final.2 = Store.store memory state.hl state.a := by
  cases direction with
  | up => exact ⟨rfl, setHl_hl state _, rfl⟩
  | down => exact ⟨rfl, setHl_hl state _, rfl⟩

theorem operand_memory (operand : Operand) (operation : AluOperation) :
    ((operand.instruction operation).finished state memory).2 = memory := by
  cases operand <;> rfl

end

theorem flag_toNat {flag : Bool} {condition : Prop} [Decidable condition]
    (tells : flag = true ↔ condition) : flag.toNat = if condition then 1 else 0 := by
  by_cases holds : condition
  · rw [if_pos holds, tells.mpr holds]
    rfl
  · rw [if_neg holds, Bool.eq_false_iff.mpr (mt tells.mp holds)]
    rfl

section Conservation
variable (left right : Byte) (carry : Bool)

theorem sum_conserves :
    left.toNat + right.toNat + carry.toNat =
      (sum left right carry).1.toNat + 256 * (sum left right carry).2.carry.toNat := by
  obtain ⟨result, -, -, out⟩ := sum_law left right carry
  have bound := carry.toNat_lt
  rw [flag_toNat out]
  split <;> omega

theorem difference_conserves :
    (difference left right carry).1.toNat + right.toNat + carry.toNat =
      left.toNat + 256 * (difference left right carry).2.carry.toNat := by
  obtain ⟨result, -, -, out⟩ := difference_law left right carry
  have bound := carry.toNat_lt
  rw [flag_toNat out]
  split <;> omega

theorem rla_conserves :
    left.toNat + left.toNat + carry.toNat =
      (Rotation.rla.apply left carry).1.toNat + 256 * (Rotation.rla.apply left carry).2.toNat := by
  revert left carry
  decide

theorem rra_conserves :
    (Rotation.rra.apply left carry).1.toNat + (Rotation.rra.apply left carry).1.toNat +
        (Rotation.rra.apply left carry).2.toNat =
      left.toNat + 256 * carry.toNat := by
  revert left carry
  decide

end Conservation

namespace State
variable (state : State) (operand : Byte)

theorem alu_carryFlag (operation : AluOperation) :
    (state.alu operation operand).carryFlag =
      (operation.apply state.a operand state.carryFlag).2.carry :=
  congrArg Flags.carry (state.alu_flags operation operand)

theorem rotated_carryFlag (rotation : Rotation) :
    (state.rotated rotation).carryFlag = (rotation.apply state.a state.carryFlag).2 :=
  Flags.toByte_carry _

theorem adc_conserves :
    state.a.toNat + operand.toNat + state.carryFlag.toNat =
      (state.alu .adc operand).a.toNat + 256 * (state.alu .adc operand).carryFlag.toNat := by
  rw [alu_carryFlag]
  exact sum_conserves state.a operand state.carryFlag

theorem sbc_conserves :
    (state.alu .sbc operand).a.toNat + operand.toNat + state.carryFlag.toNat =
      state.a.toNat + 256 * (state.alu .sbc operand).carryFlag.toNat := by
  rw [alu_carryFlag]
  exact difference_conserves state.a operand state.carryFlag

theorem rla_conserves :
    state.a.toNat + state.a.toNat + state.carryFlag.toNat =
      (state.rotated .rla).a.toNat + 256 * (state.rotated .rla).carryFlag.toNat := by
  rw [rotated_carryFlag]
  exact Sm83.rla_conserves state.a state.carryFlag

theorem rra_conserves :
    (state.rotated .rra).a.toNat + (state.rotated .rra).a.toNat +
        (state.rotated .rra).carryFlag.toNat =
      state.a.toNat + 256 * state.carryFlag.toNat := by
  rw [rotated_carryFlag]
  exact Sm83.rra_conserves state.a state.carryFlag

end State

/-- What is done to each digit, between loading it into A and storing the result. -/
structure Pass (ι : Type) (μ : Type u) [Store μ Word Byte] where
  /-- What A has been loaded with. -/
  accumulator : ι → Byte
  /-- The instructions that may compute the digit. -/
  operates : ι → Instruction → State → μ → Prop
  /-- Result, carry in and carry out. -/
  law : ι → Byte → Bool → Bool → Prop
  lawful : ∀ {digit instruction state memory}, operates digit instruction state memory →
    state.a = accumulator digit →
      law digit (instruction.finished state memory).1.a state.carryFlag
        (instruction.finished state memory).1.carryFlag
  frame : ∀ {digit instruction state memory}, operates digit instruction state memory →
    (instruction.finished state memory).1.hl = state.hl ∧
      (instruction.finished state memory).2 = memory

namespace Pass
variable {μ : Type u} [Store μ Word Byte]

/-- An operation on A and an operand, which holds the second digit. -/
def arithmetic (operation : AluOperation) (law : Byte × Byte → Byte → Bool → Bool → Prop)
    (lawful : ∀ (state : State) operand, law (state.a, operand) (state.alu operation operand).a
      state.carryFlag (state.alu operation operand).carryFlag) : Pass (Byte × Byte) μ where
  accumulator := Prod.fst
  operates digits instruction state memory := ∃ operand : Operand,
    instruction = operand.instruction operation ∧ operand.value state memory = digits.2
  law := law
  lawful := by
    rintro ⟨left, right⟩ instruction state memory ⟨operand, rfl, rfl⟩ rfl
    have finished := operand_finished state memory operand operation
    have a : ((operand.instruction operation).finished state memory).1.a = _ :=
      finished.registers .a
    rw [finished.carryFlag, a]
    exact lawful state _
  frame := by
    rintro digits instruction state memory ⟨operand, rfl, -⟩
    exact ⟨(operand_finished state memory operand operation).hl,
      operand_memory state memory operand operation⟩

/-- A rotation of A through the carry flag. -/
def rotation (rotation : Rotation) (law : Byte → Byte → Bool → Bool → Prop)
    (lawful : ∀ state : State, law state.a (state.rotated rotation).a state.carryFlag
      (state.rotated rotation).carryFlag) : Pass Byte μ where
  accumulator digit := digit
  operates _ instruction _ _ := instruction = .rotate rotation
  law := law
  lawful := by
    rintro digit instruction state memory rfl rfl
    exact lawful state
  frame := by
    rintro digit instruction state memory rfl
    exact ⟨rfl, rfl⟩

def adc : Pass (Byte × Byte) μ :=
  arithmetic .adc (fun digits result carryIn carryOut =>
    digits.1.toNat + digits.2.toNat + carryIn.toNat = result.toNat + 256 * carryOut.toNat)
    State.adc_conserves

def sbc : Pass (Byte × Byte) μ :=
  arithmetic .sbc (fun digits result carryIn carryOut =>
    result.toNat + digits.2.toNat + carryIn.toNat = digits.1.toNat + 256 * carryOut.toNat)
    State.sbc_conserves

def rla : Pass Byte μ :=
  rotation .rla (fun digit result carryIn carryOut =>
    digit.toNat + digit.toNat + carryIn.toNat = result.toNat + 256 * carryOut.toNat)
    State.rla_conserves

def rra : Pass Byte μ :=
  rotation .rra (fun digit result carryIn carryOut =>
    result.toNat + result.toNat + carryOut.toNat = digit.toNat + 256 * carryIn.toNat)
    State.rra_conserves

end Pass
end GbEmulator.Sm83
