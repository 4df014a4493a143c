import GbEmulator.Refinement.Follows

/-! The arithmetic, rotate and flag handlers follow their instructions. -/
namespace GbEmulator
open CpuRegisters UtilityLib Sm83 Coroutine

section Results
variable (operation : AluOperation) (registers : CpuRegisters) (result : Byte)

/-- CP drops its result in either form; the others keep it in A. -/
theorem visible_sink :
    (operation.sink.assign result registers).visible =
      { registers.visible with a := if operation = .cp then registers.visible.a else result } := by
  cases operation <;> first | rfl | exact visible_accumulator registers result

theorem visible_keep :
    (operation.keep result registers).visible =
      { registers.visible with a := if operation = .cp then registers.visible.a else result } := by
  cases operation <;> first | rfl | exact visible_accumulator registers result

theorem visible_alu (operand : Byte) (stored : CpuRegisters)
    (kept : let result := (operation.operand registers registers.visible.a operand).result
      stored.visible =
        { registers.visible with a := if operation = .cp then registers.visible.a else result }) :
    let computed := operation.operand registers registers.visible.a operand
    (operation.flagFunction computed.result computed.carryBits stored).visible =
      registers.visible.alu operation operand := by
  have flagged := visible_flagFunction registers.visible.a operand operation registers stored
  dsimp only at flagged kept ⊢
  rw [flagged, kept, operand_result]
  rfl

end Results

section Counting
variable (data flags : Byte)

theorem increment_halfCarry :
    (addWithCarry data 1).carryBits.getLsbD 3 = ((data + 1).toNat % 16 == 0) := by
  have one : (1 : Byte).toNat = 1 := rfl
  rw [addWithCarry_nibble, Bool.eq_iff_iff, decide_eq_true_eq, beq_iff_eq, BitVec.toNat_add, one]
  omega

theorem decrement_halfCarry :
    (subWithBorrow data 1).carryBits.getLsbD 3 = ((data - 1).toNat % 16 == 15) := by
  have one : (1 : Byte).toNat = 1 := rfl
  rw [subWithBorrow_borrow (by decide), Bool.eq_iff_iff, decide_eq_true_eq, beq_iff_eq,
    BitVec.toNat_sub, one]
  omega

theorem kept_carry : flags &&& CpuFlags.carry = flagIf (flags.getLsbD 4) CpuFlags.carry :=
  BitVec.and_twoPow flags 4

theorem increment_flags (zero halfCarry : Bool) :
    (flags &&& CpuFlags.carry ||| flagIf zero CpuFlags.zero |||
        flagIf halfCarry CpuFlags.halfCarry) =
      Flags.toByte ⟨zero, false, halfCarry, flags.getLsbD 4⟩ := by
  rw [kept_carry]
  cases flags.getLsbD 4 <;> cases zero <;> cases halfCarry <;> rfl

theorem decrement_flags (zero halfCarry : Bool) :
    (flags &&& CpuFlags.carry ||| CpuFlags.subtract ||| flagIf zero CpuFlags.zero |||
        flagIf halfCarry CpuFlags.halfCarry) =
      Flags.toByte ⟨zero, true, halfCarry, flags.getLsbD 4⟩ := by
  rw [kept_carry]
  cases flags.getLsbD 4 <;> cases zero <;> cases halfCarry <;> rfl

variable (state : State) (target : Register8)

theorem increment_counted :
    let ⟨result, carry⟩ := addWithCarry (state.get target) 1
    { state.set result target with
      f := state.f &&& CpuFlags.carry ||| flagIf (result == 0) CpuFlags.zero |||
        flagIf (carry &&& bitMask 3 > 0) CpuFlags.halfCarry } = state.incremented target := by
  dsimp only
  rw [increment_flags, bit_three_test, increment_halfCarry]
  rfl

theorem decrement_counted :
    let ⟨result, borrow⟩ := subWithBorrow (state.get target) 1
    { state.set result target with
      f := state.f &&& CpuFlags.carry ||| CpuFlags.subtract |||
        flagIf (result == 0) CpuFlags.zero |||
        flagIf (borrow &&& bitMask 3 > 0) CpuFlags.halfCarry } = state.decremented target := by
  dsimp only
  rw [decrement_flags, bit_three_test, decrement_halfCarry]
  rfl

end Counting

section Rotating
variable (state : State)

/-- A rotate leaves in F the bit it moved out, through the mask. -/
theorem rotated_flags (carry : Bool) :
    flagIf carry CpuFlags.carry &&& 0xF0 = Flags.toByte ⟨false, false, false, carry⟩ := by
  cases carry <;> rfl

@[simp] theorem masked_carry (flags bit : Byte)
    [Decidable (0#8 < flags &&& 240#8 &&& CpuFlags.carry)] :
    (if 0#8 < flags &&& 240#8 &&& CpuFlags.carry then bit else 0#8) =
      if flags.getLsbD 4 then bit else 0#8 := by
  have test : (0#8 < flags &&& 240#8 &&& CpuFlags.carry) ↔ flags.getLsbD 4 = true := by
    rw [BitVec.and_assoc]
    exact Mask.positive_iff flags (show 4 < 8 by decide)
  simp only [test]

theorem rlca_rotated :
    let newBit0 : Byte := if state.a &&& 0x80 != 0 then 0x01 else 0x00
    { state with
      a := state.a <<< 1 ||| newBit0
      f := flagIf (newBit0 != 0) CpuFlags.carry &&& 0xF0 } = state.rotated .rlca := by
  have moved (data : Byte) :
      let newBit0 : Byte := if data &&& 0x80 != 0 then 0x01 else 0x00
      data <<< 1 ||| newBit0 = data.rotateLeft 1 ∧ (newBit0 != 0) = data.getLsbD 7 := by
    revert data; decide
  obtain ⟨value, carry⟩ := moved state.a
  dsimp only
  rw [value, carry, rotated_flags]
  rfl

theorem rrca_rotated :
    let newBit7 : Byte := if state.a &&& 0x01 != 0 then 0x80 else 0x00
    { state with
      a := state.a >>> 1 ||| newBit7
      f := flagIf (newBit7 != 0) CpuFlags.carry &&& 0xF0 } = state.rotated .rrca := by
  have moved (data : Byte) :
      let newBit7 : Byte := if data &&& 0x01 != 0 then 0x80 else 0x00
      data >>> 1 ||| newBit7 = data.rotateRight 1 ∧ (newBit7 != 0) = data.getLsbD 0 := by
    revert data; decide
  obtain ⟨value, carry⟩ := moved state.a
  dsimp only
  rw [value, carry, rotated_flags]
  rfl

theorem rla_rotated :
    let newValue : Word := state.a.setWidth 16 <<< 1
    { state with
      a := Word.lower newValue ||| if state.f.getLsbD 4 then 0x01 else 0x00
      f := flagIf (newValue &&& 0x100 != 0) CpuFlags.carry &&& 0xF0 } = state.rotated .rla := by
  have moved (data : Byte) :
      let newValue : Word := data.setWidth 16 <<< 1
      Word.lower newValue = data <<< 1 ∧ (newValue &&& 0x100 != 0) = data.getLsbD 7 := by
    revert data; decide
  obtain ⟨value, carry⟩ := moved state.a
  have entered : (if state.f.getLsbD 4 then 0x01 else 0x00 : Byte) =
      BitVec.ofNat 8 (state.f.getLsbD 4).toNat := by
    cases state.f.getLsbD 4 <;> rfl
  dsimp only
  rw [value, carry, rotated_flags, entered]
  rfl

theorem rra_rotated :
    let newValue : Word := state.a.setWidth 16 <<< 7
    { state with
      a := Word.upper newValue ||| if state.f.getLsbD 4 then 0x80 else 0x00
      f := flagIf (newValue &&& 0x80 != 0) CpuFlags.carry &&& 0xF0 } = state.rotated .rra := by
  have moved (data : Byte) :
      let newValue : Word := data.setWidth 16 <<< 7
      Word.upper newValue = data >>> 1 ∧ (newValue &&& 0x80 != 0) = data.getLsbD 0 := by
    revert data; decide
  obtain ⟨value, carry⟩ := moved state.a
  have entered : (if state.f.getLsbD 4 then 0x80 else 0x00 : Byte) =
      BitVec.ofNat 8 (state.f.getLsbD 4).toNat <<< 7 := by
    cases state.f.getLsbD 4 <;> rfl
  dsimp only
  rw [value, carry, rotated_flags, entered]
  rfl

theorem complement_flags (flags : Byte) :
    (flags ||| (CpuFlags.subtract ||| CpuFlags.halfCarry)) &&& 0xF0 =
      Flags.toByte ⟨flags.getLsbD 7, true, true, flags.getLsbD 4⟩ := by
  revert flags; decide

theorem complementCarry_flags (flags : Byte) :
    (flags &&& (CpuFlags.carry ||| CpuFlags.zero) &&& 0xF0 ^^^ CpuFlags.carry) &&& 0xF0 =
      Flags.toByte ⟨flags.getLsbD 7, false, false, !flags.getLsbD 4⟩ := by
  revert flags; decide

end Rotating

section Families
variable {μ : Type u} [Store μ Word Byte]

attribute [local simp] Follows segments Segment.map Instruction.schedule idle reading writing
  GbEmulator.readFromAddress GbEmulator.writeToAddress GbEmulator.coYield fetchImmediate immediate
  State.hl

theorem executeMathOperandR_follows (operation : AluOperation) (source : Register8) :
    Follows μ (executeMathOperandR source.location operation.operand operation.flagFunction
      operation.sink) (.alu operation source) := by
  simp [executeMathOperandR, visible_alu operation _ _ _ (visible_sink operation _ _)]

theorem executeMathN8_follows (operation : AluOperation) :
    Follows μ (executeMathN8 operation.operand operation.flagFunction operation.sink)
      (.aluImmediate operation) := by
  intro registers memory
  have stored := visible_alu operation (zRegister.assign (Store.load memory registers.visible.pc)
    (programCounter.postIncrement registers).2) (Store.load memory registers.visible.pc) _
    (visible_sink operation _ _)
  simpa [executeMathN8] using stored

theorem executeMathFromIndirectHL_follows (operation : AluOperation) :
    Follows μ (executeMathFromIndirectHL operation.operand operation.flagFunction operation.keep)
      (.aluFromHl operation) := by
  intro registers memory
  have stored := visible_alu operation (zRegister.assign (Store.load memory registers.visible.hl)
    registers) (Store.load memory registers.visible.hl) _ (visible_keep operation _ _)
  simpa [executeMathFromIndirectHL] using stored

theorem executeIncR_follows (target : Register8) :
    Follows μ (executeIncR target.location) (.increment target) := by
  intro registers memory
  simpa [executeIncR] using increment_counted registers.visible target

theorem executeDecR_follows (target : Register8) :
    Follows μ (executeDecR target.location) (.decrement target) := by
  intro registers memory
  simpa [executeDecR] using decrement_counted registers.visible target

theorem executeIncRR_follows (target : Register16) :
    Follows μ (executeIncRR target.location) (.incrementPair target) := by
  simp [executeIncRR]

theorem executeDecRR_follows (target : Register16) :
    Follows μ (executeDecRR target.location) (.decrementPair target) := by
  simp [executeDecRR]

theorem rotation_follows (rotation : Rotation) :
    Follows μ rotation.handler (.rotate rotation) := by
  intro registers memory
  cases rotation with
  | rlca => simpa [Rotation.handler, executeRlca] using rlca_rotated registers.visible
  | rrca => simpa [Rotation.handler, executeRrca] using rrca_rotated registers.visible
  | rla => simpa [Rotation.handler, executeRla] using rla_rotated registers.visible
  | rra => simpa [Rotation.handler, executeRra] using rra_rotated registers.visible

theorem executeCpl_follows : Follows μ executeCpl .complement := by
  intro registers memory
  simpa [executeCpl, State.setFlags, State.zeroFlag, State.carryFlag] using
    complement_flags registers.visible.f

theorem executeCcf_follows : Follows μ executeCcf .complementCarry := by
  intro registers memory
  simpa [executeCcf, State.setFlags, State.zeroFlag, State.carryFlag] using
    complementCarry_flags registers.visible.f

end Families
end GbEmulator
