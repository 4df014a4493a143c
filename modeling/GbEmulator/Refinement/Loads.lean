import GbEmulator.Refinement.Follows

/-! The load, push and pop handlers follow the schedule of their instructions. -/
namespace GbEmulator
open CpuRegisters UtilityLib Sm83 Coroutine

section Offset
variable (state : State) (offset : Byte)

theorem offset_low : (addWithCarry (Word.lower state.sp) offset).result =
    Word.lower (state.sp + offset.signExtend 16) := by
  rw [Word.lower_add, Word.lower_signExtend]
  rfl

theorem offset_flags :
    let carries := (addWithCarry (Word.lower state.sp) offset).carryBits
    (flagIf (0#8 < carries &&& bitMask 3) CpuFlags.halfCarry |||
        flagIf (0#8 < carries &&& bitMask 7) CpuFlags.carry) &&& 240#8 =
      (state.offsetFlags offset).toByte := by
  have assembled (halfCarry carry : Bool) :
      (flagIf halfCarry CpuFlags.halfCarry ||| flagIf carry CpuFlags.carry) &&& 240#8 =
        Flags.toByte ⟨false, false, halfCarry, carry⟩ := by
    cases halfCarry <;> cases carry <;> rfl
  have nibble : (Word.lower state.sp).toNat % 16 = state.sp.toNat % 16 := by
    rw [Word.lower_toNat]
    omega
  have halfCarry := (bit_three_test _).trans (addWithCarry_nibble (Word.lower state.sp) offset)
  have carry := (bit_seven_test _).trans (addWithCarry_byte (Word.lower state.sp) offset)
  rw [nibble] at halfCarry
  rw [Word.lower_toNat] at carry
  exact (assembled _ _).trans (congrArg Flags.toByte
    (congrArg₂ (Flags.mk false false) halfCarry carry))

/-- The carry is read back from F one cycle after it was stored there. -/
theorem offset_high :
    Word.upper state.sp + (if 0#8 < bitMask 7 &&& offset then 255#8 else 0#8) +
        (if (state.offsetFlags offset).carry then 1#8 else 0#8) =
      Word.upper (state.sp + offset.signExtend 16) := by
  have sign : (0#8 < bitMask 7 &&& offset) = (offset.getLsbD 7 = true) := by
    rw [BitVec.and_comm]
    exact propext (Mask.positive_iff offset (by decide))
  rw [Word.upper_add, Word.upper_signExtend, Word.lower_signExtend, Word.lower_toNat]
  simp only [sign, State.offsetFlags, decide_eq_true_eq]
  rfl

@[simp] theorem toByte_carry (flags : Flags) : flags.toByte[4] = flags.carry :=
  flags.toByte_carry

end Offset

section Families
variable {μ : Type u} [Store μ Word Byte]

attribute [local simp] Follows segments Segment.map Instruction.schedule idle reading writing
  GbEmulator.readFromAddress GbEmulator.writeToAddress GbEmulator.coYield fetchImmediate
  fetchImmediateWord immediate immediateWord popCycles pushCycles stackTop pushed
  State.skip State.hl registerA registerHL registerSP registerNoModifier

theorem executeLoadRegReg_follows (destination source : Register8) :
    Follows μ (executeLoadRegReg destination.location source.location)
      (.load destination source) := by
  simp [executeLoadRegReg]

theorem executeLoadRegN8_follows (destination : Register8) :
    Follows μ (executeLoadRegN8 destination.location) (.loadImmediate destination) := by
  simp [executeLoadRegN8]

theorem executeLoadRIndirectRr_follows (pointer : Pointer) :
    Follows μ (executeLoadRIndirectRr registerA pointer.location pointer.modifier)
      (.loadIndirect pointer) := by
  simp [executeLoadRIndirectRr]

theorem executeLoadIndirectFrom_follows (pointer : Pointer) :
    Follows μ (executeLoadIndirectFrom pointer.location registerA pointer.modifier)
      (.storeIndirect pointer) := by
  simp [executeLoadIndirectFrom]

theorem executeLoadFromHl_follows (destination : Register8) :
    Follows μ (executeLoadRIndirectRr destination.location registerHL registerNoModifier)
      (.loadFromHl destination) := by
  simp [executeLoadRIndirectRr]

theorem executeStoreToHl_follows (source : Register8) :
    Follows μ (executeLoadIndirectFrom registerHL source.location registerNoModifier)
      (.storeToHl source) := by
  simp [executeLoadIndirectFrom]

theorem executeLoadIndirectHlN8_follows :
    Follows μ executeLoadIndirectHlN8 .storeImmediateToHl := by
  simp [executeLoadIndirectHlN8]

theorem executeLoadAFromIndirectA8_follows :
    Follows μ executeLoadAFromIndirectA8 .loadHighImmediate := by
  simp [executeLoadAFromIndirectA8]

theorem executeLoadIndirectA8FromA_follows :
    Follows μ executeLoadIndirectA8FromA .storeHighImmediate := by
  simp [executeLoadIndirectA8FromA]

theorem executeLoadAFromIndirectC_follows : Follows μ executeLoadAFromIndirectC .loadHighC := by
  simp [executeLoadAFromIndirectC]

theorem executeLoadIndirectCFromA_follows : Follows μ executeLoadIndirectCFromA .storeHighC := by
  simp [executeLoadIndirectCFromA]

theorem executeLoadAFromIndirectA16_follows :
    Follows μ executeLoadAFromIndirectA16 .loadAbsolute := by
  simp [executeLoadAFromIndirectA16]

theorem executeLoadIndirectA16FromA_follows :
    Follows μ executeLoadIndirectA16FromA .storeAbsolute := by
  simp [executeLoadIndirectA16FromA]

theorem executeLoadRegN16_follows (destination : Register16) :
    Follows μ (executeLoadRegN16 destination.location) (.loadPairImmediate destination) := by
  simp [executeLoadRegN16]

theorem executeLoadReg16Reg16_follows :
    Follows μ (executeLoadReg16Reg16 registerSP registerHL) .loadSpHl := by
  simp [executeLoadReg16Reg16]

theorem executeLoadA16SP_follows : Follows μ executeLoadA16SP .storeSp := by
  simp [executeLoadA16SP]

theorem executeLoadSPFromHlPlusE8_follows :
    Follows μ executeLoadSPFromHlPlusE8 .loadHlSpOffset := by
  intro registers memory
  have high := offset_high registers.visible (Store.load memory registers.visible.pc)
  simp [executeLoadSPFromHlPlusE8, offset_low, offset_flags, State.setFlags, State.carryFlag, high]

theorem executePushRr_follows (source : StackRegister) :
    Follows μ (executePushRr source.location) (.push source) := by
  simp [executePushRr]

theorem executePopRr_follows (destination : StackRegister) :
    Follows μ (executePopRr destination.location) (.pop destination) := by
  simp [executePopRr]

end Families
end GbEmulator
