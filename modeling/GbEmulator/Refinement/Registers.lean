import GbEmulator.Refinement.Dispatch
import GbEmulator.InstructionSet.Schedule

/-! The register file seen as the programmer's state. Reading a register is
reading a field of that state, writing one is updating it, and the scratch pair
is what the view leaves out. -/
namespace GbEmulator
open CpuRegisters Sm83

namespace CpuRegisters

def visible (registers : CpuRegisters) : State where
  a := accumulator.value registers
  f := flags.value registers
  b := bRegister.value registers
  c := cRegister.value registers
  d := dRegister.value registers
  e := eRegister.value registers
  h := hRegister.value registers
  l := lRegister.value registers
  sp := stackPointer.value registers
  pc := programCounter.value registers
  opcode := instructionRegister.value registers
  interrupts := registers.masterInterruptState

theorem location8_full (register : Register8) :
    register.location.mask = BitVec.allOnes 8 := by
  cases register <;> decide

theorem location16_full (register : Register16) :
    register.location.mask = BitVec.allOnes 16 := by
  cases register <;> rfl

theorem wRegister_full : wRegister.mask = BitVec.allOnes 8 := by decide
theorem zRegister_full : zRegister.mask = BitVec.allOnes 8 := by decide
theorem flags_mask : flags.mask = 0xF0 := by decide

section Reads
variable (registers : CpuRegisters)

@[simp] theorem value_accumulator : accumulator.value registers = registers.visible.a := (rfl)
@[simp] theorem value_flags : flags.value registers = registers.visible.f := (rfl)
@[simp] theorem value_bRegister : bRegister.value registers = registers.visible.b := (rfl)
@[simp] theorem value_cRegister : cRegister.value registers = registers.visible.c := (rfl)
@[simp] theorem value_stackPointer : stackPointer.value registers = registers.visible.sp := (rfl)
@[simp] theorem value_programCounter :
    programCounter.value registers = registers.visible.pc := (rfl)
@[simp] theorem value_hlRegister : hlRegister.value registers = registers.visible.hl :=
  (Word.ofBytes_halves _).symm
@[simp] theorem value_wzRegister :
    wzRegister.value registers =
      Word.ofBytes (wRegister.value registers) (zRegister.value registers) :=
  (Word.ofBytes_halves _).symm

@[simp] theorem value_location8 (register : Register8) :
    register.location.value registers = registers.visible.get register := by
  cases register <;> rfl

@[simp] theorem value_location16 (register : Register16) :
    register.location.value registers = registers.visible.getPair register := by
  cases register <;> first | rfl | exact (Word.ofBytes_halves _).symm

@[simp] theorem value_stackLocation (register : StackRegister) :
    register.location.value registers = registers.visible.getStack register := by
  cases register <;> exact (Word.ofBytes_halves _).symm

@[simp] theorem value_pointer (pointer : Pointer) :
    pointer.location.value registers = registers.visible.pointed pointer := by
  cases pointer <;> exact (Word.ofBytes_halves _).symm

@[simp] theorem value_interrupts :
    registers.masterInterruptState = registers.visible.interrupts := (rfl)

@[simp] theorem load_accumulator : accumulator.load registers = registers.visible.a :=
  Register.load_full (location8_full .a) registers
@[simp] theorem load_flags : flags.load registers = registers.visible.f &&& 0xF0 := by
  rw [Register.load, flags_mask, value_flags]
@[simp] theorem load_zRegister : zRegister.load registers = zRegister.value registers :=
  Register.load_full zRegister_full registers
@[simp] theorem load_stackPointer : stackPointer.load registers = registers.visible.sp :=
  Register.load_full rfl registers
@[simp] theorem load_programCounter : programCounter.load registers = registers.visible.pc :=
  Register.load_full rfl registers
@[simp] theorem load_hlRegister : hlRegister.load registers = registers.visible.hl :=
  (Register.load_full rfl registers).trans (value_hlRegister registers)

end Reads

section Writes
variable (registers : CpuRegisters)

@[simp] theorem visible_zRegister (data : Byte) :
    (zRegister.assign data registers).visible = registers.visible := (rfl)
@[simp] theorem visible_wRegister (data : Byte) :
    (wRegister.assign data registers).visible = registers.visible := (rfl)
@[simp] theorem visible_incrementWz :
    (wzRegister.postIncrement registers).2.visible = registers.visible := (rfl)

@[simp] theorem visible_incrementPc :
    (programCounter.postIncrement registers).2.visible = registers.visible.skip 1 := (rfl)
@[simp] theorem visible_incrementSp :
    (stackPointer.postIncrement registers).2.visible =
      { registers.visible with sp := registers.visible.sp + 1 } := (rfl)
@[simp] theorem visible_decrementSp :
    (stackPointer.postDecrement registers).2.visible =
      { registers.visible with sp := registers.visible.sp - 1 } := (rfl)
@[simp] theorem postIncrement_pc :
    (programCounter.postIncrement registers).1 = registers.visible.pc := (rfl)
@[simp] theorem postIncrement_sp :
    (stackPointer.postIncrement registers).1 = registers.visible.sp := (rfl)
@[simp] theorem postDecrement_sp :
    (stackPointer.postDecrement registers).1 = registers.visible.sp := (rfl)

@[simp] theorem visible_programCounter (word : Word) :
    (programCounter.assign word registers).visible = { registers.visible with pc := word } := by
  rw [Register.assign_full rfl]
  rfl

@[simp] theorem visible_writeFlags (data : Byte) :
    (flags.write registers data).visible = { registers.visible with f := data } := by
  ext1 <;> first | rfl | exact Word.upper_ofBytes _ _ | exact Word.lower_ofBytes _ _

@[simp] theorem visible_flags (data : Byte) :
    (flags.assign data registers).visible = { registers.visible with f := data &&& 0xF0 } := by
  simp only [Register.assign, flags_mask, visible_writeFlags]

@[simp] theorem visible_orFlagsRegister (data : Byte) :
    (flags.orAssign data registers).visible =
      { registers.visible with f := (registers.visible.f ||| data) &&& 0xF0 } :=
  visible_writeFlags registers _

@[simp] theorem visible_andFlagsRegister (data : Byte) :
    (flags.andAssign data registers).visible =
      { registers.visible with f := registers.visible.f &&& data &&& 0xF0 } :=
  visible_writeFlags registers _

@[simp] theorem visible_xorFlagsRegister (data : Byte) :
    (flags.xorAssign data registers).visible =
      { registers.visible with f := (registers.visible.f ^^^ data) &&& 0xF0 } :=
  visible_writeFlags registers _

@[simp] theorem visible_interrupts (interrupts : MasterInterruptState) :
    { registers with masterInterruptState := interrupts }.visible =
      { registers.visible with interrupts := interrupts } := (rfl)

@[simp] theorem visible_location8 (register : Register8) (data : Byte) :
    (register.location.assign data registers).visible = registers.visible.set data register := by
  rw [Register.assign_full (location8_full register)]
  cases register <;> ext1 <;>
    first | rfl | exact Word.upper_ofBytes _ _ | exact Word.lower_ofBytes _ _

@[simp] theorem visible_accumulator (data : Byte) :
    (accumulator.assign data registers).visible = { registers.visible with a := data } :=
  visible_location8 registers .a data

@[simp] theorem visible_hRegister (data : Byte) :
    (hRegister.assign data registers).visible = { registers.visible with h := data } :=
  visible_location8 registers .h data

@[simp] theorem visible_lRegister (data : Byte) :
    (lRegister.assign data registers).visible = { registers.visible with l := data } :=
  visible_location8 registers .l data

@[simp] theorem visible_location16 (register : Register16) (word : Word) :
    (register.location.assign word registers).visible =
      registers.visible.setPair word register := by
  rw [Register.assign_full (location16_full register)]
  cases register <;> rfl

@[simp] theorem visible_stackPointer (word : Word) :
    (stackPointer.assign word registers).visible = { registers.visible with sp := word } :=
  visible_location16 registers .sp word

@[simp] theorem visible_addLocation16 (register : Register16) :
    (register.location.addAssign 1#16 registers).visible =
      registers.visible.setPair (registers.visible.getPair register + 1#16) register := by
  rw [Register.addAssign_full (location16_full register), value_location16]
  cases register <;> rfl

@[simp] theorem visible_subLocation16 (register : Register16) :
    (register.location.subAssign 1#16 registers).visible =
      registers.visible.setPair (registers.visible.getPair register - 1#16) register := by
  rw [Register.subAssign_full (location16_full register), value_location16]
  cases register <;> rfl

/-- The mask of AF is the one that reaches the state: it clears the low flags bits. -/
@[simp] theorem visible_stackLocation (register : StackRegister) (word : Word) :
    (register.location.assign word registers).visible =
      registers.visible.setStack word register := by
  cases register
  case af =>
    ext1 <;> first
      | rfl
      | exact (Word.upper_and word 0xFFF0).trans (BitVec.and_allOnes (x := Word.upper word))
      | exact Word.lower_and word 0xFFF0
  case bc => exact visible_location16 registers .bc word
  case de => exact visible_location16 registers .de word
  case hl => exact visible_location16 registers .hl word

@[simp] theorem visible_modifier (pointer : Pointer) :
    (pointer.modifier pointer.location registers).visible =
      registers.visible.advance pointer := by
  cases pointer with
  | bc => rfl
  | de => rfl
  | hlIncrement =>
    exact congrArg (fun word => registers.visible.setHl (word + 1)) (value_hlRegister registers)
  | hlDecrement =>
    exact congrArg (fun word => registers.visible.setHl (word - 1)) (value_hlRegister registers)

end Writes

section Scratch
variable (registers : CpuRegisters) (data : Byte)

@[simp] theorem zRegister_assign : zRegister.value (zRegister.assign data registers) = data := by
  rw [Register.assign_full zRegister_full, Register.value_write]

@[simp] theorem wRegister_assign : wRegister.value (wRegister.assign data registers) = data := by
  rw [Register.assign_full wRegister_full, Register.value_write]

@[simp] theorem zRegister_assignW :
    zRegister.value (wRegister.assign data registers) = zRegister.value registers :=
  Word.lower_ofBytes _ _

@[simp] theorem wRegister_assignZ :
    wRegister.value (zRegister.assign data registers) = wRegister.value registers :=
  Word.upper_ofBytes _ _

@[simp] theorem zRegister_incrementPc :
    zRegister.value (programCounter.postIncrement registers).2 = zRegister.value registers := (rfl)
@[simp] theorem zRegister_incrementSp :
    zRegister.value (stackPointer.postIncrement registers).2 = zRegister.value registers := (rfl)
@[simp] theorem zRegister_decrementSp :
    zRegister.value (stackPointer.postDecrement registers).2 = zRegister.value registers := (rfl)
@[simp] theorem wRegister_decrementSp :
    wRegister.value (stackPointer.postDecrement registers).2 = wRegister.value registers := (rfl)

@[simp] theorem incrementWz :
    Word.ofBytes (wRegister.value (wzRegister.postIncrement registers).2)
        (zRegister.value (wzRegister.postIncrement registers).2) =
      Word.ofBytes (wRegister.value registers) (zRegister.value registers) + 1 := by
  rw [← value_wzRegister, ← value_wzRegister]
  rfl

end Scratch
end CpuRegisters
end GbEmulator
