import GbEmulator.InstructionSet.Position

/-! What an instruction may change. Its destinations are read off its syntax, and
no cycle of its schedule changes anything else. -/
namespace GbEmulator.Sm83

def Register16.halves : Register16 → List Register8
  | .bc => [.b, .c]
  | .de => [.d, .e]
  | .hl => [.h, .l]
  | .sp => []

/-- The bytes of a stack pair other than F. -/
def StackRegister.halves : StackRegister → List Register8
  | .bc => [.b, .c]
  | .de => [.d, .e]
  | .hl => [.h, .l]
  | .af => [.a]

/-- The other byte of the pair. -/
def Register8.sibling : Register8 → Option Register8
  | .a => none
  | .b => some .c
  | .c => some .b
  | .d => some .e
  | .e => some .d
  | .h => some .l
  | .l => some .h

def Pointer.stepped : Pointer → List Register8
  | .bc | .de => []
  | .hlIncrement | .hlDecrement => [.h, .l]

namespace Instruction

def changesF : Instruction → Bool
  | .alu _ _ | .aluFromHl _ | .aluImmediate _ | .increment _ | .decrement _ | .rotate _
  | .complement | .complementCarry | .pop .af | .loadHlSpOffset => true
  | _ => false

def changesSp (state : State) : Instruction → Bool
  | .loadPairImmediate .sp | .loadSpHl | .incrementPair .sp | .decrementPair .sp | .push _ | .pop _
  | .restart _ | .ret | .reti => true
  | .retIf condition => state.holds condition
  | .call condition => state.takes condition
  | _ => false

/-- An eight-bit register named as the destination. -/
def byteDestination : Instruction → Option Register8
  | .load destination _ | .loadImmediate destination | .loadFromHl destination
  | .increment destination | .decrement destination => some destination
  | _ => none

def destinations : Instruction → List Register8
  | .load destination _ | .loadImmediate destination | .loadFromHl destination
  | .increment destination | .decrement destination => [destination]
  | .loadIndirect pointer => .a :: pointer.stepped
  | .storeIndirect pointer => pointer.stepped
  | .loadHighImmediate | .loadHighC | .loadAbsolute | .rotate _ | .complement => [.a]
  | .loadPairImmediate destination | .incrementPair destination | .decrementPair destination =>
      destination.halves
  | .pop destination => destination.halves
  | .loadHlSpOffset => [.h, .l]
  | .alu operation _ | .aluFromHl operation | .aluImmediate operation =>
      if operation = .cp then [] else [.a]
  | _ => []

def writesBus (state : State) : Instruction → Bool
  | .storeIndirect _ | .storeHighC | .storeHighImmediate | .storeAbsolute | .storeToHl _
  | .storeImmediateToHl | .storeSp | .push _ | .restart _ => true
  | .call condition => state.takes condition
  | _ => false

/-- The addresses of the bytes an instruction stores. -/
def writeAddresses [Store μ Word Byte] (state : State) (memory : μ) : Instruction → List Word
  | .storeToHl _ | .storeImmediateToHl => [state.hl]
  | .storeIndirect pointer => [state.pointed pointer]
  | .storeHighC => [highPage state.c]
  | .storeHighImmediate => [highPage (immediate state memory)]
  | .storeAbsolute => [immediateWord state memory]
  | .storeSp => [immediateWord state memory, immediateWord state memory + 1]
  | .push _ | .restart _ => [state.sp - 1, state.sp - 2]
  | .call condition => if state.takes condition then [state.sp - 1, state.sp - 2] else []
  | _ => []

end Instruction

section
variable (state : State) (register : Register8)

theorem get_set (data : Byte) (target : Register8) :
    (state.set data target).get register = if register = target then data else state.get register := by
  cases target <;> cases register <;> rfl

theorem get_setPair (word : Word) {target : Register16} (other : register ∉ target.halves) :
    (state.setPair word target).get register = state.get register := by
  cases target <;> cases register <;> first | rfl | exact absurd (by decide) other

theorem get_setStack (word : Word) {target : StackRegister} (other : register ∉ target.halves) :
    (state.setStack word target).get register = state.get register := by
  cases target <;> cases register <;> first | rfl | exact absurd (by decide) other

theorem get_advance {pointer : Pointer} (other : register ∉ pointer.stepped) :
    (state.advance pointer).get register = state.get register := by
  cases pointer <;> cases register <;> first | rfl | exact absurd (by decide) other

/-- Reading a register sees nothing but the seven bytes. -/
theorem get_bytes (f : Byte) (sp pc : Word) (opcode : Byte) (interrupts : MasterInterruptState) :
    State.get ⟨state.a, f, state.b, state.c, state.d, state.e, state.h, state.l, sp, pc, opcode,
      interrupts⟩ register = state.get register := by
  cases register <;> rfl

theorem get_others (data f : Byte) (sp pc : Word) (opcode : Byte)
    (interrupts : MasterInterruptState) (other : register ≠ .a) :
    State.get ⟨data, f, state.b, state.c, state.d, state.e, state.h, state.l, sp, pc, opcode,
      interrupts⟩ register = state.get register := by
  cases register <;> first | rfl | exact absurd rfl other

theorem get_setFlags (flags : Flags) :
    (state.setFlags flags).get register = state.get register :=
  get_bytes state register _ _ _ _ _

theorem get_alu (operation : AluOperation) (operand : Byte)
    (other : register ∉ if operation = .cp then [] else [Register8.a]) :
    (state.alu operation operand).get register = state.get register := by
  rw [State.alu, get_setFlags]
  split at other
  · rw [if_pos ‹_›]
  · exact get_others state register _ _ _ _ _ _ (List.ne_of_not_mem_cons other)

theorem get_incremented {target : Register8} (other : register ≠ target) :
    (state.incremented target).get register = state.get register := by
  rw [State.incremented, get_setFlags, get_set, if_neg other]

theorem get_decremented {target : Register8} (other : register ≠ target) :
    (state.decremented target).get register = state.get register := by
  rw [State.decremented, get_setFlags, get_set, if_neg other]

theorem get_rotated (rotation : Rotation) (other : register ≠ .a) :
    (state.rotated rotation).get register = state.get register := by
  rw [State.rotated, get_setFlags]
  exact get_others state register _ _ _ _ _ _ other

end

section
variable {μ : Type u} [Store μ Word Byte] (state : State) (memory : μ)

attribute [local simp] Instruction.schedule fetchImmediate fetchImmediateWord popCycles pushCycles
  returnCycles idle reading writing State.skip

theorem schedule_get {instruction : Instruction} {register : Register8}
    (other : register ∉ instruction.destinations) :
    ∀ cycle ∈ instruction.schedule state memory, cycle.state.get register = state.get register := by
  cases instruction with
  | jump condition => cases taken : state.takes condition <;> simp [taken, get_bytes]
  | jumpRelative condition => cases taken : state.takes condition <;> simp [taken, get_bytes]
  | call condition => cases taken : state.takes condition <;> simp [taken, get_bytes]
  | retIf condition => cases taken : state.holds condition <;> simp [taken, get_bytes]
  | load destination source => simp [get_set, List.ne_of_not_mem_cons other]
  | loadImmediate destination => simp [get_set, get_bytes, List.ne_of_not_mem_cons other]
  | loadFromHl destination => simp [get_set, List.ne_of_not_mem_cons other]
  | loadIndirect pointer =>
    have notA := List.ne_of_not_mem_cons other
    have notStepped := List.not_mem_of_not_mem_cons other
    intro cycle member
    rcases List.mem_cons.mp member with rfl | member
    · exact get_advance state register notStepped
    · obtain rfl := List.mem_singleton.mp member
      exact (get_others (state.advance pointer) register _ _ _ _ _ _ notA).trans
        (get_advance state register notStepped)
  | storeIndirect pointer => simp [get_advance _ _ other]
  | loadHighImmediate => simp [get_others, List.ne_of_not_mem_cons other]
  | loadHighC => simp [get_others, List.ne_of_not_mem_cons other]
  | loadAbsolute => simp [get_others, List.ne_of_not_mem_cons other]
  | loadPairImmediate destination => simp [get_setPair _ _ _ other, get_bytes]
  | incrementPair target => simp [get_setPair _ _ _ other]
  | decrementPair target => simp [get_setPair _ _ _ other]
  | pop destination => simp [get_setStack _ _ _ other, get_bytes]
  | alu operation source => simp [get_alu _ _ _ _ other]
  | aluFromHl operation => simp [get_alu _ _ _ _ other]
  | aluImmediate operation => simp [get_alu _ _ _ _ other, get_bytes]
  | increment target => simp [get_incremented _ _ (List.ne_of_not_mem_cons other)]
  | decrement target => simp [get_decremented _ _ (List.ne_of_not_mem_cons other)]
  | rotate rotation => simp [get_rotated _ _ _ (List.ne_of_not_mem_cons other)]
  | complement => simp [get_setFlags, get_others, List.ne_of_not_mem_cons other]
  | complementCarry => simp [get_setFlags]
  | loadHlSpOffset =>
    cases register with
    | h => exact absurd (by decide) other
    | l => exact absurd (by decide) other
    | _ => simp [State.setFlags, State.get]
  | _ => simp [get_bytes]

theorem schedule_f {instruction : Instruction} (kept : instruction.changesF = false) :
    ∀ cycle ∈ instruction.schedule state memory, cycle.state.f = state.f := by
  cases instruction with
  | jump condition => cases taken : state.takes condition <;> simp [taken]
  | jumpRelative condition => cases taken : state.takes condition <;> simp [taken]
  | call condition => cases taken : state.takes condition <;> simp [taken]
  | retIf condition => cases taken : state.holds condition <;> simp [taken]
  | pop destination =>
    cases destination <;>
      simp [State.setStack, State.setBc, State.setDe, State.setHl, Instruction.changesF] at kept ⊢
  | _ => simp [Instruction.changesF] at kept ⊢

theorem schedule_sp {instruction : Instruction} (kept : instruction.changesSp state = false) :
    ∀ cycle ∈ instruction.schedule state memory, cycle.state.sp = state.sp := by
  cases instruction with
  | jump condition => cases taken : state.takes condition <;> simp [taken]
  | jumpRelative condition => cases taken : state.takes condition <;> simp [taken]
  | call condition =>
    cases taken : state.takes condition <;> simp [taken, Instruction.changesSp] at kept ⊢
  | retIf condition =>
    cases taken : state.holds condition <;> simp [taken, Instruction.changesSp] at kept ⊢
  | loadPairImmediate destination =>
    cases destination <;>
      simp [State.setPair, State.setBc, State.setDe, State.setHl, Instruction.changesSp] at kept ⊢
  | incrementPair target =>
    cases target <;>
      simp [State.setPair, State.setBc, State.setDe, State.setHl, Instruction.changesSp] at kept ⊢
  | decrementPair target =>
    cases target <;>
      simp [State.setPair, State.setBc, State.setDe, State.setHl, Instruction.changesSp] at kept ⊢
  | _ => simp [Instruction.changesSp] at kept ⊢

/-- Without a write the memory stays and every access is a read. -/
theorem schedule_memory {instruction : Instruction} (kept : instruction.writesBus state = false) :
    ∀ cycle ∈ instruction.schedule state memory, cycle.memory = memory ∧
      ∀ address data, .write address data ∉ cycle.transactions := by
  cases instruction with
  | jump condition => cases taken : state.takes condition <;> simp [taken]
  | jumpRelative condition => cases taken : state.takes condition <;> simp [taken]
  | call condition =>
    cases taken : state.takes condition <;> simp [taken, Instruction.writesBus] at kept ⊢
  | retIf condition => cases taken : state.holds condition <;> simp [taken]
  | _ => simp [Instruction.writesBus] at kept ⊢

theorem schedule_writes (instruction : Instruction) :
    ∀ cycle ∈ instruction.schedule state memory, ∀ address data,
      .write address data ∈ cycle.transactions →
        address ∈ instruction.writeAddresses state memory := by
  cases instruction with
  | jump condition => cases taken : state.takes condition <;> simp [taken]
  | jumpRelative condition => cases taken : state.takes condition <;> simp [taken]
  | call condition =>
    cases taken : state.takes condition <;> simp [taken, Instruction.writeAddresses]
  | retIf condition => cases taken : state.holds condition <;> simp [taken]
  | _ => simp [Instruction.writeAddresses]

/-- The flags that instructions which set F leave as they were. -/
theorem schedule_carry {target : Register8} {instruction : Instruction}
    (counts : instruction = .increment target ∨ instruction = .decrement target) :
    ∀ cycle ∈ instruction.schedule state memory, cycle.state.carryFlag = state.carryFlag := by
  rcases counts with rfl | rfl <;> intro cycle member <;> obtain rfl := List.mem_singleton.mp member
  · exact Flags.toByte_carry _
  · exact Flags.toByte_carry _

theorem schedule_complement :
    ∀ cycle ∈ Instruction.schedule state memory .complement,
      cycle.state.zeroFlag = state.zeroFlag ∧ cycle.state.carryFlag = state.carryFlag := by
  intro cycle member
  obtain rfl := List.mem_singleton.mp member
  exact ⟨Flags.toByte_zero _, Flags.toByte_carry _⟩

theorem schedule_complementCarry :
    ∀ cycle ∈ Instruction.schedule state memory .complementCarry,
      cycle.state.zeroFlag = state.zeroFlag := by
  intro cycle member
  obtain rfl := List.mem_singleton.mp member
  exact Flags.toByte_zero _

/-- Every instruction leaves F alone or sets it to four flags or a masked byte. -/
theorem schedule_low (instruction : Instruction) (clear : state.f &&& 0x0F = 0) :
    ∀ cycle ∈ instruction.schedule state memory, cycle.state.f &&& 0x0F = 0 := by
  have set (state : State) (flags : Flags) : (state.setFlags flags).f &&& 0x0F = 0 :=
    flags.toByte_low
  cases changes : instruction.changesF with
  | false =>
    intro cycle member
    rw [schedule_f state memory changes cycle member]
    exact clear
  | true =>
    cases instruction with
    | alu operation source => exact List.forall_mem_singleton.mpr (set _ _)
    | aluFromHl operation =>
      exact List.forall_mem_cons.mpr ⟨clear, List.forall_mem_singleton.mpr (set _ _)⟩
    | aluImmediate operation =>
      exact List.forall_mem_cons.mpr ⟨clear, List.forall_mem_singleton.mpr (set _ _)⟩
    | increment target => exact List.forall_mem_singleton.mpr (set _ _)
    | decrement target => exact List.forall_mem_singleton.mpr (set _ _)
    | rotate rotation => exact List.forall_mem_singleton.mpr (set _ _)
    | complement => exact List.forall_mem_singleton.mpr (set _ _)
    | complementCarry => exact List.forall_mem_singleton.mpr (set _ _)
    | loadHlSpOffset =>
      exact List.forall_mem_cons.mpr ⟨clear, List.forall_mem_cons.mpr
        ⟨set _ _, List.forall_mem_singleton.mpr (Flags.toByte_low (state.offsetFlags _))⟩⟩
    | pop destination =>
      refine List.forall_mem_cons.mpr ⟨clear, List.forall_mem_cons.mpr
        ⟨clear, List.forall_mem_singleton.mpr ?_⟩⟩
      cases destination with
      | af => exact (BitVec.and_assoc _ _ _).trans BitVec.and_zero
      | _ => exact clear
    | _ => cases changes

end
end GbEmulator.Sm83
