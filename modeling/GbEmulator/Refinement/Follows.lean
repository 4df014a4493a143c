import GbEmulator.Refinement.Flags

/-! Executing a handler as the programmer sees it: the run of a coroutine mapped
to visible states, and the normal forms its words and states reach. -/
namespace GbEmulator
open CpuRegisters Sm83 Coroutine

section Rules
variable {μ : Type u} [Store μ Word Byte] (state : CpuRegisters) (memory : μ)
  (done : List (Transaction Word Byte))

@[simp] theorem segmentsThen_loadOf (register : Register CpuRegisters w)
    (rest : BitVec w → CpuRegisters → μ → List (Transaction Word Byte) →
      List (Segment CpuRegisters μ Word Byte)) :
    segmentsThen (loadOf register) rest state memory done =
      rest (register.load state) state memory done := rfl

@[simp] theorem segmentsThen_valueOf (register : Register CpuRegisters w)
    (rest : BitVec w → CpuRegisters → μ → List (Transaction Word Byte) →
      List (Segment CpuRegisters μ Word Byte)) :
    segmentsThen (valueOf register) rest state memory done =
      rest (register.value state) state memory done := rfl

@[simp] theorem segmentsThen_increment (register : Register CpuRegisters w)
    (rest : BitVec w → CpuRegisters → μ → List (Transaction Word Byte) →
      List (Segment CpuRegisters μ Word Byte)) :
    segmentsThen (increment register) rest state memory done =
      rest (register.postIncrement state).1 (register.postIncrement state).2 memory done := rfl

@[simp] theorem segmentsThen_decrement (register : Register CpuRegisters w)
    (rest : BitVec w → CpuRegisters → μ → List (Transaction Word Byte) →
      List (Segment CpuRegisters μ Word Byte)) :
    segmentsThen (decrement register) rest state memory done =
      rest (register.postDecrement state).1 (register.postDecrement state).2 memory done := rfl

end Rules

/-- A handler follows an instruction when its run, as the programmer sees it, is
the instruction's schedule. -/
def Follows (μ : Type u) [Store μ Word Byte] (body : Handler Unit) (instruction : Instruction) :
    Prop :=
  ∀ registers (memory : μ), (body.segments registers memory).map (Segment.map visible) =
    instruction.schedule registers.visible memory

@[simp] theorem word_add_two (word : Word) : word + 1#16 + 1#16 = word + 2#16 := by
  rw [BitVec.add_assoc]
  rfl

@[simp] theorem word_sub_two (word : Word) : word - 1#16 - 1#16 = word - 2#16 := by
  rw [BitVec.sub_eq_add_neg, BitVec.sub_eq_add_neg, BitVec.sub_eq_add_neg, BitVec.add_assoc]
  rfl

@[simp] theorem lower_masked (word : Word) : Word.lower (word &&& 255#16) = Word.lower word := by
  rw [Word.lower_and]
  exact BitVec.and_allOnes

@[simp] theorem highAddress_highPage (low : Byte) : highAddress low = highPage low :=
  Word.ext_halves (by revert low; decide) (by revert low; decide)

@[simp] theorem takes_pc (state : State) (condition : Option Condition) (word : Word) :
    { state with pc := word }.takes condition = state.takes condition := by
  rcases condition with - | (_ | _ | _ | _) <;> rfl

@[simp] theorem getStack_sp (state : State) (source : StackRegister) (word : Word) :
    { state with sp := word }.getStack source = state.getStack source := by
  cases source <;> rfl

end GbEmulator
