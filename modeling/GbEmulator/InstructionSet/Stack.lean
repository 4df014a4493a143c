import GbEmulator.InstructionSet.Position

/-! The instructions that push a word and those that pop one: the word, where they
continue, and the state their last cycle leaves. -/
namespace GbEmulator.Sm83

/-- The word a taken push-type instruction pushes. -/
def Instruction.pushes (state : State) : Instruction → Option Word
  | .push source => some (state.getStack source)
  | .call condition => if state.takes condition then some (state.pc + 2) else none
  | .restart _ => some state.pc
  | _ => none

def Instruction.pops (state : State) : Instruction → Bool
  | .pop _ | .ret | .reti => true
  | .retIf condition => state.holds condition
  | _ => false

/-- The word a pair holds once it has been popped. -/
def StackRegister.popped (word : Word) : StackRegister → Word
  | .af => word &&& 0xFFF0
  | _ => word

theorem getStack_setStack (state : State) (word : Word) (destination : StackRegister) :
    (state.setStack word destination).getStack destination = destination.popped word := by
  cases destination with
  | af =>
    apply Word.ext_halves
    · rw [StackRegister.popped, Word.upper_and]
      exact (Word.upper_ofBytes _ _).trans BitVec.and_allOnes.symm
    · rw [StackRegister.popped, Word.lower_and]
      exact Word.lower_ofBytes _ _
  | _ => exact Word.ofBytes_halves word

/-- A schedule ends in one state. -/
theorem idle_state {state other : State} {memory otherMemory : μ}
    (same : some (idle state memory) = some (idle other otherMemory)) : state = other :=
  congrArg Segment.state (Option.some.inj same)

theorem getStack_fetched (state : State) (earlier : MasterInterruptState) (opcode : Byte)
    (register : StackRegister) :
    ((state.promoted earlier).fetched opcode).getStack register = state.getStack register := by
  unfold State.promoted
  split <;> cases register <;> rfl

section
variable {μ : Type u} [Store μ Word Byte] (state : State) (memory : μ)

/-- Where the instruction after a push-type instruction is fetched. -/
def Instruction.pushTarget : Instruction → Word
  | .call _ => immediateWord state memory
  | .restart vector => vector.setWidth 16 <<< 3
  | _ => state.pc

/-- The state in which a pop-type instruction has delivered `word`. -/
def Instruction.delivered (word : Word) : Instruction → State → State
  | .pop destination, state => state.setStack word destination
  | .reti, state => { state with pc := word, interrupts := .enabled }
  | _, state => { state with pc := word }

omit [Store μ Word Byte] in
theorem delivered_sp (instruction : Instruction) (word : Word) :
    (instruction.delivered word state).sp = state.sp := by
  cases instruction with
  | pop destination => exact (State.setStack_frame state word destination).1
  | _ => rfl

theorem schedule_push {instruction : Instruction} {word : Word}
    (pushes : instruction.pushes state = some word) :
    (instruction.schedule state memory).getLast? = some
      (idle { state with sp := state.sp - 2, pc := instruction.pushTarget state memory }
        (pushed state memory word)) := by
  cases instruction with
  | push source => cases pushes; rfl
  | restart vector => cases pushes; rfl
  | call condition =>
    rw [Instruction.pushes] at pushes
    split at pushes
    · cases pushes
      rw [Instruction.schedule, if_pos ‹_›]
      rfl
    · cases pushes
  | _ => cases pushes

theorem schedule_pop {instruction : Instruction} (pops : instruction.pops state = true) :
    (instruction.schedule state memory).getLast? = some
      (idle (instruction.delivered (stackTop state memory) { state with sp := state.sp + 2 })
        memory) := by
  cases instruction with
  | pop destination => rfl
  | ret => rfl
  | reti => rfl
  | retIf condition =>
    have taken : state.holds condition = true := pops
    rw [Instruction.schedule, if_pos taken]
    rfl
  | _ => cases pops

end
end GbEmulator.Sm83
