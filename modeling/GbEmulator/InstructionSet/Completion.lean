import GbEmulator.InstructionSet.Timing

/-! What an instruction has done once all its cycles have been executed: the state
and memory it leaves and the bus accesses it made. The fetch that follows touches
no register of the programmer but PC. -/
namespace GbEmulator.Sm83

/-- The registers a program computes with are the same. -/
structure State.SameRegisters (left right : State) : Prop where
  registers : ∀ register, left.get register = right.get register
  f : left.f = right.f
  sp : left.sp = right.sp

namespace State.SameRegisters

theorem refl (state : State) : state.SameRegisters state := ⟨fun _ => rfl, rfl, rfl⟩

variable {left right : State} (same : left.SameRegisters right)
include same

theorem hl : left.hl = right.hl :=
  congrArg₂ Word.ofBytes (same.registers .h) (same.registers .l)

theorem pair (target : Register16) : left.getPair target = right.getPair target := by
  cases target with
  | bc => exact congrArg₂ Word.ofBytes (same.registers .b) (same.registers .c)
  | de => exact congrArg₂ Word.ofBytes (same.registers .d) (same.registers .e)
  | hl => exact same.hl
  | sp => exact same.sp

theorem flags : left.flags = right.flags := congrArg Flags.ofByte same.f

theorem carryFlag : left.carryFlag = right.carryFlag := congrArg (·.getLsbD 4) same.f

theorem trans {last : State} (next : right.SameRegisters last) : left.SameRegisters last where
  registers register := (same.registers register).trans (next.registers register)
  f := same.f.trans next.f
  sp := same.sp.trans next.sp

end State.SameRegisters

theorem State.skip_registers (state : State) (bytes : Word) :
    (state.skip bytes).SameRegisters state where
  registers register := by cases register <;> rfl
  f := rfl
  sp := rfl

theorem State.fetched_registers (state : State) (earlier : MasterInterruptState) (opcode : Byte) :
    ((state.promoted earlier).fetched opcode).SameRegisters state where
  registers register := by
    unfold State.promoted
    split <;> cases register <;> rfl
  f := (State.promoted_frame state earlier).2.1
  sp := (State.promoted_frame state earlier).2.2.1

namespace Instruction
variable {μ : Type u} [Store μ Word Byte] (state : State) (memory : μ) (instruction : Instruction)

def finished : State × μ := Machine.reached state memory (instruction.schedule state memory)

/-- The bus accesses of an instruction, its opcode fetch not included. -/
def accesses : List (Transaction Word Byte) :=
  (instruction.schedule state memory).flatMap Segment.transactions

theorem finished_last :
    (instruction.schedule state memory).getLast? =
      some (idle (instruction.finished state memory).1 (instruction.finished state memory).2) := by
  obtain ⟨final, finalMemory, ends, -⟩ := schedule_last state memory instruction
  obtain ⟨cycles, split⟩ := List.getLast?_eq_some_iff.mp ends
  have reached : instruction.finished state memory = (final, finalMemory) := by
    rw [finished, split, Machine.reached, List.foldl_append]
    rfl
  rw [ends, reached]

end Instruction
end GbEmulator.Sm83
