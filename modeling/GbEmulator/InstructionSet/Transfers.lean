import GbEmulator.InstructionSet.Completion

/-! The eight places A can be stored to, and loaded from. Both directions access one
effective address, which the registers before the instruction and its operand
determine. -/
namespace GbEmulator.Sm83

/-- `(BC)`, `(DE)`, `(HL)`, `(HL+)`, `(HL-)`, `(0xFF00+a8)`, `(0xFF00+C)` and `(a16)`. -/
inductive Place where
  | bc | de | hl | hlIncrement | hlDecrement | highImmediate | highC | absolute
  deriving DecidableEq, Repr

namespace Place

/-- `LD (..),A` and `LDH (a8),A`. -/
def store : Place → Instruction
  | .bc => .storeIndirect .bc
  | .de => .storeIndirect .de
  | .hl => .storeToHl .a
  | .hlIncrement => .storeIndirect .hlIncrement
  | .hlDecrement => .storeIndirect .hlDecrement
  | .highImmediate => .storeHighImmediate
  | .highC => .storeHighC
  | .absolute => .storeAbsolute

/-- `LD A,(..)` and `LDH A,(a8)`. -/
def load : Place → Instruction
  | .bc => .loadIndirect .bc
  | .de => .loadIndirect .de
  | .hl => .loadFromHl .a
  | .hlIncrement => .loadIndirect .hlIncrement
  | .hlDecrement => .loadIndirect .hlDecrement
  | .highImmediate => .loadHighImmediate
  | .highC => .loadHighC
  | .absolute => .loadAbsolute

/-- HL after the access. -/
def moved (hl : Word) : Place → Word
  | .hlIncrement => hl + 1
  | .hlDecrement => hl - 1
  | _ => hl

section
variable {μ : Type u} [Store μ Word Byte] (state : State) (memory : μ)

def address : Place → Word
  | .bc => state.bc
  | .de => state.de
  | .hl | .hlIncrement | .hlDecrement => state.hl
  | .highImmediate => 0xFF00 + (immediate state memory).setWidth 16
  | .highC => 0xFF00 + state.c.setWidth 16
  | .absolute => immediateWord state memory

/-- The reads that fetch the operand. -/
def operandReads : Place → List (Transaction Word Byte)
  | .highImmediate => [.read state.pc (immediate state memory)]
  | .absolute => [.read state.pc (Store.load memory state.pc),
      .read (state.pc + 1) (Store.load memory (state.pc + 1))]
  | _ => []

end
end Place

theorem highPage_eq (low : Byte) : highPage low = 0xFF00 + low.setWidth 16 := by
  revert low
  decide

theorem setHl_hl (state : State) (word : Word) : (state.setHl word).hl = word :=
  Word.ofBytes_halves word

section Effects
variable {μ : Type u} [Store μ Word Byte] (state : State) (memory : μ)

/-- The address as the schedules compute it. -/
theorem address_pages (place : Place) :
    place.address state memory = match place with
      | .highImmediate => highPage (immediate state memory)
      | .highC => highPage state.c
      | place => place.address state memory := by
  cases place with
  | highImmediate => exact (highPage_eq _).symm
  | highC => exact (highPage_eq _).symm
  | _ => rfl

/-- A store writes A once, at its effective address. -/
theorem store_accesses (place : Place) :
    place.store.accesses state memory =
      place.operandReads state memory ++ [.write (place.address state memory) state.a] := by
  rw [address_pages]
  cases place <;> rfl

theorem store_memory (place : Place) :
    (place.store.finished state memory).2 =
      Store.store memory (place.address state memory) state.a := by
  rw [address_pages]
  cases place <;> rfl

theorem store_hl (place : Place) :
    (place.store.finished state memory).1.hl = place.moved state.hl := by
  cases place with
  | hlIncrement => exact setHl_hl state _
  | hlDecrement => exact setHl_hl state _
  | _ => rfl

/-- A load reads its effective address once and leaves memory as it was. -/
theorem load_accesses (place : Place) :
    place.load.accesses state memory = place.operandReads state memory ++
      [.read (place.address state memory)
        (Store.load memory (place.address state memory))] := by
  rw [address_pages]
  cases place <;> rfl

theorem load_memory (place : Place) : (place.load.finished state memory).2 = memory := by
  cases place <;> rfl

theorem load_a (place : Place) :
    (place.load.finished state memory).1.a = Store.load memory (place.address state memory) := by
  rw [address_pages]
  cases place <;> rfl

theorem load_hl (place : Place) :
    (place.load.finished state memory).1.hl = place.moved state.hl := by
  cases place with
  | hlIncrement => exact setHl_hl state _
  | hlDecrement => exact setHl_hl state _
  | _ => rfl

end Effects
end GbEmulator.Sm83
