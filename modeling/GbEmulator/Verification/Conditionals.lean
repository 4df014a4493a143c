import GbEmulator.Emulator.Ram
import GbEmulator.Refinement.Conditions

/-! Conditional control transfer: with the condition met an instruction does what
the unconditional one does, otherwise it only skips its operand. -/
namespace GbEmulator
open CpuRegisters Sm83

/-- The instructions that come with and without a condition. -/
inductive Transfer where
  | jump | jumpRelative | call | ret
  deriving DecidableEq, Repr

namespace Transfer

def conditional (condition : Condition) : Transfer → Instruction
  | .jump => .jump (some condition)
  | .jumpRelative => .jumpRelative (some condition)
  | .call => .call (some condition)
  | .ret => .retIf condition

def unconditional : Transfer → Instruction
  | .jump => .jump none
  | .jumpRelative => .jumpRelative none
  | .call => .call none
  | .ret => .ret

/-- The call in which RET cc tests its condition. -/
def delay : Transfer → Nat
  | .ret => 1
  | _ => 0

def operandBytes : Transfer → Word
  | .jump | .call => 2
  | .jumpRelative => 1
  | .ret => 0

end Transfer

section Untaken
variable {μ : Type u} [Store μ Word Byte] (state : State) (memory : μ) (transfer : Transfer)

/-- The operand reads of an instruction whose condition is not met. -/
def Transfer.operandReads : Transfer → List (Segment State μ Word Byte)
  | .jump | .call => fetchImmediateWord state memory
  | .jumpRelative => fetchImmediate state memory
  | .ret => [idle state memory]

theorem schedule_untaken (fails : state.holds condition = false) :
    (transfer.conditional condition).schedule state memory =
      transfer.operandReads state memory ++ [idle (state.skip transfer.operandBytes) memory] := by
  have untaken : ¬state.takes (some condition) = true := by
    rw [takes_some, fails]
    exact Bool.false_ne_true
  cases transfer with
  | jump => rw [Transfer.conditional, Instruction.schedule, if_neg untaken]; rfl
  | jumpRelative => rw [Transfer.conditional, Instruction.schedule, if_neg untaken]; rfl
  | call => rw [Transfer.conditional, Instruction.schedule, if_neg untaken]; rfl
  | ret =>
    have skipped : state.skip 0 = state := by
      simp only [State.skip, BitVec.ofNat_eq_ofNat, BitVec.add_zero]
    rw [Transfer.conditional, Instruction.schedule, fails, Transfer.operandBytes, skipped]
    rfl

theorem finished_untaken (fails : state.holds condition = false) :
    (transfer.conditional condition).finished state memory =
      (state.skip transfer.operandBytes, memory) := by
  rw [Instruction.finished, schedule_untaken state memory transfer fails, Machine.reached,
    List.foldl_append]
  rfl

theorem writes_untaken (fails : state.holds condition = false) :
    ((transfer.conditional condition).accesses state memory).filter Transaction.isWrite = [] := by
  rw [Instruction.accesses, schedule_untaken state memory transfer fails]
  cases transfer <;> rfl

end Untaken

variable {δ : Type u} [AddressBusAddressable δ]

/-- With its condition met. -/
theorem taken_completes (transfer : Transfer) {cpu other : Cpu δ}
    (exchanges : cpu.Exchanges other (transfer.conditional condition) transfer.unconditional)
    (holds : cpu.registers.visible.holds condition = true) :
    ∃ next, cpu.Completes (transfer.conditional condition) next ∧
      other.Completes transfer.unconditional next ∧
      cpu.accesses (transfer.conditional condition) = other.accesses transfer.unconditional ∧
      (transfer.conditional condition).mCycles cpu.registers.visible =
        transfer.unconditional.mCycles other.registers.visible + transfer.delay := by
  cases transfer with
  | jump => exact exchanges.completes 0 (executeJump_taken _ _ holds) executeJumpA16_ignores
  | jumpRelative =>
    exact exchanges.completes 0 (executeJumpRelative_taken _ _ holds) executeJumpRelativeE8_ignores
  | call => exact exchanges.completes 0 (executeCall_taken _ _ holds) executeCallA16_ignores
  | ret => exact exchanges.completes 1 (executeRetConditional_taken _ _ holds) executeRet_ignores

/-- Conditional instructions against their unconditional counterparts, and RETI
against RET. -/
theorem conditional_transfer :
    (∀ (transfer : Transfer) (condition : Condition) (cpu other : Cpu δ),
      cpu.Exchanges other (transfer.conditional condition) transfer.unconditional →
      cpu.registers.visible.holds condition = true →
        ∃ next, cpu.Completes (transfer.conditional condition) next ∧
          other.Completes transfer.unconditional next ∧
          cpu.accesses (transfer.conditional condition) = other.accesses transfer.unconditional ∧
          (transfer.conditional condition).mCycles cpu.registers.visible =
            transfer.unconditional.mCycles other.registers.visible + transfer.delay) ∧
    (∀ (transfer : Transfer) (condition : Condition) (cpu : Cpu δ), cpu.AtBoundary →
      decode cpu.registers.visible.opcode = .implemented (transfer.conditional condition) →
      cpu.registers.visible.holds condition = false →
        ∃ next, cpu.Completes (transfer.conditional condition) next ∧
          (cpu.accesses (transfer.conditional condition)).filter Transaction.isWrite = [] ∧
          next.registers.visible.SameRegisters cpu.registers.visible ∧ next.bus = cpu.bus ∧
          (cpu.accesses (transfer.conditional condition)).getLast? =
            some (.read (cpu.registers.visible.pc + transfer.operandBytes)
              next.registers.visible.opcode)) ∧
    (∀ state : State, (state.holds .z = true ↔ ¬state.holds .nz = true) ∧
      (state.holds .c = true ↔ ¬state.holds .nc = true)) ∧
    ∀ cpu other : Cpu δ, cpu.Exchanges other .reti .ret →
      ∃ next, other.Completes .ret next ∧ cpu.Completes .reti next.enabled ∧
        cpu.accesses .reti = other.accesses .ret := by
  refine ⟨?_, ?_, ?_, ?_⟩
  · intro transfer condition cpu other exchanges holds
    exact taken_completes transfer exchanges holds
  · intro transfer condition cpu boundary decoded fails
    obtain ⟨next, completes⟩ := boundary.completes decoded
    have finished := finished_untaken cpu.registers.visible cpu.bus transfer fails
    refine ⟨next, completes, ?_, ?_, ?_, ?_⟩
    · rw [completes.accesses_eq, List.filter_append, writes_untaken _ _ transfer fails]
      rfl
    · have left := completes.registers
      rw [finished] at left
      exact left.trans (State.skip_registers _ _)
    · rw [completes.bus, finished]
    · rw [completes.accesses_eq, List.getLast?_append, finished]
      rfl
  · intro state
    simp [State.holds]
  · intro cpu other exchanges
    exact exchanges.completes_reti

/-- The power-up registers, which have Z set, with an opcode to execute. -/
def jumpingCpu (opcode : Byte) (condition : Option Condition) : Cpu Ram :=
  .about ⟨[{}]⟩ ((Cpu.powerUp {}).withOpcode opcode) (.jump condition)

/-- `JP Z` against `JP`. -/
theorem conditional_transfer_jumpZ :
    ∃ next, (jumpingCpu 0xCA (some .z)).Completes (.jump (some .z)) next ∧
      (jumpingCpu 0xC3 none).Completes (.jump none) next := by
  have decoded : decode 0xCA = .implemented (.jump (some .z)) := by decide
  have otherDecoded : decode 0xC3 = .implemented (.jump none) := by decide
  have exchanges : (jumpingCpu 0xCA (some .z)).Exchanges (jumpingCpu 0xC3 none)
      (Transfer.jump.conditional .z) Transfer.jump.unconditional :=
    ⟨about_boundary _ decoded, decoded, about_boundary _ otherDecoded, otherDecoded, rfl, 0xC3, rfl⟩
  obtain ⟨next, completes, otherCompletes, -⟩ :=
    conditional_transfer.1 .jump .z _ _ exchanges (by decide)
  exact ⟨next, completes, otherCompletes⟩

end GbEmulator
