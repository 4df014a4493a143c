import GbEmulator.Emulator.Ram
import GbEmulator.InstructionSet.Arithmetic
import GbEmulator.Refinement.Completion

/-! The two quadrants of the opcode map that are wired by hand to one handler for
each opcode agree with one field decoder: loads between operands, and arithmetic
on the accumulator. -/
namespace GbEmulator
open CpuRegisters Sm83

variable {δ : Type u} [AddressBusAddressable δ]

theorem filter_writes (earlier : List (Transaction Word Byte)) (address : Word) (data : Byte) :
    (earlier ++ [Transaction.read address data]).filter Transaction.isWrite =
      earlier.filter Transaction.isWrite := by
  rw [List.filter_append]
  exact List.append_nil _

/-- Loads: the destination field gets what the source field, or the byte after the
opcode, held before the instruction. -/
theorem load_uniform {cpu : Cpu δ} (boundary : cpu.AtBoundary)
    (loads : IsLoad cpu.registers.visible.opcode) :
    ∃ instruction next, cpu.Completes instruction next ∧
      let before := cpu.registers.visible
      let value := loadedValue before cpu.bus before.opcode
      let target := before.opcode.toNat / 8 % 8
      (∀ register, next.registers.visible.get register =
        if Register8.ofField target = some register then value else before.get register) ∧
      (cpu.accesses instruction).filter Transaction.isWrite =
        (if target = 6 then [.write before.hl value] else []) ∧
      next.bus = if target = 6 then cpu.bus.writeToAddress before.hl value else cpu.bus := by
  obtain ⟨instruction, decoded, loaded⟩ := load_decoded cpu.registers.visible cpu.bus loads
  obtain ⟨next, completes⟩ := boundary.completes decoded
  refine ⟨instruction, next, completes, ?_, ?_, ?_⟩
  · intro register
    exact (completes.registers.registers register).trans (loaded.registers register)
  · rw [completes.accesses_eq, filter_writes]
    exact loaded.writes
  · exact completes.bus.trans loaded.memory

/-- `LD L,(HL)` on the power-up registers. -/
theorem load_uniform_throughHl :
    ∃ instruction next, (Cpu.about (AddressBus.mk [({} : Ram)])
        { Cpu.powerUp {} with backingInstructionRegister := 0x6E } (.loadFromHl .l)).Completes
          instruction next ∧ next.registers.visible.l = 0x00 := by
  have boundary : (Cpu.about (AddressBus.mk [({} : Ram)])
      { Cpu.powerUp {} with backingInstructionRegister := 0x6E } (.loadFromHl .l)).AtBoundary :=
    about_boundary _ (by decide)
  obtain ⟨instruction, next, completes, registers, -⟩ := load_uniform boundary (.inl (by decide))
  refine ⟨instruction, next, completes, (registers .l).trans ?_⟩
  rfl

/-- A completed arithmetic instruction, whichever of the three forms it has. -/
theorem Cpu.Completes.arithmetic {cpu next : Cpu δ} {instruction : Instruction}
    (completes : cpu.Completes instruction next)
    (arithmetic : IsArithmetic cpu.registers.visible.opcode) :
    let before := cpu.registers.visible
    next.registers.visible.SameRegisters
      (before.alu (.ofField (before.opcode.toNat / 8 % 8))
        (arithmeticOperand before cpu.bus before.opcode)) := by
  obtain ⟨same, decoded, executed⟩ := arithmetic_decoded arithmetic cpu.registers.visible cpu.bus
  rw [completes.decoded, Decoded.implemented.injEq] at decoded
  subst decoded
  exact completes.registers.trans executed

/-- Arithmetic: every opcode is its operation on A and the operand its fields name,
so opcodes of one operation agree whenever they see the same operand. -/
theorem arithmetic_uniform {cpu : Cpu δ} (boundary : cpu.AtBoundary)
    (arithmetic : IsArithmetic cpu.registers.visible.opcode) :
    ∃ instruction next, cpu.Completes instruction next ∧
      let before := cpu.registers.visible
      let after := next.registers.visible
      let operation := AluOperation.ofField (before.opcode.toNat / 8 % 8)
      let operand := arithmeticOperand before cpu.bus before.opcode
      (∃ result, operation.Law before.a operand before.carryFlag result after.flags ∧
        after.a = if operation = .cp then before.a else result) ∧
      ∀ (other : Cpu δ) otherInstruction otherNext, other.Completes otherInstruction otherNext →
        let otherBefore := other.registers.visible
        IsArithmetic otherBefore.opcode →
        AluOperation.ofField (otherBefore.opcode.toNat / 8 % 8) = operation →
        otherBefore.a = before.a →
        (operation = .adc ∨ operation = .sbc → otherBefore.carryFlag = before.carryFlag) →
        arithmeticOperand otherBefore other.bus otherBefore.opcode = operand →
          otherNext.registers.visible.a = after.a ∧ otherNext.registers.visible.f = after.f := by
  obtain ⟨instruction, decoded, -⟩ :=
    arithmetic_decoded arithmetic cpu.registers.visible cpu.bus
  obtain ⟨next, completes⟩ := boundary.completes decoded
  have executed := completes.arithmetic arithmetic
  refine ⟨instruction, next, completes, ⟨_, ?_, executed.registers .a⟩, ?_⟩
  · rw [executed.flags, State.alu_flags]
    exact apply_law _ _ _ _
  · intro other otherInstruction otherNext otherCompletes otherBefore otherArithmetic operation
      accumulator carry operand
    have otherExecuted := otherCompletes.arithmetic otherArithmetic
    dsimp only at executed otherExecuted
    rw [operation, operand] at otherExecuted
    obtain ⟨sameA, sameF⟩ := State.alu_agrees _
      (arithmeticOperand cpu.registers.visible cpu.bus cpu.registers.visible.opcode)
      accumulator carry
    constructor
    · exact ((otherExecuted.registers .a).trans sameA).trans (executed.registers .a).symm
    · exact (otherExecuted.f.trans sameF).trans executed.f.symm

/-- `ADC A,A` on the power-up registers doubles A. -/
theorem arithmetic_uniform_powerUp :
    ∃ instruction next, (Cpu.about (AddressBus.mk [({} : Ram)])
        { Cpu.powerUp {} with backingInstructionRegister := 0x8F } (.alu .adc .a)).Completes
          instruction next ∧ next.registers.visible.a.toNat = 2 := by
  have boundary : (Cpu.about (AddressBus.mk [({} : Ram)])
      { Cpu.powerUp {} with backingInstructionRegister := 0x8F } (.alu .adc .a)).AtBoundary :=
    about_boundary _ (by decide)
  obtain ⟨instruction, next, completes, ⟨result, ⟨-, sum, -⟩, stored⟩, -⟩ :=
    arithmetic_uniform boundary (.inl (by decide))
  refine ⟨instruction, next, completes, ?_⟩
  rw [stored]
  exact sum

end GbEmulator
