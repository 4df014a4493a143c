import GbEmulator.Refinement.Completion
import GbEmulator.Verification.StubPrograms

/-! Relative jumps and `LD HL,SP+e8` add a signed byte to a word, each in its own
bytewise way. Both are addition of the signed value modulo 2^16. -/
namespace GbEmulator
open CpuRegisters Sm83

/-- Adding a sign-extended byte adds its signed value. -/
theorem signExtend_add (word : Word) (offset : Byte) :
    ((word + offset.signExtend 16).toNat : Int) = (word.toNat + offset.toInt) % 65536 := by
  rw [BitVec.toNat_add, BitVec.signExtend, BitVec.toNat_ofInt, Int.natCast_emod]
  omega

variable {δ : Type u} [AddressBusAddressable δ]

theorem offset_adders {cpu : Cpu δ} (boundary : cpu.AtBoundary) :
    let before := cpu.registers.visible
    let offset := cpu.bus.readFromAddress before.pc
    (∀ condition, decode before.opcode = .implemented (.jumpRelative condition) →
      before.takes condition = true →
      ∃ next address, cpu.Completes (.jumpRelative condition) next ∧
        cpu.accesses (.jumpRelative condition) =
          [.read before.pc offset, .read address next.registers.visible.opcode] ∧
        (address.toNat : Int) = ((before.pc + 1).toNat + offset.toInt) % 65536) ∧
    (decode before.opcode = .implemented .loadHlSpOffset →
      ∃ next, cpu.Completes .loadHlSpOffset next ∧
        let after := next.registers.visible
        (after.hl.toNat : Int) = (before.sp.toNat + offset.toInt) % 65536 ∧
        after.sp = before.sp ∧
        after.flags = ⟨false, false, before.sp.toNat % 16 + offset.toNat % 16 > 15,
          before.sp.toNat % 256 + offset.toNat > 255⟩) := by
  constructor
  · intro condition decoded taken
    obtain ⟨next, completes⟩ := boundary.completes decoded
    have accesses := completes.accesses_eq
    simp only [Instruction.accesses, Instruction.finished, Instruction.schedule, if_pos taken]
      at accesses
    refine ⟨next, _, completes, accesses, ?_⟩
    rw [← signExtend_add]
    change ((cpu.registers.visible.pc + (1 + _)).toNat : Int) = _
    rw [← BitVec.add_assoc]
    rfl
  · intro decoded
    obtain ⟨next, completes⟩ := boundary.completes decoded
    refine ⟨next, completes, ?_, completes.registers.sp, ?_⟩
    · rw [completes.registers.hl, ← signExtend_add]
      exact congrArg (fun word : Word => (word.toNat : Int)) (Word.ofBytes_halves _)
    · rw [completes.registers.flags]
      exact Flags.ofByte_toByte _

/-- A two-byte instruction at power up. -/
def offsetCpu (opcode offset : Byte) (instruction : Instruction) : Cpu StubDevice :=
  stubCpu [opcode, offset] instruction (Cpu.powerUp {})

/-- `JR Z,-2` with Z set goes back to itself, and `LD HL,SP-1` takes one from 0xFFFE. -/
theorem offset_adders_negative :
    (∃ next address, (offsetCpu 0x28 0xFE (.jumpRelative (some .z))).Completes
        (.jumpRelative (some .z)) next ∧
      (offsetCpu 0x28 0xFE (.jumpRelative (some .z))).accesses (.jumpRelative (some .z)) =
        [.read 0x0101 0xFE, .read address next.registers.visible.opcode] ∧
      (address.toNat : Int) = 0x0100) ∧
    ∃ next, (offsetCpu 0xF8 0xFF .loadHlSpOffset).Completes .loadHlSpOffset next ∧
      (next.registers.visible.hl.toNat : Int) = 0xFFFD ∧
      next.registers.visible.flags = ⟨false, false, true, true⟩ := by
  constructor
  · have decoded : decode 0x28 = .implemented (.jumpRelative (some .z)) := by decide
    have boundary : (offsetCpu 0x28 0xFE (.jumpRelative (some .z))).AtBoundary :=
      stubCpu_boundary _ decoded
    have operand : (offsetCpu 0x28 0xFE (.jumpRelative (some .z))).bus.readFromAddress
        (offsetCpu 0x28 0xFE (.jumpRelative (some .z))).registers.visible.pc = 0xFE := by
      decide +kernel
    obtain ⟨next, address, completes, accesses, lands⟩ :=
      (offset_adders boundary).1 (some .z) decoded (by decide)
    rw [operand] at accesses lands
    exact ⟨next, address, completes, accesses, lands.trans (by decide +kernel)⟩
  · have decoded : decode 0xF8 = .implemented .loadHlSpOffset := by decide
    have boundary : (offsetCpu 0xF8 0xFF .loadHlSpOffset).AtBoundary := stubCpu_boundary _ decoded
    have operand : (offsetCpu 0xF8 0xFF .loadHlSpOffset).bus.readFromAddress
        (offsetCpu 0xF8 0xFF .loadHlSpOffset).registers.visible.pc = 0xFF := by
      decide +kernel
    obtain ⟨next, completes, hl, -, flags⟩ := (offset_adders boundary).2 decoded
    rw [operand] at hl flags
    exact ⟨next, completes, hl.trans (by decide +kernel), flags.trans (by decide +kernel)⟩

end GbEmulator
