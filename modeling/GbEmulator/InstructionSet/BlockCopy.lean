import GbEmulator.InstructionSet.Programs
import Mathlib.Logic.Function.Basic

/-! A loop that copies a block of bytes: `LD A,(HL+)`, `LD (DE),A`, `INC DE`, `DEC B` and
`JR NZ`. -/
namespace GbEmulator.Sm83

section
variable {μ : Type u} [Store μ Word Byte]

/-- Memory that keeps what is stored at some of its addresses and nothing else. -/
structure Remembers (valid : μ → Prop) (writable : Word → Prop) : Prop where
  store : ∀ {memory}, valid memory → ∀ address data, valid (Store.store memory address data)
  load : ∀ {memory}, valid memory → ∀ {address}, writable address → ∀ data other,
    Store.load (Store.store memory address data) other =
      if other = address then data else Store.load memory other

/-- Memory after so many bytes have been copied in ascending order. -/
def copied (original : Word → Byte) (source destination : Word) : Nat → Word → Byte
  | 0 => original
  | done + 1 => Function.update (copied original source destination done)
      (destination + BitVec.ofNat 16 done)
      (copied original source destination done (source + BitVec.ofNat 16 done))

theorem copied_apart (original : Word → Byte) (source destination : Word) {address : Word}
    (apart : ∀ index < done, address ≠ destination + BitVec.ofNat 16 index) :
    copied original source destination done address = original address := by
  induction done with
  | zero => rfl
  | succ done ih =>
    rw [copied, Function.update_of_ne (apart done (Nat.lt_succ_self done))]
    exact ih fun index before => apart index (Nat.lt_succ_of_lt before)

theorem offset_inj {first second : Nat} (base : Word) (firstBound : first < 65536)
    (secondBound : second < 65536)
    (same : base + BitVec.ofNat 16 first = base + BitVec.ofNat 16 second) : first = second := by
  have offsets := congrArg BitVec.toNat ((BitVec.add_right_inj base).mp same)
  rwa [BitVec.toNat_ofNat, BitVec.toNat_ofNat, Nat.mod_eq_of_lt firstBound,
    Nat.mod_eq_of_lt secondBound] at offsets

/-- A block arrives as it was unless one of its bytes is overwritten before its turn. -/
theorem copied_block (original : Word → Byte) (source destination : Word) (small : total ≤ 65536)
    (forward : ∀ written < total, ∀ read < total,
      destination + BitVec.ofNat 16 written = source + BitVec.ofNat 16 read → read ≤ written)
    {index : Nat} (inside : index < total) :
    copied original source destination total (destination + BitVec.ofNat 16 index) =
      original (source + BitVec.ofNat 16 index) := by
  suffices ∀ done ≤ total, index < done →
      copied original source destination done (destination + BitVec.ofNat 16 index) =
        original (source + BitVec.ofNat 16 index) from this total (Nat.le_refl _) inside
  intro done
  induction done with
  | zero =>
    intro bound before
    exact absurd before (Nat.not_lt_zero _)
  | succ done ih =>
    intro bound before
    rw [copied]
    by_cases last : index = done
    · rw [last, Function.update_self]
      apply copied_apart
      intro written earlier same
      exact Nat.not_le.mpr earlier
        (forward written (Nat.lt_trans earlier bound) done bound same.symm)
    · have apart : destination + BitVec.ofNat 16 index ≠ destination + BitVec.ofNat 16 done :=
        fun same => last (offset_inj destination (Nat.lt_of_lt_of_le inside small)
          (Nat.lt_of_lt_of_le bound small) same)
      rw [Function.update_of_ne apart]
      exact ih (Nat.le_of_succ_le bound) (Nat.lt_of_le_of_ne (Nat.le_of_lt_succ before) last)

def copyCode : List Byte := [0x2A, 0x12, 0x13, 0x05, 0x20, 0xFA]

/-- What a copy needs: its code, and room that the code is not in. -/
structure CopyTask (valid : μ → Prop) (writable : Word → Prop) (start : Word) where
  original : μ
  source : Word
  destination : Word
  total : Nat
  code : Code original start copyCode
  room : ∀ index < total, writable (destination + BitVec.ofNat 16 index)
  apart : ∀ index < total, ∀ offset < copyCode.length,
    start + BitVec.ofNat 16 offset ≠ destination + BitVec.ofNat 16 index

namespace CopyTask
variable {valid : μ → Prop} {writable : Word → Prop} {start : Word}
  (task : CopyTask valid writable start)

/-- With `left` bytes still to be copied. -/
structure Copying (left : Nat) (configuration : Configuration μ) : Prop where
  bound : left ≤ task.total
  valid : valid configuration.memory
  memory : ∀ address, Store.load configuration.memory address =
    copied (Store.load task.original) task.source task.destination (task.total - left) address
  hl : configuration.state.hl = task.source + BitVec.ofNat 16 (task.total - left)
  de : configuration.state.de = task.destination + BitVec.ofNat 16 (task.total - left)

variable {task} {configuration : Configuration μ} {left : Nat}

theorem Copying.code (copying : task.Copying left configuration) :
    Code configuration.memory start copyCode := by
  intro offset inside
  rw [copying.memory, copied_apart, task.code offset inside]
  intro index before
  exact task.apart index (Nat.lt_of_lt_of_le before (Nat.sub_le _ _)) offset inside

theorem Copying.stable {before after : Configuration μ} (copying : task.Copying left before)
    (kept : before.Kept .b after) : task.Copying left after where
  bound := copying.bound
  valid := kept.memory ▸ copying.valid
  memory := kept.memory ▸ copying.memory
  hl := (congrArg₂ Word.ofBytes (kept.registers .h (by decide)) (kept.registers .l (by decide))).trans
    copying.hl
  de := (congrArg₂ Word.ofBytes (kept.registers .d (by decide)) (kept.registers .e (by decide))).trans
    copying.de

theorem code_closes {memory : μ} (code : Code memory start copyCode) :
    Closes .b start (start + 1 + 1 + 1) memory where
  decrement := by
    rw [code.tail.tail.tail.head]
    decide
  jump := by
    rw [code.tail.tail.tail.tail.head]
    decide
  back := by
    have operand : start + 1 + 1 + 1 + 2 = start + 1 + 1 + 1 + 1 + 1 :=
      (BitVec.add_assoc _ 1 1).symm
    have offset : (0xFA : Byte).signExtend 16 = 0xFFFA := by decide
    rw [operand, code.tail.tail.tail.tail.tail.head, offset]
    bv_omega

/-- The three instructions of the body. -/
theorem body_executes (configuration : Configuration μ) (located : configuration.At start)
    (code : Code configuration.memory start copyCode)
    (kept : Code (Store.store configuration.memory configuration.state.de
      (Store.load configuration.memory configuration.state.hl)) start copyCode) :
    ∃ last, configuration.Executes 6 last ∧ last.At (start + 1 + 1 + 1) ∧
      last.memory = Store.store configuration.memory configuration.state.de
        (Store.load configuration.memory configuration.state.hl) ∧
      last.state.get .b = configuration.state.get .b ∧
      last.state.hl = configuration.state.hl + 1 ∧ last.state.de = configuration.state.de + 1 := by
  let first := (Instruction.loadIndirect .hlIncrement).execute configuration
  let second := (Instruction.storeIndirect .de).execute first
  let last := (Instruction.incrementPair .de).execute second
  have firstAt : first.At (start + 1) :=
    located.pc ▸ execute_at (.loadIndirect .hlIncrement) configuration
  have secondAt : second.At (start + 1 + 1) := firstAt.pc ▸ execute_at (.storeIndirect .de) first
  have lastAt : last.At (start + 1 + 1 + 1) := secondAt.pc ▸ execute_at (.incrementPair .de) second
  have loads : decode (Store.load configuration.memory start) =
      .implemented (.loadIndirect .hlIncrement) := by
    rw [code.head]
    decide
  have stores : decode (Store.load first.memory (start + 1)) =
      .implemented (.storeIndirect .de) := by
    rw [show first.memory = configuration.memory from rfl, code.tail.head]
    decide
  have advances : decode (Store.load second.memory (start + 1 + 1)) =
      .implemented (.incrementPair .de) := by
    have stored : second.memory = Store.store configuration.memory configuration.state.de
      (Store.load configuration.memory configuration.state.hl) := rfl
    rw [stored, kept.tail.tail.head]
    decide
  refine ⟨last, ?_, lastAt, rfl, rfl, ?_, ?_⟩
  · exact .step (located.next loads) (.step (firstAt.next stores) (.single (secondAt.next advances)))
  · exact Word.ofBytes_halves _
  · exact Word.ofBytes_halves _

theorem done_succ (copying : task.Copying (left + 1) configuration) :
    task.total - left = task.total - (left + 1) + 1 := by
  have bound := copying.bound
  omega

/-- One byte is copied in each turn. -/
theorem Copying.turn (remembers : Remembers (μ := μ) valid writable)
    (located : configuration.At start) (copying : task.Copying (left + 1) configuration) :
    ∃ last, configuration.Executes 6 last ∧ last.At (start + 1 + 1 + 1) ∧
      last.state.get .b = configuration.state.get .b ∧ task.Copying left last := by
  have index : task.total - (left + 1) < task.total := by
    have bound := copying.bound
    omega
  have room := task.room _ index
  rw [← copying.de] at room
  have stored := remembers.load copying.valid room
    (Store.load configuration.memory configuration.state.hl)
  have code : Code (Store.store configuration.memory configuration.state.de
      (Store.load configuration.memory configuration.state.hl)) start copyCode := by
    intro offset inside
    have apart := task.apart _ index offset inside
    rw [← copying.de] at apart
    rw [stored, if_neg apart, copying.code offset inside]
  obtain ⟨last, executes, landed, memory, count, hl, de⟩ :=
    body_executes configuration located copying.code code
  refine ⟨last, executes, landed, count, Nat.le_of_succ_le copying.bound, ?_, ?_, ?_, ?_⟩
  · exact memory ▸ remembers.store copying.valid _ _
  · intro address
    rw [memory, stored, done_succ copying, copied, Function.update_apply, ← copying.de,
      ← copying.hl, ← copying.memory, ← copying.memory]
  · rw [hl, copying.hl, done_succ copying, BitVec.ofNat_add, BitVec.add_assoc]
    rfl
  · rw [de, copying.de, done_succ copying, BitVec.ofNat_add, BitVec.add_assoc]
    rfl

theorem body (remembers : Remembers (μ := μ) valid writable) :
    Body .b start (start + 1 + 1 + 1) 6 task.Copying where
  turn left := by
    rintro configuration ⟨-, located, count, copying⟩
    obtain ⟨last, executes, landed, kept, copied⟩ := copying.turn remembers located
    exact ⟨last, executes, ⟨landed, kept.trans count, copied⟩, code_closes copied.code⟩
  stable _ _ _ copying kept := copying.stable kept

end CopyTask
end
end GbEmulator.Sm83
