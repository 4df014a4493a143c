import GbEmulator.InstructionSet.Counters
import GbEmulator.InstructionSet.Execution

/-! Programs in memory. A rule says what its instructions do from the address they are
at; the loop rule is for bodies closed by `DEC r` and `JR NZ`. -/
namespace GbEmulator.Sm83
open Transition

section
variable {μ : Type u} [Store μ Word Byte]

/-- About to execute what is at an address. -/
structure Configuration.At (address : Word) (configuration : Configuration μ) : Prop where
  opcode : configuration.state.opcode = Store.load configuration.memory address
  pc : configuration.state.pc = address + 1

section Steps
variable {configuration : Configuration μ} {address : Word} (instruction : Instruction)

theorem execute_at (configuration : Configuration μ) : (instruction.execute configuration).At
    (instruction.finished configuration.state configuration.memory).1.pc :=
  ⟨rfl, rfl⟩

theorem execute_registers (configuration : Configuration μ) :
    (instruction.execute configuration).state.SameRegisters
      (instruction.finished configuration.state configuration.memory).1 :=
  ⟨fun register => by cases register <;> rfl, rfl, rfl⟩

theorem Configuration.At.next (located : configuration.At address) {instruction : Instruction}
    (holds : decode (Store.load configuration.memory address) = .implemented instruction) :
    configuration.next =
      some (instruction.mCycles configuration.state, instruction.execute configuration) := by
  apply Configuration.next_implemented
  rw [Configuration.decoded, located.opcode]
  exact holds

end Steps

/-- Bytes at consecutive addresses, also across the end of the address space. -/
def Code (memory : μ) (address : Word) (bytes : List Byte) : Prop :=
  ∀ offset, (inside : offset < bytes.length) →
    Store.load memory (address + BitVec.ofNat 16 offset) = bytes[offset]

namespace Code
variable {memory : μ} {address : Word} {byte : Byte} {bytes : List Byte}

theorem head (code : Code memory address (byte :: bytes)) : Store.load memory address = byte := by
  have first := code 0 (Nat.zero_lt_succ _)
  rwa [show address + BitVec.ofNat 16 0 = address from BitVec.add_zero address] at first

theorem tail (code : Code memory address (byte :: bytes)) : Code memory (address + 1) bytes := by
  intro offset inside
  have moved : address + 1 + BitVec.ofNat 16 offset = address + BitVec.ofNat 16 (offset + 1) := by
    rw [Nat.add_comm offset, BitVec.ofNat_add, ← BitVec.add_assoc]
    rfl
  rw [moved]
  exact code (offset + 1) (Nat.succ_lt_succ inside)

/-- A part of the code and what lies behind it. -/
theorem append {front back : List Byte} (code : Code memory address (front ++ back)) :
    Code memory address front ∧ Code memory (address + BitVec.ofNat 16 front.length) back := by
  constructor
  · intro offset inside
    have held := code offset (by rw [List.length_append]; omega)
    rwa [List.getElem_append_left inside] at held
  · intro offset inside
    have held := code (front.length + offset) (by rw [List.length_append]; omega)
    simp only [List.getElem_append_right (Nat.le_add_right _ _), Nat.add_sub_cancel_left] at held
    rwa [BitVec.ofNat_add, ← BitVec.add_assoc] at held

end Code

/-- `DEC r` and a `JR NZ` back to `start`. -/
structure Closes (target : Register8) (start test : Word) (memory : μ) : Prop where
  decrement : decode (Store.load memory test) = .implemented (.decrement target)
  jump : decode (Store.load memory (test + 1)) = .implemented (.jumpRelative (some .nz))
  back : test + 3 + (Store.load memory (test + 2)).signExtend 16 = start

/-- What closing a loop leaves as it was. -/
structure Configuration.Kept (target : Register8) (before after : Configuration μ) : Prop where
  memory : after.memory = before.memory
  registers : ∀ register, register ≠ target → after.state.get register = before.state.get register
  sp : after.state.sp = before.state.sp

section Closing
variable {configuration : Configuration μ} {target : Register8} {start test : Word}

theorem finished_jumpRelative (state : State) (memory : μ) (condition : Option Condition) :
    (Instruction.jumpRelative condition).finished state memory =
      (state.skip (if state.takes condition then 1 + (immediate state memory).signExtend 16 else 1),
        memory) := by
  rw [Instruction.finished, Instruction.schedule]
  by_cases taken : state.takes condition = true
  · rw [if_pos taken, if_pos taken]
    rfl
  · rw [if_neg taken, if_neg taken]
    rfl

theorem decremented_zeroFlag (state : State) (target : Register8) :
    (state.decremented target).zeroFlag = (state.get target - 1 == 0) :=
  Flags.toByte_zero _

theorem get_decremented_self (state : State) (target : Register8) :
    (state.decremented target).get target = state.get target - 1 := by
  rw [State.decremented, get_setFlags, get_set, if_pos rfl]

/-- `DEC r` is on to the jump, with nothing but the register and the flags changed. -/
theorem decrement_at (located : configuration.At test) :
    ((Instruction.decrement target).execute configuration).At (test + 1) := by
  have after := execute_at (.decrement target) configuration
  have pc : (configuration.state.decremented target).pc = test + 1 :=
    (State.decremented_frame configuration.state target).2.1.trans located.pc
  exact pc ▸ after

/-- The jump of a closed loop goes back unless the count is at zero. -/
theorem jump_at {result : Byte} (located : configuration.At (test + 1))
    (closes : Closes target start test configuration.memory)
    (zeroFlag : configuration.state.zeroFlag = (result == 0)) :
    let last := (Instruction.jumpRelative (some .nz)).execute configuration
    configuration.Executes (if result = 0 then 2 else 3) last ∧
      last.At (if result = 0 then test + 3 else start) ∧
      last.state.SameRegisters configuration.state ∧ last.memory = configuration.memory := by
  have pc : configuration.state.pc = test + 2 := located.pc.trans (BitVec.add_assoc test 1 1)
  have offset : immediate configuration.state configuration.memory =
      Store.load configuration.memory (test + 2) :=
    congrArg (Store.load configuration.memory) pc
  have finished := finished_jumpRelative configuration.state configuration.memory (some .nz)
  have jumped : configuration.Executes _ _ := .single (located.next closes.jump)
  have landed := execute_at (.jumpRelative (some .nz)) configuration
  have same := execute_registers (.jumpRelative (some .nz)) configuration
  rw [finished] at landed same
  by_cases zero : result = 0
  · have taken : configuration.state.takes (some .nz) = false := by
      rw [zero] at zeroFlag
      exact congrArg (!·) zeroFlag
    have target : configuration.state.pc + 1 = test + 3 := pc ▸ BitVec.add_assoc test 2 1
    rw [Instruction.mCycles, taken] at jumped
    rw [taken] at landed
    rw [if_pos zero, if_pos zero, ← target]
    exact ⟨jumped, landed, same.trans (State.skip_registers _ _), congrArg Prod.snd finished⟩
  · have taken : configuration.state.takes (some .nz) = true :=
      congrArg (!·) (zeroFlag.trans (beq_eq_false_iff_ne.mpr zero))
    have target : configuration.state.pc +
        (1 + (Store.load configuration.memory (test + 2)).signExtend 16) = start := by
      rw [pc, ← BitVec.add_assoc, BitVec.add_assoc test]
      exact closes.back
    rw [Instruction.mCycles, taken] at jumped
    rw [taken, offset] at landed
    rw [if_neg zero, if_neg zero, ← target]
    exact ⟨jumped, landed, same.trans (State.skip_registers _ _), congrArg Prod.snd finished⟩

/-- The closing instructions count down and go back unless the count is at zero. -/
theorem closes_turn (located : configuration.At test)
    (closes : Closes target start test configuration.memory) {result : Byte}
    (counted : configuration.state.get target - 1 = result) :
    ∃ last, configuration.Executes (1 + if result = 0 then 2 else 3) last ∧
      last.At (if result = 0 then test + 3 else start) ∧ last.state.get target = result ∧
      configuration.Kept target last := by
  have decremented := located.next closes.decrement
  have zeroFlag : ((Instruction.decrement target).execute configuration).state.zeroFlag =
      (result == 0) :=
    (decremented_zeroFlag configuration.state target).trans (congrArg (· == 0) counted)
  obtain ⟨jumped, landed, same, memory⟩ := jump_at (decrement_at located) closes zeroFlag
  have registers := same.trans (execute_registers (.decrement target) configuration)
  refine ⟨_, .step decremented jumped, landed, ?_, ⟨memory, ?_, ?_⟩⟩
  · exact (registers.registers target).trans ((get_decremented_self _ _).trans counted)
  · intro register other
    exact (registers.registers register).trans (get_decremented _ _ other)
  · exact registers.sp.trans (State.decremented_frame configuration.state target).1

end Closing

section Loop
variable {target : Register8} {start test : Word} {time : Nat}
  {invariant : Nat → Configuration μ → Prop}

/-- At an address with some turns of a loop left. -/
structure Configuration.Turn (target : Register8) (address : Word)
    (invariant : Nat → Configuration μ → Prop) (turns left : Nat) (configuration : Configuration μ) :
    Prop where
  located : configuration.At address
  count : configuration.state.get target = BitVec.ofNat 8 turns
  holds : invariant left configuration

/-- At the start of a loop, with `left` turns to follow the one that begins. -/
def Configuration.Begins (target : Register8) (start : Word)
    (invariant : Nat → Configuration μ → Prop) (left : Nat) (configuration : Configuration μ) :
    Prop :=
  left < 256 ∧ configuration.Turn target start invariant (left + 1) (left + 1)

/-- A body that makes one turn, from the start of the loop to its test. The invariant
does not depend on the counter or on the flags. -/
structure Body (target : Register8) (start test : Word) (time : Nat)
    (invariant : Nat → Configuration μ → Prop) : Prop where
  turn : ∀ left, Triple Configuration.next (Configuration.Begins target start invariant left) time
    (fun configuration => configuration.Turn target test invariant (left + 1) left ∧
      Closes target start test configuration.memory)
  stable : ∀ left (before after : Configuration μ), invariant left before →
    before.Kept target after → invariant left after

theorem counter_down (left : Nat) : BitVec.ofNat 8 (left + 1) - 1 = BitVec.ofNat 8 left := by
  rw [BitVec.ofNat_add]
  exact BitVec.add_sub_cancel _ _

theorem counter_zero {left : Nat} (small : left < 256) : BitVec.ofNat 8 left = 0 ↔ left = 0 := by
  rw [← BitVec.toNat_inj, BitVec.toNat_ofNat, Nat.mod_eq_of_lt small]
  rfl

/-- The instructions that close a turn, with `left` turns to follow. -/
theorem Body.closing (body : Body (μ := μ) target start test time invariant) {left : Nat}
    (small : left < 256) :
    Triple Configuration.next
      (fun configuration => configuration.Turn target test invariant (left + 1) left ∧
        Closes target start test configuration.memory)
      (1 + if left = 0 then 2 else 3)
      (Configuration.Turn target (if left = 0 then test + 3 else start) invariant left left) := by
  rintro configuration ⟨⟨located, count, holds⟩, closes⟩
  have counted : configuration.state.get target - 1 = BitVec.ofNat 8 left := by
    rw [count, counter_down]
  obtain ⟨last, executes, landed, result, kept⟩ := closes_turn located closes counted
  simp only [counter_zero small] at executes landed
  exact ⟨last, executes, landed, result, body.stable left _ _ holds kept⟩

theorem Body.again (body : Body (μ := μ) target start test time invariant) (left : Nat) :
    Triple Configuration.next (Configuration.Begins (μ := μ) target start invariant (left + 1))
      (time + 4) (Configuration.Begins target start invariant left) := by
  intro configuration begins
  have closing := body.closing begins.1
  rw [if_neg (Nat.succ_ne_zero left), if_neg (Nat.succ_ne_zero left)] at closing
  obtain ⟨last, executes, turned⟩ := ((body.turn (left + 1)).seq closing) configuration begins
  exact ⟨last, executes, Nat.lt_of_succ_lt begins.1, turned⟩

/-- A body closed by `DEC r` and `JR NZ` makes as many turns as the counter says, 256 if it
is 0, and goes on behind the jump. -/
theorem Body.loop (body : Body (μ := μ) target start test time invariant) (turns : Nat) :
    Triple Configuration.next (Configuration.Begins (μ := μ) target start invariant turns)
      (turns * (time + 4) + (time + 3)) (Configuration.Turn target (test + 3) invariant 0 0) := by
  have closing := body.closing (Nat.zero_lt_succ 255)
  rw [if_pos rfl, if_pos rfl] at closing
  have last := (body.turn 0).seq closing
  exact (Triple.loop body.again turns).seq last

end Loop

end
end GbEmulator.Sm83
