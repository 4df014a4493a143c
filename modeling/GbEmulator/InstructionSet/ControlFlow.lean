import GbEmulator.InstructionSet.Subroutines

/-! Control flow that the bytes of a program determine. Code is closed if everything it
names as a successor belongs to it; a run leaves such code through HL or the stack only. -/
namespace GbEmulator.Sm83

namespace Instruction

/-- The target that the bytes at an address name. -/
def target (image : Word → Byte) (address : Word) : Instruction → Option Word
  | .jump _ | .call _ => some (Word.ofBytes (image (address + 2)) (image (address + 1)))
  | .jumpRelative _ => some (address + 2 + (image (address + 1)).signExtend 16)
  | .restart vector => some (vector.setWidth 16 <<< 3)
  | _ => none

/-- Whether the next instruction in memory can follow. -/
def fallsThrough : Instruction → Bool
  | .jump none | .jumpRelative none | .call none | .restart _ | .jumpHl | .ret | .reti => false
  | _ => true

/-- What can follow an instruction without HL or the stack. -/
def successors (image : Word → Byte) (address : Word) (instruction : Instruction) : List Word :=
  (if instruction.fallsThrough then [address + BitVec.ofNat 16 instruction.length] else []) ++
    (instruction.target image address).toList

/-- Whether HL or the stack can decide what follows. -/
def computed : Instruction → Bool
  | .jumpHl | .ret | .reti | .retIf _ => true
  | _ => false

/-- Whether HL or the stack does decide it. -/
def indirect (state : State) : Instruction → Bool
  | .retIf condition => state.holds condition
  | instruction => instruction.computed

theorem indirect_computed {state : State} {instruction : Instruction}
    (indirect : instruction.indirect state = true) : instruction.computed = true := by
  cases instruction with
  | retIf condition => rfl
  | _ => exact indirect

theorem indirect_transfers {state : State} {instruction : Instruction}
    (indirect : instruction.indirect state = true) : instruction.transfers state = true := by
  cases instruction with
  | jumpHl => rfl
  | ret => rfl
  | reti => rfl
  | retIf condition => exact indirect
  | _ => cases indirect

theorem falls_through {state : State} {instruction : Instruction}
    (stays : instruction.transfers state = false) : instruction.fallsThrough = true := by
  cases instruction with
  | jump condition => cases condition <;> first | rfl | cases stays
  | jumpRelative condition => cases condition <;> first | rfl | cases stays
  | call condition => cases condition <;> first | rfl | cases stays
  | restart vector => cases stays
  | jumpHl => cases stays
  | ret => cases stays
  | reti => cases stays
  | _ => rfl

section
variable {μ : Type u} [Store μ Word Byte] (state : State) (memory : μ)

/-- Where control goes if it is transferred. -/
def destination : Instruction → Word
  | .jump _ | .call _ => immediateWord state memory
  | .jumpRelative _ => state.pc + (1 + (immediate state memory).signExtend 16)
  | .restart vector => vector.setWidth 16 <<< 3
  | .jumpHl => state.hl
  | _ => stackTop state memory

attribute [local simp] finished schedule Machine.reached fetchImmediate fetchImmediateWord
  popCycles pushCycles returnCycles idle reading writing State.skip destination transfers

theorem finished_transfers {instruction : Instruction}
    (transfers : instruction.transfers state = true) :
    (instruction.finished state memory).1.pc = instruction.destination state memory := by
  cases instruction with
  | jump condition => simp [show state.takes condition = true from transfers]
  | jumpRelative condition => simp [show state.takes condition = true from transfers]
  | call condition => simp [show state.takes condition = true from transfers]
  | retIf condition => simp [show state.holds condition = true from transfers]
  | jumpHl => rfl
  | ret => rfl
  | reti => rfl
  | restart vector => rfl
  | _ => cases transfers

theorem finished_stays {instruction : Instruction}
    (stays : instruction.transfers state = false) :
    (instruction.finished state memory).1.pc =
      state.pc + BitVec.ofNat 16 (instruction.length - 1) := by
  obtain ⟨final, finalMemory, ends, passed⟩ := schedule_last state memory instruction
  have same := idle_state ((instruction.finished_last state memory).symm.trans ends)
  rw [same]
  exact passed stays

end
end Instruction

/-- The bytes of a program, those that no store can change, and where its code is. -/
structure Program where
  image : Word → Byte
  fixed : Word → Prop
  code : Word → Prop

/-- Every opcode of the code has an instruction, in bytes that stay, and whatever they name
as a successor is code. -/
structure Program.Closed (program : Program) : Prop where
  decoded : ∀ {address}, program.code address →
    ∃ instruction, decode (program.image address) = .implemented instruction
  fixed : ∀ {address instruction}, program.code address →
    decode (program.image address) = .implemented instruction →
    ∀ offset < instruction.length, program.fixed (address + BitVec.ofNat 16 offset)
  successors : ∀ {address instruction}, program.code address →
    decode (program.image address) = .implemented instruction →
    ∀ successor ∈ instruction.successors program.image address, program.code successor

section
variable {μ : Type u} [Store μ Word Byte]

/-- Memory that holds the program. -/
def Program.Shown (program : Program) (memory : μ) : Prop :=
  ∀ address, program.fixed address → Store.load memory address = program.image address

/-- About to execute an opcode of the code. -/
structure Configuration.InCode (program : Program) (configuration : Configuration μ) : Prop where
  shown : program.Shown configuration.memory
  located : ∃ address, program.code address ∧ configuration.At address

/-- A transfer through HL or the stack out of the code. -/
structure Configuration.Leaves (program : Program) (configuration : Configuration μ)
    (instruction : Instruction) : Prop where
  inside : configuration.InCode program
  decoded : configuration.decoded = .implemented instruction
  indirect : instruction.indirect configuration.state = true
  outside : ¬program.code (instruction.destination configuration.state configuration.memory)

variable {program : Program} {configuration : Configuration μ} {instruction : Instruction}

section Successors
variable {state : State} {memory : μ} {address : Word} (shown : program.Shown memory)
  (located : state.pc = address + 1)
  (fixed : ∀ offset < instruction.length, program.fixed (address + BitVec.ofNat 16 offset))
include shown located fixed

theorem immediate_image (long : 1 < instruction.length) :
    immediate state memory = program.image (address + 1) := by
  rw [immediate, located]
  exact shown _ (fixed 1 long)

theorem immediateWord_image (long : 2 < instruction.length) :
    immediateWord state memory =
      Word.ofBytes (program.image (address + 2)) (program.image (address + 1)) := by
  have second : Store.load memory (address + 2) = program.image (address + 2) :=
    shown _ (fixed 2 long)
  have next : address + 1 + 1 = address + 2 := BitVec.add_assoc _ _ _
  rw [immediateWord, located, next, second]
  exact congrArg _ (shown _ (fixed 1 (by omega)))

/-- A transfer goes to the target that its bytes name, or through HL or the stack. -/
theorem Instruction.destination_target (transfers : instruction.transfers state = true) :
    instruction.indirect state = true ∨
      instruction.target program.image address = some (instruction.destination state memory) := by
  cases instruction with
  | jump condition =>
    have word := immediateWord_image shown located fixed (by decide : 2 < 3)
    exact .inr (congrArg some word.symm)
  | call condition =>
    have word := immediateWord_image shown located fixed (by decide : 2 < 3)
    exact .inr (congrArg some word.symm)
  | jumpRelative condition =>
    have byte := immediate_image shown located fixed (by decide : 1 < 2)
    right
    rw [target, destination, byte, located]
    exact congrArg some (by bv_omega)
  | restart vector => exact .inr rfl
  | jumpHl => exact .inl rfl
  | ret => exact .inl rfl
  | reti => exact .inl rfl
  | retIf condition => exact .inl transfers
  | _ => cases transfers

/-- Only HL and the stack can lead where the bytes of an instruction do not. -/
theorem Instruction.finished_successor :
    instruction.indirect state = true ∨
      (instruction.finished state memory).1.pc ∈
        instruction.successors program.image address := by
  cases transfers : instruction.transfers state with
  | false =>
    right
    have positive := instruction.length_pos
    have next : (instruction.finished state memory).1.pc =
        address + BitVec.ofNat 16 instruction.length := by
      rw [finished_stays state memory transfers, located]
      bv_omega
    rw [successors, if_pos (falls_through transfers), next]
    exact List.mem_append_left _ (List.mem_singleton_self _)
  | true =>
    rcases destination_target shown located fixed transfers with indirect | named
    · exact .inl indirect
    · right
      rw [successors, named, finished_transfers state memory transfers]
      exact List.mem_append_right _ (List.mem_singleton_self _)

end Successors

namespace Program.Closed
variable (closed : program.Closed)
  (store : ∀ {memory : μ}, program.Shown memory → ∀ address data,
    program.Shown (Store.store memory address data))
include closed

/-- What comes next is what the program has at that address. -/
theorem decoded_image {address : Word} (code : program.code address)
    (shown : program.Shown configuration.memory) (located : configuration.At address) :
    configuration.decoded = decode (program.image address) := by
  obtain ⟨instruction, decoded⟩ := closed.decoded code
  have first := closed.fixed code decoded 0 instruction.length_pos
  rw [BitVec.add_zero] at first
  rw [Configuration.decoded, located.opcode, shown address first]

theorem instruction_at (inside : configuration.InCode program) :
    ∃ instruction, configuration.decoded = .implemented instruction := by
  obtain ⟨shown, address, code, located⟩ := inside
  rw [closed.decoded_image code shown located]
  exact closed.decoded code

/-- Code that HL and the stack decide nothing in. -/
theorem confined (direct : ∀ address instruction, program.code address →
      decode (program.image address) = .implemented instruction → instruction.computed = false) :
    ¬configuration.Leaves program instruction := by
  intro leaves
  obtain ⟨shown, address, code, located⟩ := leaves.inside
  have decoded := leaves.decoded
  rw [closed.decoded_image code shown located] at decoded
  have computed := Instruction.indirect_computed leaves.indirect
  rw [direct address instruction code decoded] at computed
  cases computed

include store

/-- One instruction of the code goes on in the code or leaves it. -/
theorem step (inside : configuration.InCode program)
    (decoded : configuration.decoded = .implemented instruction) :
    (instruction.execute configuration).InCode program ∨
      configuration.Leaves program instruction := by
  obtain ⟨shown, address, code, located⟩ := id inside
  have image := decoded
  rw [closed.decoded_image code shown located] at image
  by_cases stays : program.code (instruction.finished configuration.state configuration.memory).1.pc
  · exact .inl ⟨finished_valid store shown instruction _, _, stays, execute_at instruction _⟩
  · rcases Instruction.finished_successor shown located.pc (closed.fixed code image) with
      indirect | named
    · rw [Instruction.finished_transfers _ _ (Instruction.indirect_transfers indirect)] at stays
      exact .inr ⟨inside, decoded, indirect, stays⟩
    · exact absurd (closed.successors code image _ named) stays

end Program.Closed

namespace Configuration.HaltsAt
variable {cycles : Nat} {halt : Halt μ}

theorem absent (halts : configuration.HaltsAt cycles halt) :
    decode halt.state.opcode ≠ .implemented instruction := by
  intro decoded
  have faulty := halts.fault
  rw [decoded] at faulty
  cases faulty

/-- What halts does so after the instruction it has ahead of it. -/
theorem next (halts : configuration.HaltsAt cycles halt)
    (decoded : configuration.decoded = .implemented instruction) :
    ∃ more, cycles = instruction.mCycles configuration.state + more ∧
      (instruction.execute configuration).HaltsAt more halt := by
  obtain ⟨executes, faulty⟩ := id halts
  cases executes with
  | refl => exact absurd decoded halts.absent
  | step taken rest =>
    obtain ⟨rfl, rfl⟩ := Prod.mk.inj
      (Option.some.inj (taken.symm.trans (next_implemented decoded)))
    exact ⟨_, rfl, rest, faulty⟩

/-- Where an invariant leaves no opcode without an instruction, it has been broken. -/
theorem broken {holds broken : Configuration μ → Prop}
    (ready : ∀ {configuration}, holds configuration →
      ∃ instruction, configuration.decoded = .implemented instruction)
    (kept : ∀ {configuration instruction}, holds configuration →
      configuration.decoded = .implemented instruction →
      holds (instruction.execute configuration) ∨ broken configuration)
    (start : holds configuration) (halts : configuration.HaltsAt cycles halt) :
    ∃ earlier before, earlier < cycles ∧ configuration.Executes earlier before ∧
      broken before := by
  have steps {configuration following : Configuration μ} {time : Nat}
      (held : holds configuration) (taken : configuration.next = some (time, following)) :
      0 < time ∧ (holds following ∨ broken configuration) := by
    obtain ⟨instruction, decoded⟩ := ready held
    obtain ⟨rfl, rfl⟩ := Prod.mk.inj
      (Option.some.inj (taken.symm.trans (next_implemented decoded)))
    exact ⟨mCycles_pos configuration instruction, kept held decoded⟩
  rcases halts.executes.invariant_until steps start with
    ends | ⟨earlier, before, early, run, -, breaks⟩
  · obtain ⟨instruction, decoded⟩ := ready ends
    exact absurd decoded halts.absent
  · exact ⟨earlier, before, early, run, breaks⟩

end Configuration.HaltsAt
end
end GbEmulator.Sm83
