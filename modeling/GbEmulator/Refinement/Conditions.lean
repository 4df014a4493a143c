import GbEmulator.Refinement.Completion

/-! Conditional handlers against unconditional ones. With its condition met a
conditional body runs as the unconditional body does, on registers that differ in
the instruction register at most, so both leave the same processor. -/
namespace GbEmulator
open CpuRegisters UtilityLib Sm83 Coroutine

/-- The same registers with another opcode in the instruction register. -/
def CpuRegisters.withOpcode (registers : CpuRegisters) (opcode : Byte) : CpuRegisters :=
  { registers with backingInstructionRegister := opcode }

section Bodies
variable {μ : Type u} [Store μ Word Byte]

/-- No segment of the body depends on the opcode in the instruction register. -/
def IgnoresOpcode (μ : Type u) [Store μ Word Byte] (body : Handler Unit) : Prop :=
  ∀ registers opcode (memory : μ), body.segments (CpuRegisters.withOpcode registers opcode) memory =
    (body.segments registers memory).map (Segment.map (CpuRegisters.withOpcode · opcode))

theorem executeJumpA16_ignores : IgnoresOpcode μ executeJumpA16 := fun _ _ _ => rfl

theorem executeCallA16_ignores : IgnoresOpcode μ executeCallA16 := fun _ _ _ => rfl

theorem executeJumpRelativeE8_ignores : IgnoresOpcode μ executeJumpRelativeE8 := fun _ _ _ => rfl

theorem executeRet_ignores : IgnoresOpcode μ executeRet := fun _ _ _ => rfl

section Taken
variable (registers : CpuRegisters) (memory : μ)

attribute [local simp] segments State.skip GbEmulator.readFromAddress GbEmulator.writeToAddress
  GbEmulator.coYield alwaysTrue

theorem executeJump_taken (taken : registers.visible.takes condition = true) :
    (executeJump (predicate condition)).segments registers memory =
      executeJumpA16.segments registers memory := by
  simp [executeJumpA16, executeJump, taken]

theorem executeCall_taken (taken : registers.visible.takes condition = true) :
    (executeCall (predicate condition)).segments registers memory =
      executeCallA16.segments registers memory := by
  simp [executeCallA16, executeCall, taken]

theorem executeJumpRelative_taken (taken : registers.visible.takes condition = true) :
    (executeJumpRelative (predicate condition)).segments registers memory =
      executeJumpRelativeE8.segments registers memory := by
  simp [executeJumpRelativeE8, executeJumpRelative, taken]

/-- RET cc tests its condition in a segment of its own. -/
theorem executeRetConditional_taken (holds : registers.visible.holds condition = true) :
    (executeRetConditional (predicate (some condition))).segments registers memory =
      ⟨registers, memory, []⟩ :: executeRet.segments registers memory := by
  simp [executeRetConditional, executeRet, holds]

end Taken
end Bodies

variable {δ : Type u}

theorem foldl_state_map (view : CpuRegisters → CpuRegisters)
    (earlier : List (Segment CpuRegisters (AddressBus δ) Word Byte)) (registers : CpuRegisters) :
    (earlier.map (Segment.map view)).foldl (fun _ segment => segment.state) (view registers) =
      view (earlier.foldl (fun _ segment => segment.state) registers) := by
  induction earlier generalizing registers with
  | nil => rfl
  | cons segment earlier ih => exact ih segment.state

/-- Calls that change nothing and leave the bus alone. -/
def Cpu.idles (cpu : Cpu δ) (count : Nat) :
    List (Segment CpuRegisters (AddressBus δ) Word Byte) :=
  List.replicate count ⟨cpu.registers, cpu.bus, []⟩

theorem leftBy_idles (cpu : Cpu δ) (count : Nat)
    (earlier : List (Segment CpuRegisters (AddressBus δ) Word Byte))
    (last : Segment CpuRegisters (AddressBus δ) Word Byte) :
    cpu.leftBy (cpu.idles count ++ earlier) last = cpu.leftBy earlier last := by
  have unchanged : (cpu.idles count).foldl (fun _ segment => segment.state) cpu.registers =
      cpu.registers := by
    induction count with
    | zero => rfl
    | succ count ih => exact ih
  rw [Cpu.leftBy, List.foldl_append, unchanged, Cpu.leftBy]

theorem idles_silent (cpu : Cpu δ) (count : Nat) :
    (cpu.idles count).flatMap Segment.transactions = [] := by
  induction count with
  | zero => rfl
  | succ count ih => exact ih

variable [AddressBusAddressable δ]

/-- The opcode fetch replaces the instruction register. -/
theorem fetch_withOpcode (cpu : Cpu δ) (opcode : Byte) :
    Cpu.fetch { cpu with registers := cpu.registers.withOpcode opcode } [] = cpu.fetch [] := by
  rw [Cpu.fetch_decoded, Cpu.fetch_decoded]
  have pc : (cpu.registers.withOpcode opcode).visible.pc = cpu.registers.visible.pc := rfl
  have registers (data : Byte) : fetchedRegisters data (cpu.registers.withOpcode opcode) =
      fetchedRegisters data cpu.registers := by
    rw [fetchedRegisters, fetchedRegisters, Register.assign_full rfl, Register.assign_full rfl]
    rfl
  simp only [pc, registers]

theorem promote_withOpcode (pending : Bool) (registers : CpuRegisters) (opcode : Byte) :
    Cpu.promote pending (registers.withOpcode opcode) =
      (Cpu.promote pending registers).withOpcode opcode := by
  have interrupts : (registers.withOpcode opcode).masterInterruptState =
      registers.masterInterruptState := rfl
  rw [Cpu.promote, Cpu.promote, interrupts]
  split <;> rfl

/-- The processor about to execute `plain` instead, from the same registers and bus. -/
structure Cpu.Exchanges (cpu other : Cpu δ) (instruction plain : Instruction) : Prop where
  boundary : cpu.AtBoundary
  decoded : decode cpu.registers.visible.opcode = .implemented instruction
  otherBoundary : other.AtBoundary
  otherDecoded : decode other.registers.visible.opcode = .implemented plain
  bus : other.bus = cpu.bus
  registers : ∃ opcode, other.registers = cpu.registers.withOpcode opcode

/-- What the exchanged instruction does, in terms of the registers it was exchanged from. -/
theorem Cpu.Exchanges.leaves {cpu other : Cpu δ} {instruction plain : Instruction}
    (exchanges : cpu.Exchanges other instruction plain)
    (ignores : IgnoresOpcode (AddressBus δ) plain.handler)
    (parts : plain.handler.segments cpu.registers cpu.bus = earlier ++ [last]) :
    other.after (plain.mCycles other.registers.visible) =
        ((cpu.leftBy earlier last).fetch []).outcome.cpu ∧
      other.accesses plain = earlier.flatMap Segment.transactions ++
        ((cpu.leftBy earlier last).fetch []).transactions ∧
      plain.mCycles other.registers.visible = earlier.length + 1 := by
  obtain ⟨-, -, boundary, decoded, bus, opcode, registers⟩ := exchanges
  have otherParts : plain.handler.segments other.registers other.bus =
      earlier.map (Segment.map (·.withOpcode opcode)) ++ [last.map (·.withOpcode opcode)] := by
    rw [registers, bus, ignores, parts, List.map_append, List.map_singleton]
  have count := congrArg List.length otherParts
  rw [segments_length, List.length_append, List.length_map, List.length_singleton] at count
  obtain ⟨arrived, accesses⟩ := boundary.leaves decoded otherParts
  have left : other.leftBy (earlier.map (Segment.map (·.withOpcode opcode)))
      (last.map (·.withOpcode opcode)) =
        { cpu.leftBy earlier last with
          registers := (cpu.leftBy earlier last).registers.withOpcode opcode } := by
    simp only [Cpu.leftBy, registers, Segment.map, promote_withOpcode,
      foldl_state_map (CpuRegisters.withOpcode · opcode)]
    rfl
  rw [left, fetch_withOpcode] at arrived accesses
  rw [accesses, List.flatMap_map]
  exact ⟨arrived, rfl, count⟩

/-- Bodies with the same segments, idle ones in front aside, leave the same processor. -/
theorem Cpu.Exchanges.completes {cpu other : Cpu δ} {instruction plain : Instruction}
    (exchanges : cpu.Exchanges other instruction plain) (delay : Nat)
    (segments : instruction.handler.segments cpu.registers cpu.bus =
      cpu.idles delay ++ plain.handler.segments cpu.registers cpu.bus)
    (ignores : IgnoresOpcode (AddressBus δ) plain.handler) :
    ∃ next, cpu.Completes instruction next ∧ other.Completes plain next ∧
      cpu.accesses instruction = other.accesses plain ∧
      instruction.mCycles cpu.registers.visible = plain.mCycles other.registers.visible + delay := by
  obtain ⟨earlier, last, parts⟩ := segments_last plain.handler cpu.registers cpu.bus
  obtain ⟨otherArrived, otherAccesses, otherCount⟩ := exchanges.leaves ignores parts
  rw [parts, ← List.append_assoc] at segments
  have count := congrArg List.length segments
  rw [segments_length, List.length_append, List.length_append, Cpu.idles, List.length_replicate,
    List.length_singleton] at count
  obtain ⟨arrived, accesses⟩ := exchanges.boundary.leaves exchanges.decoded segments
  rw [leftBy_idles] at arrived accesses
  obtain ⟨-, next, reached, -⟩ := fetch_shown (cpu.leftBy earlier last)
  refine ⟨next, ⟨exchanges.boundary, exchanges.decoded, arrived.trans reached⟩,
    ⟨exchanges.otherBoundary, exchanges.otherDecoded, otherArrived.trans reached⟩, ?_, by omega⟩
  rw [accesses, otherAccesses, List.flatMap_append, idles_silent, List.nil_append]

/-- The same with interrupts enabled. -/
def CpuRegisters.enabled (registers : CpuRegisters) : CpuRegisters :=
  { registers with masterInterruptState := .enabled }

def Cpu.enabled (cpu : Cpu δ) : Cpu δ := { cpu with registers := cpu.registers.enabled }

theorem promote_enabled (pending : Bool) (registers : CpuRegisters) :
    Cpu.promote pending registers.enabled = registers.enabled := by
  rw [Cpu.promote]
  split <;> rfl

theorem enabled_promote (pending : Bool) (registers : CpuRegisters) :
    (Cpu.promote pending registers).enabled = registers.enabled := by
  rw [Cpu.promote]
  split <;> rfl

theorem fetch_enabled (cpu : Cpu δ) :
    (cpu.enabled.fetch []).transactions = (cpu.fetch []).transactions ∧
      (cpu.enabled.fetch []).outcome.cpu = (cpu.fetch []).outcome.cpu.map Cpu.enabled := by
  have pc : cpu.enabled.registers.visible.pc = cpu.registers.visible.pc := rfl
  have bus : cpu.enabled.bus = cpu.bus := rfl
  have registers (data : Byte) : fetchedRegisters data cpu.enabled.registers =
      (fetchedRegisters data cpu.registers).enabled := by
    rw [fetchedRegisters, fetchedRegisters, Register.assign_full rfl, Register.assign_full rfl]
    rfl
  rw [Cpu.fetch_decoded, Cpu.fetch_decoded]
  simp only [pc, bus, registers, true_and]
  cases decode (cpu.bus.readFromAddress cpu.registers.visible.pc) <;> rfl

/-- RETI runs as RET does and enables interrupts in its third segment. -/
theorem Cpu.Exchanges.completes_reti {cpu other : Cpu δ} (exchanges : cpu.Exchanges other .reti .ret) :
    ∃ next, other.Completes .ret next ∧ cpu.Completes .reti next.enabled ∧
      cpu.accesses .reti = other.accesses .ret := by
  obtain ⟨first, second, third, ret, reti⟩ : ∃ first second third,
      executeRet.segments cpu.registers cpu.bus =
        [first, second, third] ++ [⟨third.state, third.memory, []⟩] ∧
      executeRetI.segments cpu.registers cpu.bus =
        [first, second, third.map CpuRegisters.enabled] ++
          [⟨third.state.enabled, third.memory, []⟩] :=
    ⟨_, _, _, rfl, rfl⟩
  obtain ⟨otherArrived, otherAccesses, -⟩ := exchanges.leaves executeRet_ignores ret
  obtain ⟨arrived, accesses⟩ := exchanges.boundary.leaves exchanges.decoded reti
  have left : cpu.leftBy [first, second, third.map CpuRegisters.enabled]
      ⟨third.state.enabled, third.memory, []⟩ =
        (cpu.leftBy [first, second, third] ⟨third.state, third.memory, []⟩).enabled := by
    rw [Cpu.leftBy, promote_enabled, Cpu.enabled, Cpu.leftBy, enabled_promote]
  obtain ⟨transactions, outcome⟩ :=
    fetch_enabled (cpu.leftBy [first, second, third] ⟨third.state, third.memory, []⟩)
  rw [left, outcome] at arrived
  rw [left, transactions] at accesses
  obtain ⟨-, next, reached, -⟩ :=
    fetch_shown (cpu.leftBy [first, second, third] ⟨third.state, third.memory, []⟩)
  rw [reached] at arrived otherArrived
  exact ⟨next, ⟨exchanges.otherBoundary, exchanges.otherDecoded, otherArrived⟩,
    ⟨exchanges.boundary, exchanges.decoded, arrived⟩, accesses.trans otherAccesses.symm⟩

end GbEmulator
