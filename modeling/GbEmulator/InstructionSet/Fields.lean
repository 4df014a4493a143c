import GbEmulator.InstructionSet.Completion
import GbEmulator.InstructionSet.Frame

/-! The fields of an opcode. The low field of a load or an arithmetic opcode names
its source, the middle field the destination or the operation, and the value 6
stands for the byte at HL in either place. -/
namespace GbEmulator.Sm83

theorem ofField_none {field : Nat} (bound : field < 8) :
    Register8.ofField field = none ↔ field = 6 := by
  revert field
  decide

section Decoder
variable {opcode : Byte}

theorem decode_loads (quadrant : opcode.toNat / 64 = 1) :
    decode opcode = decodeLoad (opcode.toNat / 8 % 8) (opcode.toNat % 8) := by
  simp only [decode, quadrant]

theorem decode_immediateLoads (quadrant : opcode.toNat / 64 = 0) (column : opcode.toNat % 8 = 6) :
    decode opcode = match Register8.ofField (opcode.toNat / 8 % 8) with
      | some destination => .implemented (.loadImmediate destination)
      | none => .implemented .storeImmediateToHl := by
  simp only [decode, quadrant, column]
  rfl

theorem decode_arithmetic (quadrant : opcode.toNat / 64 = 2) :
    decode opcode = decodeAlu (opcode.toNat / 8 % 8) (opcode.toNat % 8) := by
  simp only [decode, quadrant]

theorem decode_immediateArithmetic (quadrant : opcode.toNat / 64 = 3)
    (column : opcode.toNat % 8 = 6) :
    decode opcode = .implemented (.aluImmediate (.ofField (opcode.toNat / 8 % 8))) := by
  simp only [decode, quadrant, column]
  rfl

end Decoder

section Values
variable {μ : Type u} [Store μ Word Byte] (state : State) (memory : μ)

/-- The byte that an operand field names. -/
def State.fieldValue (field : Nat) : Byte :=
  match Register8.ofField field with
  | some register => state.get register
  | none => Store.load memory state.hl

/-- `01dddsss` without HALT, and `00ddd110`. -/
def IsLoad (opcode : Byte) : Prop :=
  opcode.toNat / 64 = 1 ∧ opcode ≠ 0x76 ∨ opcode.toNat / 64 = 0 ∧ opcode.toNat % 8 = 6

def loadedValue (opcode : Byte) : Byte :=
  if opcode.toNat / 64 = 1 then state.fieldValue memory (opcode.toNat % 8)
  else immediate state memory

/-- `10ooosss` and `11ooo110`. -/
def IsArithmetic (opcode : Byte) : Prop :=
  opcode.toNat / 64 = 2 ∨ opcode.toNat / 64 = 3 ∧ opcode.toNat % 8 = 6

def arithmeticOperand (opcode : Byte) : Byte :=
  if opcode.toNat / 64 = 2 then state.fieldValue memory (opcode.toNat % 8)
  else immediate state memory

/-- What a load whose destination field is `target` does with `value`. -/
structure Instruction.Loads (instruction : Instruction) (target : Nat) (value : Byte) : Prop where
  registers : ∀ register, (instruction.finished state memory).1.get register =
    if Register8.ofField target = some register then value else state.get register
  writes : (instruction.accesses state memory).filter Transaction.isWrite =
    if target = 6 then [.write state.hl value] else []
  memory : (instruction.finished state memory).2 =
    if target = 6 then Store.store memory state.hl value else memory

theorem load_into {destination : Register8} {target : Nat} {value : Byte} {instruction : Instruction}
    (named : Register8.ofField target = some destination)
    (registers : ∀ register, (instruction.finished state memory).1.get register =
      if register = destination then value else state.get register)
    (silent : (instruction.accesses state memory).filter Transaction.isWrite = [])
    (kept : (instruction.finished state memory).2 = memory) :
    instruction.Loads state memory target value := by
  have notHl : target ≠ 6 := by
    rintro rfl
    cases named
  refine ⟨?_, by rw [silent, if_neg notHl], by rw [kept, if_neg notHl]⟩
  intro register
  rw [registers, named]
  simp only [Option.some.injEq, eq_comm]

theorem load_atHl {target : Nat} {value : Byte} {instruction : Instruction}
    (named : Register8.ofField target = none) (bound : target < 8)
    (registers : ∀ register, (instruction.finished state memory).1.get register =
      state.get register)
    (writes : (instruction.accesses state memory).filter Transaction.isWrite =
      [.write state.hl value])
    (stored : (instruction.finished state memory).2 = Store.store memory state.hl value) :
    instruction.Loads state memory target value := by
  have atHl := (ofField_none bound).mp named
  refine ⟨?_, by rw [writes, if_pos atHl], by rw [stored, if_pos atHl]⟩
  intro register
  rw [registers, named, if_neg nofun]

/-- Every load opcode agrees with the field decoder. -/
theorem load_decoded {opcode : Byte} (loads : IsLoad opcode) :
    ∃ instruction, decode opcode = .implemented instruction ∧
      instruction.Loads state memory (opcode.toNat / 8 % 8) (loadedValue state memory opcode) := by
  have bound : opcode.toNat / 8 % 8 < 8 := Nat.mod_lt _ (by decide)
  rcases loads with ⟨quadrant, notHalt⟩ | ⟨quadrant, column⟩
  · rw [decode_loads quadrant, loadedValue, if_pos quadrant, State.fieldValue, decodeLoad]
    cases target : Register8.ofField (opcode.toNat / 8 % 8) with
    | some destination =>
      cases Register8.ofField (opcode.toNat % 8) with
      | some source =>
        refine ⟨_, rfl, load_into state memory target (fun register => ?_) rfl rfl⟩
        exact get_set state register _ destination
      | none =>
        refine ⟨_, rfl, load_into state memory target (fun register => ?_) rfl rfl⟩
        exact get_set state register _ destination
    | none =>
      cases source : Register8.ofField (opcode.toNat % 8) with
      | some source => exact ⟨_, rfl, load_atHl state memory target bound (fun _ => rfl) rfl rfl⟩
      | none =>
        have middle := (ofField_none bound).mp target
        have low := (ofField_none (Nat.mod_lt _ (by decide))).mp source
        refine absurd (BitVec.eq_of_toNat_eq ?_) notHalt
        change opcode.toNat = 118
        omega
  · have other : ¬opcode.toNat / 64 = 1 := by omega
    rw [decode_immediateLoads quadrant column, loadedValue, if_neg other]
    cases target : Register8.ofField (opcode.toNat / 8 % 8) with
    | some destination =>
      refine ⟨_, rfl, load_into state memory target (fun register => ?_) rfl rfl⟩
      exact (get_set (state.skip 1) register _ destination).trans
        (congrArg (ite _ _) ((state.skip_registers 1).registers register))
    | none =>
      refine ⟨_, rfl, load_atHl state memory target bound (fun register => ?_) rfl rfl⟩
      exact (state.skip_registers 1).registers register

end Values
end GbEmulator.Sm83
