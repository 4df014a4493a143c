import GbEmulator.InstructionSet.Completion
import GbEmulator.InstructionSet.Frame
import GbEmulator.Utility.Carries

/-! Counting instructions against integer counters. A byte counts modulo 256 inside
its own half of a pair, a pair modulo 2^16 across both halves. -/
namespace GbEmulator.Sm83

inductive Direction where
  | up | down
  deriving DecidableEq, Repr

namespace Direction

def delta : Direction → Int
  | .up => 1
  | .down => -1

def next (direction : Direction) (data : BitVec w) : BitVec w :=
  match direction with
  | .up => data + 1
  | .down => data - 1

/-- The low nibble of a byte that has just carried into, or borrowed from, the high one. -/
def wrapped : Direction → Nat
  | .up => 0
  | .down => 15

theorem next_toNat (direction : Direction) (data : BitVec w) :
    ((direction.next data).toNat : Int) = (data.toNat + direction.delta) % (2 ^ w : Nat) := by
  have one : ((1 : BitVec w).toNat : Int) = 1 % (2 ^ w : Nat) := by
    rw [BitVec.ofNat_eq_ofNat, BitVec.toNat_ofNat, Int.natCast_emod]
    rfl
  cases direction with
  | up => rw [next, BitVec.toNat_add, Int.natCast_emod, Int.natCast_add, one, Int.add_emod_emod]; rfl
  | down => rw [next, UtilityLib.toNat_sub_int, one, Int.sub_emod_emod]; rfl

end Direction

/-- `INC r`, `DEC r`, `INC rr` and `DEC rr`. -/
inductive Counting where
  | byte (direction : Direction) (target : Register8)
  | pair (direction : Direction) (target : Register16)
  deriving DecidableEq, Repr

def Counting.instruction : Counting → Instruction
  | .byte .up target => .increment target
  | .byte .down target => .decrement target
  | .pair .up target => .incrementPair target
  | .pair .down target => .decrementPair target

/-- The accumulator, the pairs and the stack pointer as numbers. -/
@[ext] structure Counters where
  a : Int
  bc : Int
  de : Int
  hl : Int
  sp : Int
  deriving DecidableEq, Repr

namespace Counters

def byte (counters : Counters) : Register8 → Int
  | .a => counters.a
  | .b => counters.bc / 256
  | .c => counters.bc % 256
  | .d => counters.de / 256
  | .e => counters.de % 256
  | .h => counters.hl / 256
  | .l => counters.hl % 256

/-- The other half of the pair keeps its value. -/
def setByte (counters : Counters) (value : Int) : Register8 → Counters
  | .a => { counters with a := value }
  | .b => { counters with bc := 256 * value + counters.bc % 256 }
  | .c => { counters with bc := 256 * (counters.bc / 256) + value }
  | .d => { counters with de := 256 * value + counters.de % 256 }
  | .e => { counters with de := 256 * (counters.de / 256) + value }
  | .h => { counters with hl := 256 * value + counters.hl % 256 }
  | .l => { counters with hl := 256 * (counters.hl / 256) + value }

def pair (counters : Counters) : Register16 → Int
  | .bc => counters.bc
  | .de => counters.de
  | .hl => counters.hl
  | .sp => counters.sp

def setPair (counters : Counters) (value : Int) : Register16 → Counters
  | .bc => { counters with bc := value }
  | .de => { counters with de := value }
  | .hl => { counters with hl := value }
  | .sp => { counters with sp := value }

def count (counters : Counters) : Counting → Counters
  | .byte direction target =>
      counters.setByte ((counters.byte target + direction.delta) % 256) target
  | .pair direction target =>
      counters.setPair ((counters.pair target + direction.delta) % 65536) target

end Counters

/-- Counters with the direction and the result of the last byte step. -/
structure Counted where
  counters : Counters
  lastByte : Option (Direction × Int)
  deriving DecidableEq, Repr

def Counted.count (counted : Counted) (step : Counting) : Counted where
  counters := counted.counters.count step
  lastByte := match step with
    | .byte direction target => some (direction, (counted.counters.count step).byte target)
    | .pair _ _ => counted.lastByte

/-- Z, N and H after counting: those of the last byte step, if there was one. -/
def LastByteFlags (before after : Flags) : Option (Direction × Int) → Prop
  | none => after.zero = before.zero ∧ after.subtract = before.subtract ∧
      after.halfCarry = before.halfCarry
  | some (direction, result) => (after.zero = true ↔ result = 0) ∧
      (after.subtract = true ↔ direction = .down) ∧
      (after.halfCarry = true ↔ result % 16 = direction.wrapped)

namespace State

def counters (state : State) : Counters where
  a := state.a.toNat
  bc := state.bc.toNat
  de := state.de.toNat
  hl := state.hl.toNat
  sp := state.sp.toNat

theorem SameRegisters.counters {left right : State} (same : left.SameRegisters right) :
    left.counters = right.counters := by
  have a : left.a = right.a := same.registers .a
  have bc : left.bc = right.bc := same.pair .bc
  have de : left.de = right.de := same.pair .de
  simp only [State.counters, a, bc, de, same.hl, same.sp]

variable (state : State)

theorem counters_byte (target : Register8) :
    state.counters.byte target = (state.get target).toNat := by
  have halves := Word.ofBytes_toNat
  cases target <;> simp only [counters, Counters.byte, get, bc, de, hl, halves] <;> omega

theorem counters_set (data : Byte) (target : Register8) :
    (state.set data target).counters = state.counters.setByte data.toNat target := by
  have halves := Word.ofBytes_toNat
  cases target <;> simp only [counters, Counters.setByte, set, bc, de, hl, halves] <;> ext <;>
    dsimp only <;> omega

theorem counters_pair (target : Register16) :
    state.counters.pair target = (state.getPair target).toNat := by
  cases target <;> rfl

theorem counters_setPair (word : Word) (target : Register16) :
    (state.setPair word target).counters = state.counters.setPair word.toNat target := by
  have halves := Word.ofBytes_halves word
  cases target <;> simp only [counters, Counters.setPair, setPair, setBc, setDe, setHl, bc, de, hl,
    halves]

/-- The state a byte step leaves. -/
def stepped (direction : Direction) (target : Register8) : State :=
  let result := direction.next (state.get target)
  (state.set result target).setFlags
    ⟨result == 0, direction == .down, result.toNat % 16 == direction.wrapped,
      state.carryFlag⟩

theorem stepped_counters (direction : Direction) (target : Register8) :
    (state.stepped direction target).counters =
      state.counters.setByte ((state.counters.byte target + direction.delta) % 256) target := by
  rw [counters_byte]
  exact (state.counters_set _ target).trans
    (congrArg (state.counters.setByte · target) (direction.next_toNat _))

theorem stepped_flags (direction : Direction) (target : Register8) :
    let result := (state.stepped direction target).counters.byte target
    let flags := (state.stepped direction target).flags
    flags.carry = state.flags.carry ∧ (flags.zero = true ↔ result = 0) ∧
      (flags.subtract = true ↔ direction = .down) ∧
      (flags.halfCarry = true ↔ result % 16 = direction.wrapped) := by
  have result : (state.stepped direction target).counters.byte target =
      (direction.next (state.get target)).toNat := by
    rw [counters_byte]
    exact congrArg (fun data : Byte => (data.toNat : Int))
      ((get_set state target _ target).trans (if_pos rfl))
  have flags : (state.stepped direction target).flags = _ := Flags.ofByte_toByte _
  rw [result, flags]
  refine ⟨rfl, ?_, beq_iff_eq, ?_⟩
  · rw [beq_iff_eq, ← BitVec.toNat_inj]
    exact Int.natCast_eq_zero.symm
  · rw [beq_iff_eq]
    omega

end State

section Steps
variable {μ : Type u} [Store μ Word Byte] (state : State) (memory : μ)

theorem finished_byte (direction : Direction) (target : Register8) :
    ((Counting.byte direction target).instruction.finished state memory).1 =
      state.stepped direction target := by
  cases direction <;> rfl

theorem finished_pair (direction : Direction) (target : Register16) :
    ((Counting.pair direction target).instruction.finished state memory).1 =
      state.setPair (direction.next (state.getPair target)) target := by
  cases direction <;> rfl

/-- What one counting instruction does to the counters. -/
theorem counters_count (step : Counting) :
    (step.instruction.finished state memory).1.counters = state.counters.count step := by
  cases step with
  | byte direction target => rw [finished_byte, State.stepped_counters]; rfl
  | pair direction target =>
    rw [finished_pair, State.counters_setPair, direction.next_toNat, ← State.counters_pair]
    rfl

end Steps
end GbEmulator.Sm83
