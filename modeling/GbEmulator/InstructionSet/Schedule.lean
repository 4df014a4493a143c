import GbEmulator.InstructionSet.Instruction
import GbEmulator.Coroutine.Execution

/-! What each instruction does in each of its machine cycles: at most one bus
access, and none in the last cycle, where the next opcode is fetched. Arithmetic
is stated over the natural numbers, offsets by sign extension. -/
namespace GbEmulator.Sm83

/-- Sum of two bytes and a carry with the flags it leaves. -/
def sum (left right : Byte) (carry : Bool) : Byte × Flags :=
  let result := BitVec.ofNat 8 (left.toNat + right.toNat + carry.toNat)
  (result, ⟨result == 0, false, left.toNat % 16 + right.toNat % 16 + carry.toNat > 15,
    left.toNat + right.toNat + carry.toNat > 255⟩)

def difference (left right : Byte) (borrow : Bool) : Byte × Flags :=
  let result := left - right - BitVec.ofNat 8 borrow.toNat
  (result, ⟨result == 0, true, left.toNat % 16 < right.toNat % 16 + borrow.toNat,
    left.toNat < right.toNat + borrow.toNat⟩)

def logical (result : Byte) (halfCarry : Bool) : Byte × Flags :=
  (result, ⟨result == 0, false, halfCarry, false⟩)

def AluOperation.apply (left right : Byte) (carry : Bool) : AluOperation → Byte × Flags
  | .add => sum left right false
  | .adc => sum left right carry
  | .sub | .cp => difference left right false
  | .sbc => difference left right carry
  | .and => logical (left &&& right) true
  | .xor => logical (left ^^^ right) false
  | .or => logical (left ||| right) false

/-- The accumulator after the shift and the bit shifted out. -/
def Rotation.apply (data : Byte) (carry : Bool) : Rotation → Byte × Bool
  | .rlca => (data.rotateLeft 1, data.getLsbD 7)
  | .rrca => (data.rotateRight 1, data.getLsbD 0)
  | .rla => (data <<< 1 ||| BitVec.ofNat 8 carry.toNat, data.getLsbD 7)
  | .rra => (data >>> 1 ||| BitVec.ofNat 8 carry.toNat <<< 7, data.getLsbD 0)

namespace State

def setFlags (state : State) (flags : Flags) : State := { state with f := flags.toByte }

def alu (state : State) (operation : AluOperation) (operand : Byte) : State :=
  let (result, flags) := operation.apply state.a operand state.carryFlag
  { state with a := if operation = AluOperation.cp then state.a else result }.setFlags flags

def incremented (state : State) (target : Register8) : State :=
  let result := state.get target + 1
  (state.set result target).setFlags
    ⟨result == 0, false, result.toNat % 16 == 0, state.carryFlag⟩

def decremented (state : State) (target : Register8) : State :=
  let result := state.get target - 1
  (state.set result target).setFlags
    ⟨result == 0, true, result.toNat % 16 == 15, state.carryFlag⟩

def rotated (state : State) (rotation : Rotation) : State :=
  let (result, carry) := rotation.apply state.a state.carryFlag
  { state with a := result }.setFlags ⟨false, false, false, carry⟩

/-- Flags of `LD HL,SP+e8`, from unsigned sums of the low nibbles and bytes. -/
def offsetFlags (state : State) (offset : Byte) : Flags :=
  ⟨false, false, state.sp.toNat % 16 + offset.toNat % 16 > 15,
    state.sp.toNat % 256 + offset.toNat > 255⟩

section Frames
variable (state : State)

@[simp] theorem setFlags_frame (flags : Flags) :
    (state.setFlags flags).sp = state.sp ∧ (state.setFlags flags).pc = state.pc ∧
      (state.setFlags flags).interrupts = state.interrupts :=
  ⟨rfl, rfl, rfl⟩

@[simp] theorem alu_frame (operation : AluOperation) (operand : Byte) :
    (state.alu operation operand).sp = state.sp ∧ (state.alu operation operand).pc = state.pc ∧
      (state.alu operation operand).interrupts = state.interrupts :=
  ⟨rfl, rfl, rfl⟩

@[simp] theorem incremented_frame (target : Register8) :
    (state.incremented target).sp = state.sp ∧ (state.incremented target).pc = state.pc ∧
      (state.incremented target).interrupts = state.interrupts := by
  simp [incremented]

@[simp] theorem decremented_frame (target : Register8) :
    (state.decremented target).sp = state.sp ∧ (state.decremented target).pc = state.pc ∧
      (state.decremented target).interrupts = state.interrupts := by
  simp [decremented]

@[simp] theorem rotated_frame (rotation : Rotation) :
    (state.rotated rotation).sp = state.sp ∧ (state.rotated rotation).pc = state.pc ∧
      (state.rotated rotation).interrupts = state.interrupts :=
  ⟨rfl, rfl, rfl⟩

end Frames

/-- After the next one or two bytes of the program have been read. -/
def skip (state : State) (bytes : Word) : State := { state with pc := state.pc + bytes }

end State

section
variable {μ : Type u} [Store μ Word Byte]

/-- A cycle without a bus access, one that reads and one that writes. -/
def idle (state : State) (memory : μ) : Segment State μ Word Byte := ⟨state, memory, []⟩

def reading (state : State) (memory : μ) (address : Word) : Segment State μ Word Byte :=
  ⟨state, memory, [.read address (Store.load memory address)]⟩

def writing (state : State) (memory : μ) (address : Word) (data : Byte) :
    Segment State μ Word Byte :=
  ⟨state, Store.store memory address data, [.write address data]⟩

/-- `0xFF00 + low`. -/
def highPage (low : Byte) : Word := Word.ofBytes 0xFF low

/-- The byte at PC, and the little-endian word there. -/
def immediate (state : State) (memory : μ) : Byte := Store.load memory state.pc

def immediateWord (state : State) (memory : μ) : Word :=
  Word.ofBytes (Store.load memory (state.pc + 1)) (Store.load memory state.pc)

/-- The word on top of the stack. -/
def stackTop (state : State) (memory : μ) : Word :=
  Word.ofBytes (Store.load memory (state.sp + 1)) (Store.load memory state.sp)

/-- Memory with `word` pushed below the stack pointer. -/
def pushed (state : State) (memory : μ) (word : Word) : μ :=
  Store.store (Store.store memory (state.sp - 1) (Word.upper word)) (state.sp - 2)
    (Word.lower word)

def fetchImmediate (state : State) (memory : μ) : List (Segment State μ Word Byte) :=
  [reading (state.skip 1) memory state.pc]

def fetchImmediateWord (state : State) (memory : μ) : List (Segment State μ Word Byte) :=
  [reading (state.skip 1) memory state.pc, reading (state.skip 2) memory (state.pc + 1)]

/-- The four cycles of a push; `target` is where PC moves with the second write. -/
def pushCycles (state : State) (memory : μ) (word target : Word) :
    List (Segment State μ Word Byte) :=
  let final := { state with sp := state.sp - 2, pc := target }
  [idle { state with sp := state.sp - 1 } memory,
    writing { state with sp := state.sp - 2 } memory (state.sp - 1) (Word.upper word),
    writing final (Store.store memory (state.sp - 1) (Word.upper word)) (state.sp - 2)
      (Word.lower word),
    idle final (pushed state memory word)]

def popCycles (state : State) (memory : μ) : List (Segment State μ Word Byte) :=
  [reading { state with sp := state.sp + 1 } memory state.sp,
    reading { state with sp := state.sp + 2 } memory (state.sp + 1)]

def returnCycles (state : State) (memory : μ) (interrupts : MasterInterruptState) :
    List (Segment State μ Word Byte) :=
  let final := { state with
    sp := state.sp + 2, pc := stackTop state memory, interrupts := interrupts }
  popCycles state memory ++ [idle final memory, idle final memory]

def Instruction.schedule (state : State) (memory : μ) :
    Instruction → List (Segment State μ Word Byte)
  | .nop => [idle state memory]
  | .load destination source => [idle (state.set (state.get source) destination) memory]
  | .loadImmediate destination =>
      fetchImmediate state memory ++
        [idle ((state.skip 1).set (immediate state memory) destination) memory]
  | .loadFromHl destination =>
      [reading state memory state.hl,
        idle (state.set (Store.load memory state.hl) destination) memory]
  | .storeToHl source =>
      [writing state memory state.hl (state.get source),
        idle state (Store.store memory state.hl (state.get source))]
  | .storeImmediateToHl =>
      fetchImmediate state memory ++
        [writing (state.skip 1) memory state.hl (immediate state memory),
          idle (state.skip 1) (Store.store memory state.hl (immediate state memory))]
  | .loadIndirect pointer =>
      [reading (state.advance pointer) memory (state.pointed pointer),
        idle { state.advance pointer with a := Store.load memory (state.pointed pointer) } memory]
  | .storeIndirect pointer =>
      [writing (state.advance pointer) memory (state.pointed pointer) state.a,
        idle (state.advance pointer) (Store.store memory (state.pointed pointer) state.a)]
  | .loadHighImmediate =>
      let address := highPage (immediate state memory)
      fetchImmediate state memory ++
        [reading (state.skip 1) memory address,
          idle { state.skip 1 with a := Store.load memory address } memory]
  | .storeHighImmediate =>
      let address := highPage (immediate state memory)
      fetchImmediate state memory ++
        [writing (state.skip 1) memory address state.a,
          idle (state.skip 1) (Store.store memory address state.a)]
  | .loadHighC =>
      let final := { state with a := Store.load memory (highPage state.c) }
      [reading final memory (highPage state.c), idle final memory]
  | .storeHighC =>
      [writing state memory (highPage state.c) state.a,
        idle state (Store.store memory (highPage state.c) state.a)]
  | .loadAbsolute =>
      let address := immediateWord state memory
      fetchImmediateWord state memory ++
        [reading (state.skip 2) memory address,
          idle { state.skip 2 with a := Store.load memory address } memory]
  | .storeAbsolute =>
      let address := immediateWord state memory
      fetchImmediateWord state memory ++
        [writing (state.skip 2) memory address state.a,
          idle (state.skip 2) (Store.store memory address state.a)]
  | .loadPairImmediate destination =>
      fetchImmediateWord state memory ++
        [idle ((state.skip 2).setPair (immediateWord state memory) destination) memory]
  | .storeSp =>
      let address := immediateWord state memory
      let first := Store.store memory address (Word.lower state.sp)
      fetchImmediateWord state memory ++
        [writing (state.skip 2) memory address (Word.lower state.sp),
          writing (state.skip 2) first (address + 1) (Word.upper state.sp),
          idle (state.skip 2) (Store.store first (address + 1) (Word.upper state.sp))]
  | .loadSpHl =>
      [idle { state with sp := state.hl } memory, idle { state with sp := state.hl } memory]
  | .loadHlSpOffset =>
      let offset := immediate state memory
      let target := state.sp + offset.signExtend 16
      let low := { state.skip 1 with l := Word.lower target }.setFlags (state.offsetFlags offset)
      fetchImmediate state memory ++
        [idle low memory, idle { low with h := Word.upper target } memory]
  | .push source => pushCycles state memory (state.getStack source) state.pc
  | .pop destination =>
      popCycles state memory ++
        [idle ({ state with sp := state.sp + 2 }.setStack (stackTop state memory) destination)
          memory]
  | .alu operation source => [idle (state.alu operation (state.get source)) memory]
  | .aluFromHl operation =>
      [reading state memory state.hl,
        idle (state.alu operation (Store.load memory state.hl)) memory]
  | .aluImmediate operation =>
      fetchImmediate state memory ++
        [idle ((state.skip 1).alu operation (immediate state memory)) memory]
  | .increment target => [idle (state.incremented target) memory]
  | .decrement target => [idle (state.decremented target) memory]
  | .incrementPair target =>
      let final := state.setPair (state.getPair target + 1) target
      [idle final memory, idle final memory]
  | .decrementPair target =>
      let final := state.setPair (state.getPair target - 1) target
      [idle final memory, idle final memory]
  | .rotate rotation => [idle (state.rotated rotation) memory]
  | .complement =>
      [idle ({ state with a := ~~~state.a }.setFlags
        ⟨state.zeroFlag, true, true, state.carryFlag⟩) memory]
  | .complementCarry =>
      [idle (state.setFlags ⟨state.zeroFlag, false, false, !state.carryFlag⟩) memory]
  | .jump condition =>
      fetchImmediateWord state memory ++
        if state.takes condition then
          let final := { state with pc := immediateWord state memory }
          [idle final memory, idle final memory]
        else [idle (state.skip 2) memory]
  | .jumpRelative condition =>
      fetchImmediate state memory ++
        if state.takes condition then
          [idle (state.skip 1) memory,
            idle (state.skip (1 + (immediate state memory).signExtend 16)) memory]
        else [idle (state.skip 1) memory]
  | .call condition =>
      fetchImmediateWord state memory ++
        if state.takes condition then
          pushCycles (state.skip 2) memory (state.pc + 2) (immediateWord state memory)
        else [idle (state.skip 2) memory]
  | .jumpHl => [idle { state with pc := state.hl } memory]
  | .ret => returnCycles state memory state.interrupts
  | .retIf condition =>
      idle state memory ::
        if state.holds condition then returnCycles state memory state.interrupts
        else [idle state memory]
  | .reti => returnCycles state memory .enabled
  | .restart vector => pushCycles state memory state.pc (vector.setWidth 16 <<< 3)
  | .disableInterrupts => [idle { state with interrupts := .disabled } memory]
  | .enableInterrupts =>
      let interrupts :=
        if state.interrupts = .disabled then .pending else state.interrupts
      [idle { state with interrupts := interrupts } memory]

end
end GbEmulator.Sm83
