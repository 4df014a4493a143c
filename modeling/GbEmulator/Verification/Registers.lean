import GbEmulator.Emulator.CpuRegisters
import GbEmulator.Emulator.HostMemory

/-! A pair and the views of its bytes through any sequence of accesses, in the
memory of the host and in the register file. -/
namespace GbEmulator
open Register

/-- A sixteen-bit register under any mask, after any accesses to it or to its views:
the two bytes make up its value, a view leaves in its byte what a byte register of its
own would, what the mask hides takes no part in a sum or a difference, every operator
stores a masked value, and a value inside the mask stays inside. -/
theorem views_coherent (address : Nat) (mask : Word) (memory : HostMemory)
    (accesses : List Access) :
    let pair := wordAt address mask
    let upper := pair.upperByteAsRegister
    let lower := pair.lowerByteAsRegister
    let reached := pair.performAll memory accesses
    (upper = byteAt (address + 1) (Word.upper mask) ∧ lower = byteAt address (Word.lower mask)) ∧
      (pair.value reached).toNat =
        (upper.value reached).toNat * 256 + (lower.value reached).toNat ∧
      (∀ (mutator : Mutator) (operand : Byte),
        upper.mutate mutator operand reached =
            Function.update reached (address + 1)
              ((standAlone (Word.upper mask)).mutate mutator operand (upper.value reached)) ∧
          lower.mutate mutator operand reached =
            Function.update reached address
              ((standAlone (Word.lower mask)).mutate mutator operand (lower.value reached))) ∧
      (pair.MasksArithmetic ∧ upper.MasksArithmetic ∧ lower.MasksArithmetic) ∧
      (pair.StoresMasked ∧ upper.StoresMasked ∧ lower.StoresMasked) ∧
      (∀ other : HostMemory, pair.load other = pair.load memory →
        pair.load (pair.performAll other accesses) = pair.load reached) ∧
      (Mask.Covers mask (pair.value memory) → Mask.Covers mask (pair.value reached)) := by
  intro pair upper lower reached
  have high : upper = byteAt (address + 1) (Word.upper mask) :=
    upperByteAsRegister_wordAt address mask
  have low : lower = byteAt address (Word.lower mask) := lowerByteAsRegister_wordAt address mask
  refine ⟨⟨high, low⟩, ?_, ?_, ?_, ?_, ?_, ?_⟩
  · rw [high, low]
    exact value_wordAt address mask reached
  · intro mutator operand
    rw [high, low]
    exact ⟨byteAt_mutate (address + 1) _ mutator operand reached,
      byteAt_mutate address _ mutator operand reached⟩
  · exact ⟨pair.masksArithmetic (by decide), upper.masksArithmetic (by decide),
      lower.masksArithmetic (by decide)⟩
  · exact ⟨pair.storesMasked, upper.storesMasked, lower.storesMasked⟩
  · intro other agree
    exact pair.performAll_hidden agree accesses
  · intro inside
    exact pair.performAll_covered inside accesses

theorem views_coherent_af :
    Mask.Covers 0xFFF0 ((wordAt 0x40 0xFFF0).value
      ((wordAt 0x40 0xFFF0).performAll (fun _ => 0)
        [.pair .orAssign 0x12FF, .lowerByte .subAssign 0x01, .upperByte .addAssign 0xFF])) :=
  (views_coherent 0x40 0xFFF0 (fun _ => 0)
    [.pair .orAssign 0x12FF, .lowerByte .subAssign 0x01, .upperByte .addAssign 0xFF]).2.2.2.2.2.2
    (by decide)

/-! The register file keeps each sixteen-bit register in a word of its own, so its
accesses can be told apart by register, however they are interleaved. -/

inductive WordRegister where
  | af
  | bc
  | de
  | hl
  | wz
  | programCounter
  | stackPointer
  deriving DecidableEq, Repr

def WordRegister.location : WordRegister → Register16Bit
  | .af => CpuRegisters.afRegister
  | .bc => CpuRegisters.bcRegister
  | .de => CpuRegisters.deRegister
  | .hl => CpuRegisters.hlRegister
  | .wz => CpuRegisters.wzRegister
  | .programCounter => CpuRegisters.programCounter
  | .stackPointer => CpuRegisters.stackPointer

namespace CpuRegisters

def performAll (registers : CpuRegisters) (accesses : List (WordRegister × Access)) : CpuRegisters :=
  accesses.foldl (fun registers access => access.1.location.perform registers access.2) registers

def accessesOf (register : WordRegister) (accesses : List (WordRegister × Access)) : List Access :=
  (accesses.filter fun access => access.1 = register).map Prod.snd

theorem accessesOf_same (register : WordRegister) (access : Access)
    (rest : List (WordRegister × Access)) :
    accessesOf register ((register, access) :: rest) = access :: accessesOf register rest := by
  simp [accessesOf]

theorem accessesOf_other {register accessed : WordRegister} (apart : accessed ≠ register)
    (access : Access) (rest : List (WordRegister × Access)) :
    accessesOf register ((accessed, access) :: rest) = accessesOf register rest := by
  simp [accessesOf, apart]

theorem location_write_other {register accessed : WordRegister} (apart : accessed ≠ register)
    (registers : CpuRegisters) (data : Word) :
    register.location.value (accessed.location.write registers data) =
      register.location.value registers := by
  cases register <;> cases accessed <;> first | rfl | exact absurd rfl apart

theorem location_perform_other {register accessed : WordRegister} (apart : accessed ≠ register)
    (registers : CpuRegisters) (access : Access) :
    register.location.value (accessed.location.perform registers access) =
      register.location.value registers := by
  obtain ⟨data, written⟩ := accessed.location.perform_write registers access
  rw [written]
  exact location_write_other apart registers data

/-- Each register holds what its own accesses leave in a variable of its own. -/
theorem value_performAll (register : WordRegister) (registers : CpuRegisters)
    (accesses : List (WordRegister × Access)) :
    register.location.value (registers.performAll accesses) =
      (standAlone register.location.mask).performAll (register.location.value registers)
        (accessesOf register accesses) := by
  induction accesses generalizing registers with
  | nil => rfl
  | cons entry rest ih =>
    obtain ⟨accessed, access⟩ := entry
    refine (ih (accessed.location.perform registers access)).trans ?_
    by_cases same : accessed = register
    · subst same
      rw [accessesOf_same, performAll_cons, ← value_perform]
    · rw [accessesOf_other same, location_perform_other same]

/-- From power-up on no register holds a bit outside its mask. -/
theorem performAll_covered (register : WordRegister) (accesses : List (WordRegister × Access)) :
    Mask.Covers register.location.mask
      (register.location.value (({} : CpuRegisters).performAll accesses)) := by
  have start : Mask.Covers register.location.mask
      (register.location.value ({} : CpuRegisters)) := by
    cases register <;> decide
  rw [value_performAll]
  exact (standAlone register.location.mask).performAll_covered start (accessesOf register accesses)

end CpuRegisters

/-- Where the backing words lie: no two of them share a byte. -/
structure Layout where
  address : WordRegister → Nat
  apart : ∀ first second, first ≠ second →
    address first + 1 < address second ∨ address second + 1 < address first

namespace Layout

/-- The words side by side, in the order of their declaration. -/
def sideBySide (base : Nat) : Layout where
  address
    | .af => base
    | .bc => base + 2
    | .de => base + 4
    | .hl => base + 6
    | .wz => base + 8
    | .programCounter => base + 10
    | .stackPointer => base + 12
  apart first second distinct := by
    cases first <;> cases second <;> first | exact absurd rfl distinct | (dsimp only; omega)

variable (layout : Layout)

/-- The register whose reference is the backing word in memory. -/
def register (name : WordRegister) : Register HostMemory 16 :=
  wordAt (layout.address name) name.location.mask

def performAll (memory : HostMemory) (accesses : List (WordRegister × Access)) : HostMemory :=
  accesses.foldl (fun memory access => (layout.register access.1).perform memory access.2) memory

/-- The file has in each register the word that memory has in its place. -/
def Holds (registers : CpuRegisters) (memory : HostMemory) : Prop :=
  ∀ name : WordRegister, name.location.value registers = memory.readWord (layout.address name)

variable {layout} {registers : CpuRegisters} {memory : HostMemory}

theorem Holds.perform (holds : layout.Holds registers memory) (accessed : WordRegister)
    (access : Access) :
    layout.Holds (accessed.location.perform registers access)
      ((layout.register accessed).perform memory access) := by
  intro name
  by_cases same : accessed = name
  · subst same
    calc accessed.location.value (accessed.location.perform registers access)
      _ = (standAlone accessed.location.mask).perform
            (memory.readWord (layout.address accessed)) access := by
        rw [value_perform, holds accessed]
      _ = (layout.register accessed).value ((layout.register accessed).perform memory access) :=
        (value_perform (layout.register accessed) memory access).symm
  · have elsewhere : ((layout.register accessed).perform memory access).readWord
        (layout.address name) = memory.readWord (layout.address name) :=
      readWord_perform_other _ _ access memory (layout.apart accessed name same)
    rw [CpuRegisters.location_perform_other same, elsewhere]
    exact holds name

/-- The register file stands for its words in memory through any interleaving of
accesses to them. -/
theorem Holds.performAll (holds : layout.Holds registers memory)
    (accesses : List (WordRegister × Access)) :
    layout.Holds (registers.performAll accesses) (layout.performAll memory accesses) := by
  induction accesses generalizing registers memory with
  | nil => exact holds
  | cons entry rest ih => exact ih (holds.perform entry.1 entry.2)

end Layout
end GbEmulator
