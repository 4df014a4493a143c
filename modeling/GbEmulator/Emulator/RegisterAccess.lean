import GbEmulator.Bits.Masks
import GbEmulator.Emulator.Register

/-! The operators of `Register` that write, and sequences of them that reach one
sixteen-bit register as a pair or through the views of its two bytes. -/
namespace GbEmulator

/-- An operator on promoted operands, cast back to `T`: both branches of the source
compute in 32 bits. -/
def promoted (operator : BitVec 32 → BitVec 32 → BitVec 32) (left right : BitVec w) : BitVec w :=
  (operator (left.setWidth 32) (right.setWidth 32)).setWidth w

section
variable (narrow : w ≤ 32) (left right : BitVec w)
include narrow

theorem promoted_add : promoted (· + ·) left right = left + right := by
  rw [promoted, BitVec.setWidth_add _ _ narrow, BitVec.setWidth_setWidth_of_le _ narrow,
    BitVec.setWidth_setWidth_of_le _ narrow, BitVec.setWidth_eq, BitVec.setWidth_eq]

theorem promoted_sub : promoted (· - ·) left right = left - right := by
  have restored : promoted (· - ·) left right + right = left := by
    calc promoted (· - ·) left right + right
      _ = (left.setWidth 32 - right.setWidth 32).setWidth w + (right.setWidth 32).setWidth w := by
        rw [BitVec.setWidth_setWidth_of_le _ narrow, BitVec.setWidth_eq]
        rfl
      _ = (left.setWidth 32).setWidth w := by
        rw [← BitVec.setWidth_add _ _ narrow, BitVec.sub_add_cancel]
      _ = left := by
        rw [BitVec.setWidth_setWidth_of_le _ narrow, BitVec.setWidth_eq]
  exact BitVec.eq_sub_iff_add_eq.mpr restored

end

inductive Mutator where
  | assign
  | addAssign
  | subAssign
  | andAssign
  | orAssign
  | xorAssign
  deriving DecidableEq, Repr

namespace Register
variable {σ : Type} {w : Nat}

/-- A register with a backing variable of its own. -/
def standAlone (mask : BitVec w) : Register (BitVec w) w where
  value data := data
  write _ data := data
  mask := mask

def mutate (register : Register σ w) : Mutator → BitVec w → σ → σ
  | .assign => register.assign
  | .addAssign => register.addAssign
  | .subAssign => register.subAssign
  | .andAssign => register.andAssign
  | .orAssign => register.orAssign
  | .xorAssign => register.xorAssign

section
variable (register : Register σ w) (mutator : Mutator) (operand : BitVec w) (state : σ)

/-- A register writes what it would leave in a variable of its own. -/
theorem mutate_eq : register.mutate mutator operand state =
    register.write state
      ((standAlone register.mask).mutate mutator operand (register.value state)) := by
  cases mutator <;> rfl

theorem value_mutate : register.value (register.mutate mutator operand state) =
    (standAlone register.mask).mutate mutator operand (register.value state) := by
  rw [mutate_eq, value_write]

theorem mutate_covered :
    Mask.Covers register.mask (register.value (register.mutate mutator operand state)) := by
  rw [value_mutate]
  cases mutator <;> exact Mask.covers_and _ _

/-- The bits a mask hides have no part in what an operator leaves. -/
theorem mutate_hidden {first second : σ} (agree : register.load first = register.load second) :
    register.value (register.mutate mutator operand first) =
      register.value (register.mutate mutator operand second) := by
  rw [value_mutate, value_mutate]
  cases mutator with
  | assign => rfl
  | addAssign => exact congrArg (fun masked => (masked + operand) &&& register.mask) agree
  | subAssign => exact congrArg (fun masked => (masked - operand) &&& register.mask) agree
  | andAssign => exact Mask.and_hidden agree operand
  | orAssign => exact Mask.or_hidden agree operand
  | xorAssign => exact Mask.xor_hidden agree operand

end

/-- Sums and differences start from the masked value, are cast back to the width of
the register and masked once more; the compound operators store them. -/
structure MasksArithmetic (register : Register σ w) : Prop where
  sum : ∀ operand state,
    register.plus state operand = promoted (· + ·) (register.load state) operand &&& register.mask
  difference : ∀ operand state,
    register.minus state operand = promoted (· - ·) (register.load state) operand &&& register.mask
  stored : ∀ operand state,
    register.value (register.addAssign operand state) = register.plus state operand ∧
      register.value (register.subAssign operand state) = register.minus state operand
  hidden : ∀ operand first second, register.load first = register.load second →
    register.value (register.addAssign operand first) =
        register.value (register.addAssign operand second) ∧
      register.value (register.subAssign operand first) =
        register.value (register.subAssign operand second)

theorem masksArithmetic (register : Register σ w) (narrow : w ≤ 32) :
    register.MasksArithmetic where
  sum operand state := by
    rw [promoted_add narrow]
    rfl
  difference operand state := by
    rw [promoted_sub narrow]
    rfl
  stored _ _ := ⟨register.value_write _ _, register.value_write _ _⟩
  hidden operand _ _ agree :=
    ⟨register.mutate_hidden .addAssign operand agree, register.mutate_hidden .subAssign operand agree⟩

/-- The other operators take the backing value as it is and mask what they store. -/
structure StoresMasked (register : Register σ w) : Prop where
  assigned : ∀ operand state,
    register.value (register.assign operand state) = operand &&& register.mask
  conjunction : ∀ operand state, register.value (register.andAssign operand state) =
    (register.value state &&& operand) &&& register.mask
  disjunction : ∀ operand state, register.value (register.orAssign operand state) =
    (register.value state ||| operand) &&& register.mask
  exclusive : ∀ operand state, register.value (register.xorAssign operand state) =
    (register.value state ^^^ operand) &&& register.mask

theorem storesMasked (register : Register σ w) : register.StoresMasked where
  assigned _ _ := register.value_write _ _
  conjunction _ _ := register.value_write _ _
  disjunction _ _ := register.value_write _ _
  exclusive _ _ := register.value_write _ _

section Views
variable (register : Register σ 16) (mutator : Mutator) (operand : Byte) (state : σ)

theorem value_mutate_upper :
    register.value (register.upperByteAsRegister.mutate mutator operand state) =
      Word.ofBytes ((standAlone (Word.upper register.mask)).mutate mutator operand
        (Word.upper (register.value state))) (Word.lower (register.value state)) := by
  rw [mutate_eq]
  exact register.value_write _ _

theorem value_mutate_lower :
    register.value (register.lowerByteAsRegister.mutate mutator operand state) =
      Word.ofBytes (Word.upper (register.value state))
        ((standAlone (Word.lower register.mask)).mutate mutator operand
          (Word.lower (register.value state))) := by
  rw [mutate_eq]
  exact register.value_write _ _

theorem load_upper : register.upperByteAsRegister.load state = Word.upper (register.load state) :=
  (Word.upper_and _ _).symm

theorem load_lower : register.lowerByteAsRegister.load state = Word.lower (register.load state) :=
  (Word.lower_and _ _).symm

end Views
end Register

/-- One operator applied to a pair, as a whole or through a view of one byte. -/
inductive Access where
  | pair (mutator : Mutator) (operand : Word)
  | upperByte (mutator : Mutator) (operand : Byte)
  | lowerByte (mutator : Mutator) (operand : Byte)
  deriving DecidableEq, Repr

namespace Register
variable {σ : Type} (register : Register σ 16)

def perform (state : σ) : Access → σ
  | .pair mutator operand => register.mutate mutator operand state
  | .upperByte mutator operand => register.upperByteAsRegister.mutate mutator operand state
  | .lowerByte mutator operand => register.lowerByteAsRegister.mutate mutator operand state

def performAll (state : σ) (accesses : List Access) : σ := accesses.foldl register.perform state

theorem performAll_cons (state : σ) (access : Access) (rest : List Access) :
    register.performAll state (access :: rest) =
      register.performAll (register.perform state access) rest := rfl

theorem perform_write (state : σ) (access : Access) :
    ∃ data, register.perform state access = register.write state data := by
  cases access with
  | pair mutator operand => exact ⟨_, register.mutate_eq mutator operand state⟩
  | upperByte mutator operand =>
    exact ⟨_, register.upperByteAsRegister.mutate_eq mutator operand state⟩
  | lowerByte mutator operand =>
    exact ⟨_, register.lowerByteAsRegister.mutate_eq mutator operand state⟩

/-- Wherever a pair is kept, it holds what a variable of its own would hold. -/
theorem value_perform (state : σ) (access : Access) :
    register.value (register.perform state access) =
      (standAlone register.mask).perform (register.value state) access := by
  cases access with
  | pair mutator operand => exact register.value_mutate mutator operand state
  | upperByte mutator operand =>
    exact (register.value_mutate_upper mutator operand state).trans
      ((standAlone register.mask).value_mutate_upper mutator operand _).symm
  | lowerByte mutator operand =>
    exact (register.value_mutate_lower mutator operand state).trans
      ((standAlone register.mask).value_mutate_lower mutator operand _).symm

section Covered
variable {state : σ} (inside : Mask.Covers register.mask (register.value state))
include inside

theorem perform_covered (access : Access) :
    Mask.Covers register.mask (register.value (register.perform state access)) := by
  obtain ⟨high, low⟩ := (Mask.covers_halves _ _).mp inside
  cases access with
  | pair mutator operand => exact register.mutate_covered mutator operand state
  | upperByte mutator operand =>
    refine (Mask.covers_halves _ _).mpr ⟨register.upperByteAsRegister.mutate_covered _ _ _, ?_⟩
    rw [perform, value_mutate_upper, Word.lower_ofBytes]
    exact low
  | lowerByte mutator operand =>
    refine (Mask.covers_halves _ _).mpr ⟨?_, register.lowerByteAsRegister.mutate_covered _ _ _⟩
    rw [perform, value_mutate_lower, Word.upper_ofBytes]
    exact high

theorem performAll_covered (accesses : List Access) :
    Mask.Covers register.mask (register.value (register.performAll state accesses)) := by
  induction accesses generalizing state with
  | nil => exact inside
  | cons access rest ih => exact ih (register.perform_covered inside access)

end Covered

section Hidden
variable {first second : σ} (agree : register.load first = register.load second)
include agree

/-- The masked pair after an access depends on the masked pair before it. -/
theorem perform_hidden (access : Access) :
    register.load (register.perform first access) =
      register.load (register.perform second access) := by
  have high : register.upperByteAsRegister.load first = register.upperByteAsRegister.load second := by
    rw [load_upper, load_upper, agree]
  have low : register.lowerByteAsRegister.load first = register.lowerByteAsRegister.load second := by
    rw [load_lower, load_lower, agree]
  cases access with
  | pair mutator operand =>
    exact congrArg (· &&& register.mask) (register.mutate_hidden mutator operand agree)
  | upperByte mutator operand =>
    apply Word.ext_halves
    · rw [← load_upper, ← load_upper]
      exact congrArg (· &&& Word.upper register.mask)
        (register.upperByteAsRegister.mutate_hidden mutator operand high)
    · rw [load, load, perform, perform, value_mutate_upper, value_mutate_upper, Word.lower_and,
        Word.lower_and, Word.lower_ofBytes, Word.lower_ofBytes]
      exact low
  | lowerByte mutator operand =>
    apply Word.ext_halves
    · rw [load, load, perform, perform, value_mutate_lower, value_mutate_lower, Word.upper_and,
        Word.upper_and, Word.upper_ofBytes, Word.upper_ofBytes]
      exact high
    · rw [← load_lower, ← load_lower]
      exact congrArg (· &&& Word.lower register.mask)
        (register.lowerByteAsRegister.mutate_hidden mutator operand low)

theorem performAll_hidden (accesses : List Access) :
    register.load (register.performAll first accesses) =
      register.load (register.performAll second accesses) := by
  induction accesses generalizing first second with
  | nil => exact agree
  | cons access rest ih => exact ih (register.perform_hidden agree access)

end Hidden
end Register
end GbEmulator
