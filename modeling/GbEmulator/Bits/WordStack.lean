import GbEmulator.Bits.Words

/-! A stack of words in a byte memory: it grows towards lower addresses and keeps
the low byte of a word below the high one. The memory is any read function. -/
namespace GbEmulator.WordStack

/-- The words on the stack, from `top` upwards. -/
def Stored (read : Word → Byte) (top : Word) : List Word → Prop
  | [] => True
  | word :: rest =>
      read top = Word.lower word ∧ read (top + 1) = Word.upper word ∧ Stored read (top + 2) rest

/-- A stack that is not empty lies in `low` to `high` without wrapping around. -/
def Within (low high : Nat) (top : Word) (depth : Nat) : Prop :=
  depth = 0 ∨ low ≤ top.toNat ∧ top.toNat + 2 * depth ≤ high

/-- A byte address of the region. -/
def Inside (low high : Nat) (address : Word) : Prop := low ≤ address.toNat ∧ address.toNat < high

variable {read after : Word → Byte} {top word : Word} {stack rest : List Word}

theorem Stored.top_word (stored : Stored read top (word :: rest)) :
    Word.ofBytes (read (top + 1)) (read top) = word := by
  rw [stored.1, stored.2.1, Word.ofBytes_halves]

theorem Stored.pop (stored : Stored read top (word :: rest)) : Stored read (top + 2) rest :=
  stored.2.2

/-- Only the bytes of the stack matter. -/
theorem Stored.congr (stored : Stored read top stack) (bound : top.toNat + 2 * stack.length < 65536)
    (same : ∀ address : Word, top.toNat ≤ address.toNat →
      address.toNat < top.toNat + 2 * stack.length → after address = read address) :
    Stored after top stack := by
  induction stack generalizing top with
  | nil => trivial
  | cons word rest ih =>
    obtain ⟨low, high, stored⟩ := stored
    rw [List.length_cons] at bound same
    have first : (top + 1).toNat = top.toNat + 1 := by bv_omega
    have second : (top + 2).toNat = top.toNat + 2 := by bv_omega
    refine ⟨(same top (by omega) (by omega)).trans low,
      (same (top + 1) (by omega) (by omega)).trans high, ih stored (by omega) ?_⟩
    intro address above below
    exact same address (by omega) (by omega)

/-- A push writes the two bytes below the top and none above it. -/
theorem Stored.push (stored : Stored read top stack) (bound : top.toNat + 2 * stack.length < 65536)
    (room : 2 ≤ top.toNat) (upper : after (top - 1) = Word.upper word)
    (lower : after (top - 2) = Word.lower word)
    (same : ∀ address : Word, top.toNat ≤ address.toNat →
      address.toNat < top.toNat + 2 * stack.length → after address = read address) :
    Stored after (top - 2) (word :: stack) := by
  have next : top - 2 + 1 = top - 1 := by bv_omega
  have back : top - 2 + 2 = top := by bv_omega
  refine ⟨lower, next ▸ upper, ?_⟩
  rw [back]
  exact stored.congr bound same

section
variable {low high : Nat} (bound : high < 65536) (positive : 2 ≤ low)
include bound positive

theorem Within.push (within : Within low high top depth) (first : Inside low high (top - 1))
    (second : Inside low high (top - 2)) : Within low high (top - 2) (depth + 1) := by
  unfold Within Inside at *
  refine .inr ⟨second.1, ?_⟩
  bv_omega

theorem Within.room (within : Within low high top depth)
    (first : Inside low high (top - 1)) : 2 ≤ top.toNat ∧ top.toNat + 2 * depth < 65536 := by
  unfold Within Inside at *
  bv_omega

theorem Within.pop (within : Within low high top (depth + 1)) : Within low high (top + 2) depth := by
  unfold Within at *
  bv_omega

end
end GbEmulator.WordStack
