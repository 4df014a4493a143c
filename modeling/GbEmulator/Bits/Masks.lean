import GbEmulator.Bits.Words

/-! Data confined to the bits of a mask, and operations that cannot see past it. -/
namespace GbEmulator.Mask

variable {w : Nat}

/-- No bit of the data lies outside the mask. -/
def Covers (mask data : BitVec w) : Prop :=
  ∀ i < w, data.getLsbD i = true → mask.getLsbD i = true

theorem covers_iff (mask data : BitVec w) : Covers mask data ↔ data &&& mask = data := by
  constructor
  · intro inside
    apply BitVec.eq_of_getLsbD_eq
    intro i bound
    rw [BitVec.getLsbD_and]
    by_cases set : data.getLsbD i = true
    · rw [set, inside i bound set, Bool.and_self]
    · rw [Bool.eq_false_iff.mpr set, Bool.false_and]
  · intro inside i _ set
    rw [← inside, BitVec.getLsbD_and, Bool.and_eq_true] at set
    exact set.2

instance (mask data : BitVec w) : Decidable (Covers mask data) :=
  decidable_of_iff (data &&& mask = data) (covers_iff mask data).symm

theorem covers_and (mask data : BitVec w) : Covers mask (data &&& mask) := by
  rw [covers_iff, BitVec.and_assoc, BitVec.and_self]

/-- A word lies inside its mask when each byte lies inside its half. -/
theorem covers_halves (mask word : Word) :
    Covers mask word ↔ Covers (Word.upper mask) (Word.upper word) ∧
      Covers (Word.lower mask) (Word.lower word) := by
  rw [covers_iff, covers_iff, covers_iff, ← Word.upper_and, ← Word.lower_and]
  constructor
  · intro inside
    rw [inside]
    exact ⟨rfl, rfl⟩
  · rintro ⟨high, low⟩
    exact Word.ext_halves high low

theorem xor_and (left right mask : BitVec w) :
    (left ^^^ right) &&& mask = (left &&& mask) ^^^ (right &&& mask) := by
  apply BitVec.eq_of_getLsbD_eq
  intro i _
  simp only [BitVec.getLsbD_and, BitVec.getLsbD_xor, Bool.and_xor_distrib_right]

/-! What the mask hides of an operand, the masked result does not depend on. -/
section Hidden
variable {mask first second : BitVec w} (agree : first &&& mask = second &&& mask)
  (operand : BitVec w)
include agree

theorem and_hidden : (first &&& operand) &&& mask = (second &&& operand) &&& mask := by
  rw [BitVec.and_comm first, BitVec.and_comm second, BitVec.and_assoc, BitVec.and_assoc, agree]

theorem or_hidden : (first ||| operand) &&& mask = (second ||| operand) &&& mask := by
  rw [BitVec.and_or_distrib_right, BitVec.and_or_distrib_right, agree]

theorem xor_hidden : (first ^^^ operand) &&& mask = (second ^^^ operand) &&& mask := by
  rw [xor_and, xor_and, agree]

end Hidden

/-! A mask of one bit tests that bit. -/
section OneBit
variable (data : BitVec w) {i : Nat} (bound : i < w)
include bound

theorem twoPow_ne_zero : BitVec.twoPow w i ≠ 0 := by
  intro zero
  have positive := Nat.two_pow_pos i
  rw [← BitVec.toNat_twoPow_of_lt bound, zero, BitVec.ofNat_eq_ofNat, BitVec.toNat_ofNat,
    Nat.zero_mod] at positive
  exact Nat.lt_irrefl 0 positive

theorem clear_test : (data &&& BitVec.twoPow w i == 0) = !data.getLsbD i := by
  rw [BitVec.and_twoPow]
  cases data.getLsbD i with
  | false => exact beq_self_eq_true (0 : BitVec w)
  | true => exact beq_eq_false_iff_ne.mpr (twoPow_ne_zero bound)

theorem set_test : (data &&& BitVec.twoPow w i != 0) = data.getLsbD i := by
  rw [bne, clear_test data bound, Bool.not_not]

theorem positive_iff : 0 < data &&& BitVec.twoPow w i ↔ data.getLsbD i = true := by
  rw [← set_test data bound, bne_iff_ne]
  exact BitVec.pos_iff_ne_zero _

theorem positive_test : decide (data &&& BitVec.twoPow w i > 0) = data.getLsbD i := by
  apply Bool.eq_iff_iff.mpr
  rw [decide_eq_true_eq]
  exact positive_iff data bound

end OneBit
end GbEmulator.Mask
