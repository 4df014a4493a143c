import Mathlib.Logic.Basic

/-! Sixteen-bit words and the two bytes they are made of. -/
namespace GbEmulator

abbrev Byte := BitVec 8
abbrev Word := BitVec 16

namespace Word

def upper (word : Word) : Byte := (word >>> 8).setWidth 8
def lower (word : Word) : Byte := word.setWidth 8
def ofBytes (high low : Byte) : Word := high.setWidth 16 <<< 8 ||| low.setWidth 16

@[simp] theorem upper_ofBytes (high low : Byte) : upper (ofBytes high low) = high := by
  apply BitVec.eq_of_getLsbD_eq
  intro i bound
  simp [upper, ofBytes, bound, show 8 + i < 16 by omega, show i < 16 by omega]

@[simp] theorem lower_ofBytes (high low : Byte) : lower (ofBytes high low) = low := by
  apply BitVec.eq_of_getLsbD_eq
  intro i bound
  simp [lower, ofBytes, bound]

@[simp] theorem ofBytes_halves (word : Word) : ofBytes (upper word) (lower word) = word := by
  apply BitVec.eq_of_getLsbD_eq
  intro i bound
  by_cases low : i < 8
  · simp [upper, lower, ofBytes, low, bound]
  · have high : i - 8 < 8 := by omega
    simp [upper, lower, ofBytes, low, high, bound, show 8 + (i - 8) = i by omega]

theorem ext_halves {left right : Word} (high : upper left = upper right)
    (low : lower left = lower right) : left = right := by
  rw [← ofBytes_halves left, ← ofBytes_halves right, high, low]

theorem upper_toNat (word : Word) : (upper word).toNat = word.toNat / 256 := by
  simp only [upper, BitVec.toNat_setWidth, BitVec.toNat_ushiftRight, Nat.shiftRight_eq_div_pow]
  omega

theorem lower_toNat (word : Word) : (lower word).toNat = word.toNat % 256 := by
  simp [lower]

theorem ofBytes_toNat (high low : Byte) :
    (ofBytes high low).toNat = 256 * high.toNat + low.toNat := by
  have upper := upper_toNat (ofBytes high low)
  have lower := lower_toNat (ofBytes high low)
  rw [upper_ofBytes] at upper
  rw [lower_ofBytes] at lower
  omega

theorem upper_and (left right : Word) : upper (left &&& right) = upper left &&& upper right := by
  simp [upper, BitVec.ushiftRight_and_distrib, BitVec.setWidth_and]

theorem lower_and (left right : Word) : lower (left &&& right) = lower left &&& lower right := by
  simp [lower, BitVec.setWidth_and]

theorem lower_add (left right : Word) : lower (left + right) = lower left + lower right := by
  apply BitVec.eq_of_toNat_eq
  rw [lower_toNat, BitVec.toNat_add, BitVec.toNat_add, lower_toNat, lower_toNat]
  omega

/-- The carry between the two bytes of a sum. -/
theorem upper_add (left right : Word) :
    upper (left + right) = upper left + upper right +
      if 255 < (lower left).toNat + (lower right).toNat then 1 else 0 := by
  apply BitVec.eq_of_toNat_eq
  rw [upper_toNat, BitVec.toNat_add, BitVec.toNat_add, BitVec.toNat_add, upper_toNat, upper_toNat,
    lower_toNat, lower_toNat]
  have := left.isLt
  have := right.isLt
  split <;> simp only [BitVec.reduceToNat, BitVec.ofNat_eq_ofNat] <;> omega

theorem lower_signExtend (offset : Byte) : lower (offset.signExtend 16) = offset := by
  apply BitVec.eq_of_getLsbD_eq
  intro i bound
  rw [lower, BitVec.getLsbD_setWidth, BitVec.getLsbD_signExtend, if_pos bound]
  simp only [bound, show i < 16 by omega, decide_true, Bool.true_and]

theorem upper_signExtend (offset : Byte) :
    upper (offset.signExtend 16) = if offset.getLsbD 7 then 0xFF else 0 := by
  have sign : offset.msb = offset.getLsbD 7 := rfl
  apply BitVec.eq_of_getLsbD_eq
  intro i bound
  have extended : (upper (offset.signExtend 16)).getLsbD i = offset.getLsbD 7 := by
    rw [upper, BitVec.getLsbD_setWidth, BitVec.getLsbD_ushiftRight, BitVec.getLsbD_signExtend,
      if_neg (by omega), sign]
    simp only [bound, show 8 + i < 16 by omega, decide_true, Bool.true_and]
  rw [extended]
  cases offset.getLsbD 7 with
  | false => exact BitVec.getLsbD_zero.symm
  | true => exact (BitVec.getLsbD_allOnes.trans (decide_eq_true bound)).symm

end Word
end GbEmulator
