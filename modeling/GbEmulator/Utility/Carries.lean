import GbEmulator.Utility.Arithmetic
import Mathlib.Algebra.Group.Nat.Defs

/-! The carry and borrow masks, bit by bit: bit `i` of a mask is the carry out of
position `i`, as the truncated operands have it. The masks of the two additions
behind a carry-in neither miss a carry nor count one twice. -/
namespace GbEmulator.UtilityLib

theorem carry_iff (i : Nat) (left right : BitVec w) (carryIn : Bool) :
    BitVec.carry i left right carryIn =
      decide (2 ^ i ≤ left.toNat % 2 ^ i + right.toNat % 2 ^ i + carryIn.toNat) := rfl

section Residues
variable {modulus left right : Nat}

theorem sum_mod (boundLeft : left < modulus) (boundRight : right < modulus) :
    (left + right) % modulus =
      if modulus ≤ left + right then left + right - modulus else left + right := by
  split
  · rename_i carried
    rw [Nat.mod_eq_sub_mod carried, Nat.mod_eq_of_lt (by omega)]
  · rename_i fits
    exact Nat.mod_eq_of_lt (by omega)

theorem carries_iff_below (boundLeft : left < modulus) (boundRight : right < modulus) :
    modulus ≤ left + right ↔ (left + right) % modulus < right := by
  rw [sum_mod boundLeft boundRight]
  split <;> omega

theorem carries_succ_iff (boundLeft : left < modulus) (boundRight : right < modulus) :
    modulus ≤ left + right + 1 ↔
      modulus ≤ left + right ∨ modulus ≤ (left + right) % modulus + 1 := by
  rw [sum_mod boundLeft boundRight]
  split <;> omega

theorem below_succ_iff (boundLeft : left < modulus) (boundRight : right < modulus) :
    (left + right) % modulus < right + 1 ↔ (left + right) % modulus < right ∨ left < 1 := by
  rw [sum_mod boundLeft boundRight]
  split <;> omega

end Residues

theorem truncated_add (wide : i ≤ w) (left right : BitVec w) :
    (left + right).toNat % 2 ^ i = (left.toNat % 2 ^ i + right.toNat % 2 ^ i) % 2 ^ i := by
  rw [BitVec.toNat_add, Nat.mod_mod_of_dvd _ (Nat.pow_dvd_pow 2 wide), Nat.add_mod]

theorem truncated_sub (wide : i ≤ w) (left right : BitVec w) :
    left.toNat % 2 ^ i = ((left - right).toNat % 2 ^ i + right.toNat % 2 ^ i) % 2 ^ i := by
  rw [← truncated_add wide, BitVec.sub_add_cancel]

theorem truncated_lt (i : Nat) (data : BitVec w) : data.toNat % 2 ^ i < 2 ^ i :=
  Nat.mod_lt _ (Nat.two_pow_pos i)

/-- A carry lookahead is the carry a ripple adder would propagate. -/
theorem addWithCarry_carry (bound : i < w) (left right : BitVec w) :
    (addWithCarry left right).carryBits.getLsbD i = BitVec.carry (i + 1) left right false := by
  simp only [addWithCarry, BitVec.getLsbD_or, BitVec.getLsbD_and, BitVec.getLsbD_not, bound,
    BitVec.getLsbD_add bound, BitVec.carry_succ, Bool.atLeastTwo, decide_true, Bool.true_and]
  cases left.getLsbD i <;> cases right.getLsbD i <;> cases BitVec.carry i left right false <;> rfl

/-- Subtracting is undoing an addition, so the borrows are that addition's carries. -/
theorem borrow_eq_carry (wide : i ≤ w) (left right : BitVec w) :
    BitVec.carry i (left - right) right false =
      decide (left.toNat % 2 ^ i < right.toNat % 2 ^ i) := by
  rw [carry_iff, truncated_sub wide left right, decide_eq_decide]
  exact carries_iff_below (truncated_lt i _) (truncated_lt i _)

/-- The borrow lookahead, from the minuend that the difference and the
subtrahend add up to. -/
theorem subWithBorrow_borrow (bound : i < w) (left right : BitVec w) :
    (subWithBorrow left right).carryBits.getLsbD i =
      decide (left.toNat % 2 ^ (i + 1) < right.toNat % 2 ^ (i + 1)) := by
  rw [← borrow_eq_carry bound, BitVec.carry_succ]
  have minuend : left.getLsbD i = ((left - right).getLsbD i ^^
      (right.getLsbD i ^^ BitVec.carry i (left - right) right false)) := by
    rw [← BitVec.getLsbD_add bound, BitVec.sub_add_cancel]
  simp only [subWithBorrow, BitVec.getLsbD_or, BitVec.getLsbD_and, BitVec.getLsbD_not, bound,
    minuend, Bool.atLeastTwo, decide_true, Bool.true_and]
  cases (left - right).getLsbD i <;> cases right.getLsbD i <;>
    cases BitVec.carry i (left - right) right false <;> rfl

theorem one_toNat (bound : i < w) : (1 : BitVec w).toNat % 2 ^ (i + 1) = 1 := by
  have narrow : 1 < 2 ^ (i + 1) := Nat.one_lt_two_pow (by omega)
  have wide : 1 < 2 ^ w := Nat.one_lt_two_pow (by omega)
  rw [BitVec.ofNat_eq_ofNat, BitVec.toNat_ofNat, Nat.mod_eq_of_lt wide, Nat.mod_eq_of_lt narrow]

theorem addWithCarryIn_result (left right : BitVec w) (carryIn : Bool) :
    (addWithCarryIn left right carryIn).result = left + right + BitVec.ofNat w carryIn.toNat := by
  cases carryIn <;> simp [addWithCarryIn, addWithCarry]

theorem addWithCarryIn_carry (bound : i < w) (left right : BitVec w) (carryIn : Bool) :
    (addWithCarryIn left right carryIn).carryBits.getLsbD i =
      decide (2 ^ (i + 1) ≤
        left.toNat % 2 ^ (i + 1) + right.toNat % 2 ^ (i + 1) + carryIn.toNat) := by
  cases carryIn with
  | false => exact addWithCarry_carry bound left right
  | true =>
    have first := addWithCarry_carry bound left right
    have second := addWithCarry_carry bound (left + right) 1
    rw [carry_iff] at first
    rw [carry_iff, one_toNat bound, truncated_add bound] at second
    simp only [addWithCarryIn, Bool.not_true, Bool.false_eq_true, if_false, BitVec.getLsbD_or]
    rw [first, show (addWithCarry left right).result = left + right from rfl, second,
      ← Bool.decide_or, decide_eq_decide]
    exact (carries_succ_iff (truncated_lt _ left) (truncated_lt _ right)).symm

theorem subWithBorrowIn_result (left right : BitVec w) (borrowIn : Bool) :
    (subWithBorrowIn left right borrowIn).result =
      left - right - BitVec.ofNat w borrowIn.toNat := by
  cases borrowIn <;> simp [subWithBorrowIn, subWithBorrow]

theorem subWithBorrowIn_borrow (bound : i < w) (left right : BitVec w) (borrowIn : Bool) :
    (subWithBorrowIn left right borrowIn).carryBits.getLsbD i =
      decide (left.toNat % 2 ^ (i + 1) < right.toNat % 2 ^ (i + 1) + borrowIn.toNat) := by
  cases borrowIn with
  | false => exact subWithBorrow_borrow bound left right
  | true =>
    have first := subWithBorrow_borrow bound left right
    have second := subWithBorrow_borrow bound (left - right) 1
    rw [one_toNat bound] at second
    rw [truncated_sub bound left right] at first ⊢
    simp only [subWithBorrowIn, Bool.not_true, Bool.false_eq_true, if_false, BitVec.getLsbD_or]
    rw [first, show (subWithBorrow left right).result = left - right from rfl, second,
      ← Bool.decide_or, decide_eq_decide]
    exact (below_succ_iff (truncated_lt _ (left - right)) (truncated_lt _ right)).symm

theorem toNat_addCarry (left right : BitVec w) (carryIn : Bool) :
    (left + right + BitVec.ofNat w carryIn.toNat).toNat =
      (left.toNat + right.toNat + carryIn.toNat) % 2 ^ w := by
  rw [BitVec.toNat_add, BitVec.toNat_add, BitVec.toNat_ofNat, ← Nat.add_mod]

theorem toNat_sub_int (left right : BitVec w) :
    ((left - right).toNat : Int) = ((left.toNat : Int) - right.toNat) % (2 ^ w : Nat) := by
  have bound := right.isLt
  have borrowed : ((2 ^ w - right.toNat + left.toNat : Nat) : Int) =
      (left.toNat : Int) - right.toNat + (2 ^ w : Nat) := by
    omega
  rw [BitVec.toNat_sub, Int.natCast_emod, borrowed, Int.add_emod_right]

theorem toNat_subBorrow (left right : BitVec w) (borrowIn : Bool) :
    ((left - right - BitVec.ofNat w borrowIn.toNat).toNat : Int) =
      ((left.toNat : Int) - right.toNat - borrowIn.toNat) % (2 ^ w : Nat) := by
  rw [toNat_sub_int, toNat_sub_int, BitVec.toNat_ofNat, Int.natCast_emod, ← Int.sub_emod]

/-- Both operations at every width: the results modulo `2 ^ w` and, in each position
of a mask, the carry or borrow out of it. -/
theorem lookahead_exact (left right : BitVec w) (carryIn : Bool) :
    let added := addWithCarryIn left right carryIn
    let subtracted := subWithBorrowIn left right carryIn
    added.result.toNat = (left.toNat + right.toNat + carryIn.toNat) % 2 ^ w ∧
      (∀ i < w, (added.carryBits.getLsbD i = true ↔
        left.toNat % 2 ^ (i + 1) + right.toNat % 2 ^ (i + 1) + carryIn.toNat ≥ 2 ^ (i + 1))) ∧
      (subtracted.result.toNat : Int) =
        ((left.toNat : Int) - right.toNat - carryIn.toNat) % (2 ^ w : Nat) ∧
      (∀ i < w, (subtracted.carryBits.getLsbD i = true ↔
        left.toNat % 2 ^ (i + 1) < right.toNat % 2 ^ (i + 1) + carryIn.toNat)) ∧
      addWithCarry left right = addWithCarryIn left right false ∧
      subWithBorrow left right = subWithBorrowIn left right false := by
  refine ⟨?_, ?_, ?_, ?_, rfl, rfl⟩
  · rw [addWithCarryIn_result]
    exact toNat_addCarry left right carryIn
  · intro i bound
    rw [addWithCarryIn_carry bound, decide_eq_true_eq]
  · rw [subWithBorrowIn_result]
    exact toNat_subBorrow left right carryIn
  · intro i bound
    rw [subWithBorrowIn_borrow bound, decide_eq_true_eq]

end GbEmulator.UtilityLib
