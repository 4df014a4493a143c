import Mathlib.Data.Nat.Digits.Defs
import Mathlib.Tactic.LinearCombination

/-! Carries that ripple through a list of digits, in any base. Sums, differences,
doubles and halves all conserve one total: the numbers that go in, and the carry at
one end, are the number that comes out and the carry at the other end. -/
namespace GbEmulator.RippleCarry

/-- A carry handed on from item to item. -/
inductive Threads (step : τ → κ → κ → Prop) : List τ → κ → κ → Prop where
  | nil : Threads step [] carry carry
  | cons (first : step item carryIn carry) (rest : Threads step items carry carryOut) :
      Threads step (item :: items) carryIn carryOut

section Conservation
variable {step : τ → κ → κ → Prop} {base : Nat} (amount : κ → Nat) (left right sum : τ → Nat)

/-- Least significant digit first. -/
theorem Threads.ascending
    (digit : ∀ item carryIn carryOut, step item carryIn carryOut →
      left item + right item + amount carryIn = sum item + base * amount carryOut)
    (threads : Threads step items carryIn carryOut) :
    Nat.ofDigits base (items.map left) + Nat.ofDigits base (items.map right) + amount carryIn =
      Nat.ofDigits base (items.map sum) + base ^ items.length * amount carryOut := by
  induction threads with
  | nil => simp only [List.map_nil, Nat.ofDigits_nil, List.length_nil, pow_zero, one_mul]
  | cons first rest ih =>
    have lowest := digit _ _ _ first
    simp only [List.map_cons, Nat.ofDigits_cons, List.length_cons, pow_succ]
    linear_combination lowest + base * ih

/-- Most significant digit first: the carry comes in at the top. -/
theorem Threads.descending
    (digit : ∀ item carryIn carryOut, step item carryIn carryOut →
      left item + right item + amount carryOut = sum item + base * amount carryIn)
    (threads : Threads step items carryIn carryOut) :
    Nat.ofDigits base (items.map left).reverse + Nat.ofDigits base (items.map right).reverse +
        amount carryOut =
      Nat.ofDigits base (items.map sum).reverse + base ^ items.length * amount carryIn := by
  induction threads with
  | nil => simp only [List.map_nil, List.reverse_nil, Nat.ofDigits_nil, List.length_nil, pow_zero,
      one_mul]
  | @cons item carryIn carry items carryOut first rest ih =>
    have highest := digit _ _ _ first
    simp only [List.map_cons, List.reverse_cons, Nat.ofDigits_append, Nat.ofDigits_singleton,
      List.length_reverse, List.length_map, List.length_cons, pow_succ]
    linear_combination ih + base ^ items.length * highest

end Conservation

/-! What a conserved total says of the number that comes out. -/

section Readings
variable {left right carry sum out size difference borrow half low whole high : Nat}

theorem sum_exact (conserved : left + right + carry = sum + size * out) (bound : sum < size) :
    sum = (left + right + carry) % size ∧ out = (left + right + carry) / size := by
  obtain ⟨quotient, remainder⟩ :=
    (Nat.div_mod_unique (Nat.zero_lt_of_lt bound)).mpr ⟨conserved.symm, bound⟩
  exact ⟨remainder.symm, quotient.symm⟩

theorem difference_exact (conserved : difference + right + borrow = left + size * out)
    (bound : difference < size) :
    (difference : Int) = ((left : Int) - right - borrow) % size ∧
      (0 < out ↔ left < right + borrow) := by
  constructor
  · have total : (left : Int) - right - borrow = difference + size * -out := by
      have := congrArg (Nat.cast : Nat → Int) conserved
      push_cast at this
      linear_combination -this
    rw [total, Int.add_mul_emod_self_left]
    exact (Int.emod_eq_of_lt (Int.natCast_nonneg _) (Int.ofNat_lt.mpr bound)).symm
  · constructor
    · intro borrowed
      have := Nat.le_mul_of_pos_right size borrowed
      omega
    · intro below
      apply Nat.pos_of_ne_zero
      intro none
      rw [none, Nat.mul_zero] at conserved
      omega

/-- The carry out of a double is the top bit, whatever the carry in. -/
theorem double_carry (whole size : Nat) (carry : Bool) :
    (whole + whole + carry.toNat) / (2 * size) = whole / size := by
  have bound := carry.toNat_lt
  have halved : (whole + whole + carry.toNat) / 2 = whole := by omega
  rw [← Nat.div_div_eq_div_mul, halved]

theorem half_exact (conserved : half + half + low = whole + 2 * size * high) (bound : low < 2) :
    half = whole / 2 + size * high ∧ low = whole % 2 := by
  rw [Nat.mul_assoc] at conserved
  omega

end Readings
end GbEmulator.RippleCarry
