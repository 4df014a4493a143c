import Mathlib.Algebra.BigOperators.Group.List.Basic
import Mathlib.Tactic.Abel

/-! Checksums that take every entry and a fixed unit off an accumulator, in any
commutative group. What is left is the negated total of the entries, so the order
of the entries does not matter and no single change goes unnoticed. -/
namespace GbEmulator.AdditiveChecksum

variable {γ : Type u} [AddCommGroup γ] (unit : γ)

def checksum (entries : List γ) : γ :=
  entries.foldl (fun sum entry => sum - entry - unit) 0

def total (entries : List γ) : γ := (entries.map (· + unit)).sum

theorem foldl_total (entries : List γ) (start : γ) :
    entries.foldl (fun sum entry => sum - entry - unit) start = start - total unit entries := by
  induction entries generalizing start with
  | nil => exact (sub_zero start).symm
  | cons entry entries ih =>
    rw [List.foldl_cons, ih, total, total, List.map_cons, List.sum_cons]
    abel

theorem checksum_eq_iff (entries : List γ) (check : γ) :
    checksum unit entries = check ↔ total unit entries + check = 0 := by
  rw [checksum, foldl_total, zero_sub, neg_eq_iff_add_eq_zero]

theorem total_perm {left right : List γ} (permuted : left.Perm right) :
    total unit left = total unit right :=
  (permuted.map (· + unit)).sum_eq

theorem total_set (entries : List γ) (inside : index < entries.length) (entry : γ) :
    total unit (entries.set index entry) = total unit entries - entries[index] + entry := by
  rw [total, List.map_set, List.sum_set', dif_pos (by rwa [List.length_map]), List.getElem_map, total]
  abel

/-- Another value in one place changes the total. -/
theorem total_set_ne (entries : List γ) (inside : index < entries.length)
    (changed : entry ≠ entries[index]) :
    total unit (entries.set index entry) ≠ total unit entries := by
  intro same
  rw [total_set unit entries inside, sub_add_eq_add_sub, sub_eq_iff_eq_add] at same
  exact changed (add_left_cancel same)

end GbEmulator.AdditiveChecksum
