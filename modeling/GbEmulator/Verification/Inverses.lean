import GbEmulator.Verification.MultiPrecision

/-! Multi-precision arithmetic undone. What a loop stores, run through the opposite
loop with the right carry, is what went in, and the carry is the other loop's again. -/
namespace GbEmulator
open CpuRegisters Sm83 RippleCarry

section Digits
variable {left right : List Byte}

theorem digitsValue_injective (length : left.length = right.length)
    (same : digitsValue left = digitsValue right) : left = right := by
  have bounded (digits : List Byte) : ∀ data ∈ digits.map BitVec.toNat, data < 256 :=
    List.forall_mem_map.mpr fun digit _ => digit.isLt
  have lengths : (left.map BitVec.toNat).length = (right.map BitVec.toNat).length := by
    rw [List.length_map, List.length_map, length]
  exact (List.map_inj_right fun _ _ equal => BitVec.eq_of_toNat_eq equal).mp
    (Nat.ofDigits_inj_of_len_eq (by decide) lengths (bounded left) (bounded right) same)

theorem toNat_injective {left right : Bool} (same : left.toNat = right.toNat) : left = right := by
  cases left <;> cases right <;> first | rfl | cases same

/-- Digits and a carry above them can be told apart. -/
theorem carried_injective {carryLeft carryRight : Bool} (length : left.length = right.length)
    (same : digitsValue left + 256 ^ left.length * carryLeft.toNat =
      digitsValue right + 256 ^ left.length * carryRight.toNat) :
    left = right ∧ carryLeft = carryRight := by
  have boundLeft := digitsValue_lt left
  have boundRight := digitsValue_lt right
  rw [← length] at boundRight
  have positive := Nat.zero_lt_of_lt boundLeft
  obtain ⟨carryIs, valueIs⟩ := (Nat.div_mod_unique positive).mpr ⟨same, boundLeft⟩
  obtain ⟨otherCarry, otherValue⟩ := (Nat.div_mod_unique positive).mpr ⟨rfl, boundRight⟩
  exact ⟨digitsValue_injective length (valueIs.symm.trans otherValue),
    toNat_injective (carryIs.symm.trans otherCarry)⟩

/-- Digits and a carry below them can be told apart. -/
theorem doubled_injective {carryLeft carryRight : Bool} (length : left.length = right.length)
    (same : digitsValue left + digitsValue left + carryLeft.toNat =
      digitsValue right + digitsValue right + carryRight.toNat) :
    left = right ∧ carryLeft = carryRight := by
  have boundLeft := carryLeft.toNat_lt
  have boundRight := carryRight.toNat_lt
  exact ⟨digitsValue_injective length (by omega), toNat_injective (by omega)⟩

end Digits

section Totals
variable {δ : Type u} [AddressBusAddressable δ] {cpu last : Cpu (δ ⊕ Ram)} (ram : WithRam cpu.bus)
include ram

theorem adc_total (inRam : Direction.up.InRam cpu.registers.visible.hl digits.length)
    (loop : DigitLoop Pass.adc .up cpu digits last) :
    digitsValue (digits.map Prod.fst) + digitsValue (digits.map Prod.snd) +
        cpu.registers.visible.carryFlag.toNat =
      digitsValue (Direction.up.bytes last.bus cpu.registers.visible.hl digits.length) +
        256 ^ digits.length * last.registers.visible.carryFlag.toNat := by
  obtain ⟨⟨items, rfl, stored, threads⟩, -⟩ := loop.results ram inRam
  rw [Direction.bytes, ← stored, List.map_map, List.map_map, List.length_map]
  exact digits_ascend _ _ _ (fun _ _ _ law => law) threads

theorem sbc_total (inRam : Direction.up.InRam cpu.registers.visible.hl digits.length)
    (loop : DigitLoop Pass.sbc .up cpu digits last) :
    digitsValue (Direction.up.bytes last.bus cpu.registers.visible.hl digits.length) +
        digitsValue (digits.map Prod.snd) + cpu.registers.visible.carryFlag.toNat =
      digitsValue (digits.map Prod.fst) +
        256 ^ digits.length * last.registers.visible.carryFlag.toNat := by
  obtain ⟨⟨items, rfl, stored, threads⟩, -⟩ := loop.results ram inRam
  rw [Direction.bytes, ← stored, List.map_map, List.map_map, List.length_map]
  exact digits_ascend _ _ _ (fun _ _ _ law => law) threads

theorem rla_total (inRam : Direction.up.InRam cpu.registers.visible.hl digits.length)
    (loop : DigitLoop Pass.rla .up cpu digits last) :
    digitsValue digits + digitsValue digits + cpu.registers.visible.carryFlag.toNat =
      digitsValue (Direction.up.bytes last.bus cpu.registers.visible.hl digits.length) +
        256 ^ digits.length * last.registers.visible.carryFlag.toNat := by
  obtain ⟨⟨items, rfl, stored, threads⟩, -⟩ := loop.results ram inRam
  rw [Direction.bytes, ← stored, List.length_map]
  exact digits_ascend _ _ _ (fun _ _ _ law => law) threads

theorem rra_total (inRam : Direction.down.InRam cpu.registers.visible.hl digits.length)
    (loop : DigitLoop Pass.rra .down cpu digits.reverse last) :
    let stored := (Direction.down.bytes last.bus cpu.registers.visible.hl digits.length).reverse
    digitsValue stored + digitsValue stored + last.registers.visible.carryFlag.toNat =
      digitsValue digits + 256 ^ digits.length * cpu.registers.visible.carryFlag.toNat := by
  have length : digits.reverse.length = digits.length := List.length_reverse
  obtain ⟨⟨items, fst, stored, threads⟩, -⟩ := loop.results ram (length ▸ inRam)
  have count : items.length = digits.length := by
    rw [← List.length_map Prod.fst, fst, length]
  have conserved := digits_descend Prod.snd Prod.snd Prod.fst (fun _ _ _ law => law) threads
  rw [stored, fst, List.reverse_reverse, length, count] at conserved
  exact conserved

end Totals

section Passes
variable {δ : Type u} [AddressBusAddressable δ] {cpu middle again last : Cpu (δ ⊕ Ram)}

theorem bytes_length (direction : Direction) (bus : AddressBus δ) (base : Word) (count : Nat) :
    (direction.bytes bus base count).length = count := by
  rw [Direction.bytes, List.length_map, direction.addresses_length]

/-- The operands of the loop that undoes a loop over `digits`. -/
def undoing (stored : List Byte) (digits : List (Byte × Byte)) : List (Byte × Byte) :=
  stored.zip (digits.map Prod.snd)

theorem undoing_operands {stored : List Byte} {digits : List (Byte × Byte)}
    (length : stored.length = digits.length) :
    (undoing stored digits).map Prod.fst = stored ∧
      (undoing stored digits).map Prod.snd = digits.map Prod.snd ∧
      (undoing stored digits).length = digits.length := by
  have lengths : stored.length = (digits.map Prod.snd).length := by
    rw [length, List.length_map]
  refine ⟨List.map_fst_zip (Nat.le_of_eq lengths), List.map_snd_zip (Nat.le_of_eq lengths.symm), ?_⟩
  rw [undoing, List.length_zip, ← lengths, Nat.min_self, length]

section Undone
variable (ram : WithRam cpu.bus) (ramAgain : WithRam again.bus)
include ram ramAgain

theorem sum_undone {digits : List (Byte × Byte)}
    (inRam : Direction.up.InRam cpu.registers.visible.hl digits.length)
    (inRamAgain : Direction.up.InRam again.registers.visible.hl digits.length)
    (carry : again.registers.visible.carryFlag = cpu.registers.visible.carryFlag)
    (adds : DigitLoop Pass.adc .up cpu digits middle)
    (subtracts : DigitLoop Pass.sbc .up again
      (undoing (Direction.up.bytes middle.bus cpu.registers.visible.hl digits.length) digits) last) :
    Direction.up.bytes last.bus again.registers.visible.hl digits.length = digits.map Prod.fst ∧
      last.registers.visible.carryFlag = middle.registers.visible.carryFlag := by
  obtain ⟨firsts, seconds, count⟩ := undoing_operands
    (bytes_length .up middle.bus cpu.registers.visible.hl digits.length)
  have added := adc_total ram inRam adds
  have subtracted := sbc_total ramAgain (by rwa [count]) subtracts
  rw [firsts, seconds, count, carry] at subtracted
  have length := bytes_length .up last.bus again.registers.visible.hl digits.length
  have fstLength : (digits.map Prod.fst).length = digits.length := List.length_map _
  have total : digitsValue (digits.map Prod.fst) +
      256 ^ (digits.map Prod.fst).length * last.registers.visible.carryFlag.toNat =
        digitsValue (Direction.up.bytes last.bus again.registers.visible.hl digits.length) +
          256 ^ (digits.map Prod.fst).length * middle.registers.visible.carryFlag.toNat := by
    rw [fstLength]
    omega
  obtain ⟨same, carries⟩ := carried_injective (fstLength.trans length.symm) total
  exact ⟨same.symm, carries⟩

theorem difference_undone {digits : List (Byte × Byte)}
    (inRam : Direction.up.InRam cpu.registers.visible.hl digits.length)
    (inRamAgain : Direction.up.InRam again.registers.visible.hl digits.length)
    (carry : again.registers.visible.carryFlag = cpu.registers.visible.carryFlag)
    (subtracts : DigitLoop Pass.sbc .up cpu digits middle)
    (adds : DigitLoop Pass.adc .up again
      (undoing (Direction.up.bytes middle.bus cpu.registers.visible.hl digits.length) digits) last) :
    Direction.up.bytes last.bus again.registers.visible.hl digits.length = digits.map Prod.fst ∧
      last.registers.visible.carryFlag = middle.registers.visible.carryFlag := by
  obtain ⟨firsts, seconds, count⟩ := undoing_operands
    (bytes_length .up middle.bus cpu.registers.visible.hl digits.length)
  have subtracted := sbc_total ram inRam subtracts
  have added := adc_total ramAgain (by rwa [count]) adds
  rw [firsts, seconds, count, carry] at added
  have length := bytes_length .up last.bus again.registers.visible.hl digits.length
  refine carried_injective (by rw [length, List.length_map]) ?_
  rw [length]
  exact added.symm.trans subtracted

theorem double_undone {digits : List Byte}
    (inRam : Direction.up.InRam cpu.registers.visible.hl digits.length)
    (inRamAgain : Direction.down.InRam again.registers.visible.hl digits.length)
    (carry : again.registers.visible.carryFlag = middle.registers.visible.carryFlag)
    (doubles : DigitLoop Pass.rla .up cpu digits middle)
    (halves : DigitLoop Pass.rra .down again
      (Direction.up.bytes middle.bus cpu.registers.visible.hl digits.length).reverse last) :
    (Direction.down.bytes last.bus again.registers.visible.hl digits.length).reverse = digits ∧
      last.registers.visible.carryFlag = cpu.registers.visible.carryFlag := by
  have count := bytes_length .up middle.bus cpu.registers.visible.hl digits.length
  have doubled := rla_total ram inRam doubles
  have halved := rra_total ramAgain (by rwa [count]) halves
  rw [count, carry] at halved
  refine doubled_injective (by rw [List.length_reverse, bytes_length]) ?_
  exact halved.trans doubled.symm

theorem half_undone {digits : List Byte}
    (inRam : Direction.down.InRam cpu.registers.visible.hl digits.length)
    (inRamAgain : Direction.up.InRam again.registers.visible.hl digits.length)
    (carry : again.registers.visible.carryFlag = middle.registers.visible.carryFlag)
    (halves : DigitLoop Pass.rra .down cpu digits.reverse middle)
    (doubles : DigitLoop Pass.rla .up again
      (Direction.down.bytes middle.bus cpu.registers.visible.hl digits.length).reverse last) :
    Direction.up.bytes last.bus again.registers.visible.hl digits.length = digits ∧
      last.registers.visible.carryFlag = cpu.registers.visible.carryFlag := by
  have count : (Direction.down.bytes middle.bus cpu.registers.visible.hl digits.length).reverse.length
      = digits.length := by
    rw [List.length_reverse, bytes_length]
  have halved := rra_total ram inRam halves
  have doubled := rla_total ramAgain (by rwa [count]) doubles
  rw [count, carry] at doubled
  have length := bytes_length .up last.bus again.registers.visible.hl digits.length
  refine carried_injective length ?_
  rw [length]
  exact doubled.symm.trans halved

end Undone

/-- Subtraction undoes addition, addition undoes subtraction, and the rotations
undo each other, over numbers of any length. -/
theorem passes_undone (ram : WithRam cpu.bus) (ramAgain : WithRam again.bus) :
    let base := cpu.registers.visible.hl
    let baseAgain := again.registers.visible.hl
    let carry (cpu : Cpu (δ ⊕ Ram)) := cpu.registers.visible.carryFlag
    (∀ (digits : List (Byte × Byte)) (middle last : Cpu (δ ⊕ Ram)),
      Direction.up.InRam base digits.length → Direction.up.InRam baseAgain digits.length →
      carry again = carry cpu →
      let stored := Direction.up.bytes middle.bus base digits.length
      let restored := Direction.up.bytes last.bus baseAgain digits.length
      (DigitLoop Pass.adc .up cpu digits middle →
        DigitLoop Pass.sbc .up again (undoing stored digits) last →
          restored = digits.map Prod.fst ∧ carry last = carry middle) ∧
      (DigitLoop Pass.sbc .up cpu digits middle →
        DigitLoop Pass.adc .up again (undoing stored digits) last →
          restored = digits.map Prod.fst ∧ carry last = carry middle)) ∧
    ∀ (digits : List Byte) (middle last : Cpu (δ ⊕ Ram)), carry again = carry middle →
      (Direction.up.InRam base digits.length → Direction.down.InRam baseAgain digits.length →
        DigitLoop Pass.rla .up cpu digits middle →
        DigitLoop Pass.rra .down again
          (Direction.up.bytes middle.bus base digits.length).reverse last →
          (Direction.down.bytes last.bus baseAgain digits.length).reverse = digits ∧
            carry last = carry cpu) ∧
      (Direction.down.InRam base digits.length → Direction.up.InRam baseAgain digits.length →
        DigitLoop Pass.rra .down cpu digits.reverse middle →
        DigitLoop Pass.rla .up again
          (Direction.down.bytes middle.bus base digits.length).reverse last →
          Direction.up.bytes last.bus baseAgain digits.length = digits ∧
            carry last = carry cpu) := by
  intro base baseAgain carry
  constructor
  · intro digits middle last inRam inRamAgain sameCarry stored restored
    constructor
    · intro adds subtracts
      exact sum_undone ram ramAgain inRam inRamAgain sameCarry adds subtracts
    · intro subtracts adds
      exact difference_undone ram ramAgain inRam inRamAgain sameCarry subtracts adds
  · intro digits middle last sameCarry
    constructor
    · intro inRam inRamAgain doubles halves
      exact double_undone ram ramAgain inRam inRamAgain sameCarry doubles halves
    · intro inRam inRamAgain halves doubles
      exact half_undone ram ramAgain inRam inRamAgain sameCarry halves doubles

/-- 0x01 - 0x02 and 0x02 - 0x00. -/
def subtractingProgram : List Byte := [0x3E, 0x01, 0xDE, 0x02, 0x22, 0x3E, 0x02, 0xDE, 0x00, 0x22]

/-- 0x80 and 0x01, from the low digit up. -/
def doublingProgram : List Byte := [0x3E, 0x80, 0x17, 0x22, 0x3E, 0x01, 0x17, 0x22]

theorem subtractingProgram_loop :
    ∃ last, DigitLoop Pass.sbc .up (digitsCpu subtractingProgram 0xC000)
      [(0x01, 0x02), (0x02, 0x00)] last :=
  digitsCpu_loop (arithmetic_encodes (by decide : decode 0xDE = _)) rfl (List.cons_ne_nil _ _)
    (by decide) (by decide)

theorem doublingProgram_loop :
    ∃ last, DigitLoop Pass.rla .up (digitsCpu doublingProgram 0xC000) [0x80, 0x01] last :=
  digitsCpu_loop (rotation_encodes (by decide : decode 0x17 = _)) rfl (List.cons_ne_nil _ _)
    (by decide) (by decide)

/-- A sum with a carry into its second digit, and a double with a bit that moves there,
each undone. -/
theorem passes_undone_twoDigits :
    (∃ middle last,
      DigitLoop Pass.adc .up (digitsCpu addingProgram 0xC000) [(0xFF, 0x02), (0x01, 0x00)] middle ∧
      Direction.up.bytes middle.bus 0xC000 2 = [0x01, 0x02] ∧
      DigitLoop Pass.sbc .up (digitsCpu subtractingProgram 0xC000) [(0x01, 0x02), (0x02, 0x00)]
        last ∧
      Direction.up.bytes last.bus 0xC000 2 = [0xFF, 0x01] ∧
      last.registers.visible.carryFlag = middle.registers.visible.carryFlag) ∧
    ∃ middle last,
      DigitLoop Pass.rla .up (digitsCpu doublingProgram 0xC000) [0x80, 0x01] middle ∧
      Direction.up.bytes middle.bus 0xC000 2 = [0x00, 0x03] ∧
      DigitLoop Pass.rra .down (digitsCpu halvingProgram 0xC001) [0x03, 0x00] last ∧
      (Direction.down.bytes last.bus 0xC001 2).reverse = [0x80, 0x01] ∧
      last.registers.visible.carryFlag = false := by
  have up : Direction.up.InRam 0xC000 2 := by decide
  have down : Direction.down.InRam 0xC001 2 := by decide
  constructor
  · obtain ⟨middle, adds⟩ := addingProgram_loop
    obtain ⟨last, subtracts⟩ := subtractingProgram_loop
    obtain ⟨hl, carry⟩ := digitsCpu_start addingProgram 0xC000
    obtain ⟨hlAgain, carryAgain⟩ := digitsCpu_start subtractingProgram 0xC000
    have ram : WithRam (digitsCpu addingProgram 0xC000).bus := digitsCpu_ram (by decide) _
    have ramAgain : WithRam (digitsCpu subtractingProgram 0xC000).bus := digitsCpu_ram (by decide) _
    have stored : Direction.up.bytes middle.bus 0xC000 2 = [0x01, 0x02] := by
      have sum := (adc_loop ram (hl ▸ up) adds).1
      rw [hl, carry] at sum
      exact digitsValue_injective (bytes_length .up middle.bus 0xC000 2) (sum.trans (by decide))
    have undone := ((passes_undone ram ramAgain).1 [(0xFF, 0x02), (0x01, 0x00)] middle last
      (hl ▸ up) (hlAgain ▸ up) (carryAgain.trans carry.symm)).1 adds
    rw [hl, hlAgain] at undone
    have again : undoing (Direction.up.bytes middle.bus 0xC000 2) [(0xFF, 0x02), (0x01, 0x00)] =
        [(0x01, 0x02), (0x02, 0x00)] := congrArg (undoing · _) stored
    exact ⟨middle, last, adds, stored, subtracts, undone (again ▸ subtracts)⟩
  · obtain ⟨middle, doubles⟩ := doublingProgram_loop
    obtain ⟨last, halves⟩ := halvingProgram_loop
    obtain ⟨hl, carry⟩ := digitsCpu_start doublingProgram 0xC000
    obtain ⟨hlAgain, carryAgain⟩ := digitsCpu_start halvingProgram 0xC001
    have ram : WithRam (digitsCpu doublingProgram 0xC000).bus := digitsCpu_ram (by decide) _
    have ramAgain : WithRam (digitsCpu halvingProgram 0xC001).bus := digitsCpu_ram (by decide) _
    obtain ⟨double, out⟩ := rla_loop ram (List.cons_ne_nil _ _) (hl ▸ up) doubles
    rw [hl, carry] at double
    have stored : Direction.up.bytes middle.bus 0xC000 2 = [0x00, 0x03] :=
      digitsValue_injective (bytes_length .up middle.bus 0xC000 2) (double.trans (by decide))
    have sameCarry : (digitsCpu halvingProgram 0xC001).registers.visible.carryFlag =
        middle.registers.visible.carryFlag := carryAgain.trans ((by decide : false = _).trans out.symm)
    have undone := ((passes_undone ram ramAgain).2 [0x80, 0x01] middle last sameCarry).1
      (hl ▸ up) (hlAgain ▸ down) doubles
    rw [hl, hlAgain] at undone
    have again : (Direction.up.bytes middle.bus 0xC000 2).reverse = [0x03, 0x00] :=
      congrArg List.reverse stored
    obtain ⟨restored, restoredCarry⟩ := undone (again ▸ halves)
    exact ⟨middle, last, doubles, stored, halves, restored, restoredCarry.trans carry⟩

end Passes
end GbEmulator
