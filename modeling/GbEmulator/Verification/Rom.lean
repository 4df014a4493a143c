import GbEmulator.Bits.AdditiveChecksum
import GbEmulator.Emulator.Cartridge
import Mathlib.Data.BitVec
import Mathlib.Tactic.IntervalCases

/-! ROM images: which ones `LoadRomData` accepts, why the unchecked indexing behind
the accessors is safe for those, and what the header checksum detects. -/
namespace GbEmulator
open Cartridge AdditiveChecksum

section Loading
variable {contents : Array Byte}

/-- The size code of an image that is long enough to have one. -/
theorem sizeCode_read (long : 0x0150 ≤ contents.size) :
    ∃ code, contents[0x0148]? = some code ∧
      loadRomData (some { contents := contents }) =
        if contents.size > 0x800000 ∨ code.toNat > 0x08 then .error .invalidRom
        else if 0x8000 * 2 ^ code.toNat ≠ contents.size then
          .error (.mismatchedRomSize contents.size (0x8000 * 2 ^ code.toNat))
        else .ok contents := by
  have inside : 0x0148 < contents.size := by omega
  refine ⟨_, Array.getElem?_eq_getElem inside, ?_⟩
  simp only [loadRomData, Bool.not_true, Bool.false_eq_true, if_false]
  by_cases large : contents.size > 0x800000
  · rw [dif_pos (.inr large), if_pos (.inl large)]
  · rw [dif_neg (by omega)]
    simp only [large, false_or]

theorem loadRomData_unchecked (romFile : Option RomFile) :
    loadRomDataUnchecked romFile = some (loadRomData romFile) := by
  cases romFile with
  | none => rfl
  | some romFile =>
    obtain ⟨contents, delivered⟩ := romFile
    simp only [loadRomDataUnchecked, loadRomData]
    by_cases size : contents.size < 0x0150 ∨ contents.size > 0x800000
    · rw [if_pos size, dif_pos size]
    · have inside : 0x0148 < contents.size := by omega
      rw [if_neg size, dif_neg size, Array.getElem?_eq_getElem inside]
      cases delivered with
      | false => rfl
      | true =>
        simp only [Bool.not_true, Bool.false_eq_true, if_false, bind, Option.bind]
        split
        · rfl
        · split <;> rfl

end Loading

section Accessors
variable {romData : Array Byte}

theorem foldlM_read {indices : List Nat} (inside : ∀ i ∈ indices, i < romData.size)
    (step : β → Byte → β) (start : β) :
    indices.foldlM (fun sum i => do return step sum (← romData[i]?)) start =
      some ((indices.map fun i => romData.getD i 0).foldl step start) := by
  induction indices generalizing start with
  | nil => rfl
  | cons index indices ih =>
    obtain ⟨first, others⟩ := List.forall_mem_cons.mp inside
    have read : romData[index]? = some (romData.getD index 0) := by
      rw [Array.getElem?_eq_getElem first, Array.getD_eq_getD_getElem?,
        Array.getElem?_eq_getElem first]
      rfl
    rw [List.foldlM_cons, read, List.map_cons, List.foldl_cons]
    exact ih others _

theorem mapM_read {indices : List Nat} (inside : ∀ i ∈ indices, i < romData.size) :
    ∃ bytes, indices.mapM (fun i => romData[i]?) = some bytes := by
  induction indices with
  | nil => exact ⟨[], rfl⟩
  | cons index indices ih =>
    obtain ⟨first, others⟩ := List.forall_mem_cons.mp inside
    obtain ⟨bytes, read⟩ := ih others
    rw [List.mapM_cons, Array.getElem?_eq_getElem first, read]
    exact ⟨_, rfl⟩

theorem allM_read {indices : List Nat} {test : Nat → Option Bool}
    (defined : ∀ i ∈ indices, ∃ answer, test i = some answer) :
    ∃ answer, indices.allM test = some answer := by
  induction indices with
  | nil => exact ⟨true, rfl⟩
  | cons index indices ih =>
    obtain ⟨⟨answer, tested⟩, others⟩ := List.forall_mem_cons.mp defined
    rw [List.allM, tested]
    cases answer with
    | false => exact ⟨false, rfl⟩
    | true => exact ih others

theorem logo_defined (long : 0x150 ≤ romData.size) :
    ∃ valid, hasValidNintendoLogo romData = some valid := by
  apply allM_read
  intro i member
  have inLogo : i < nintendoLogoData.size := List.mem_range.mp member
  have inside : nintendoLogoRomOffset + i < romData.size := by
    have size : nintendoLogoData.size = 48 := rfl
    simp only [nintendoLogoRomOffset]
    omega
  rw [Array.getElem?_eq_getElem inside, Array.getElem?_eq_getElem inLogo]
  exact ⟨_, rfl⟩

theorem title_defined (long : 0x150 ≤ romData.size) : ∃ bytes, title romData = some bytes := by
  apply mapM_read
  intro i member
  have bounds := List.mem_range'_1.mp member
  omega

/-- For the size codes that are accepted, `int` holds the size. -/
theorem romSize_code (code : Byte) (accepted : code.toNat ≤ 8) :
    (do return BitVec.ofInt 64 (← intProduct 0x8000 (← shiftedOne code.toNat))) =
      some (BitVec.ofNat 64 (0x8000 * 2 ^ code.toNat)) := by
  generalize code.toNat = shift at accepted
  interval_cases shift <;> rfl

/-- The bytes the header checksum covers. -/
def headerBytes (romData : Array Byte) : List Byte :=
  (List.range' 0x134 25).map fun i => romData.getD i 0

theorem checksum_read (long : 0x150 ≤ romData.size) :
    validHeaderChecksum romData =
      some (checksum 1 (headerBytes romData) == romData.getD 0x14D 0) := by
  have inside : ∀ i ∈ List.range' 0x134 25, i < romData.size := by
    intro i member
    have bounds := List.mem_range'_1.mp member
    omega
  have check : romData[0x14D]? = some (romData.getD 0x14D 0) := by
    rw [Array.getElem?_eq_getElem (by omega), Array.getD_eq_getD_getElem?,
      Array.getElem?_eq_getElem (by omega)]
    rfl
  rw [validHeaderChecksum, foldlM_read inside (fun sum data => sum - data - 1), check]
  rfl

end Accessors

section Acceptance

/-- The size code is one of nine and gives the length of the image. -/
def AcceptableRom (contents : Array Byte) : Prop :=
  ∃ code, contents[0x0148]? = some code ∧ code.toNat ≤ 8 ∧
    contents.size = 0x8000 * 2 ^ code.toNat

def InvalidRom (contents : Array Byte) : Prop :=
  contents.size < 0x150 ∨ contents.size > 0x800000 ∨
    ∃ code, contents[0x0148]? = some code ∧ code.toNat > 8

theorem AcceptableRom.bounds {contents : Array Byte} (acceptable : AcceptableRom contents) :
    0x8000 ≤ contents.size ∧ contents.size ≤ 0x800000 := by
  obtain ⟨code, -, small, size⟩ := acceptable
  have least := Nat.one_le_two_pow (n := code.toNat)
  have most := Nat.pow_le_pow_right (show 0 < 2 by decide) small
  omega

theorem AcceptableRom.not_invalid {contents : Array Byte} (acceptable : AcceptableRom contents) :
    ¬InvalidRom contents := by
  have bounds := acceptable.bounds
  obtain ⟨code, read, small, -⟩ := acceptable
  rintro (short | large | ⟨other, readOther, big⟩)
  · omega
  · omega
  · rw [read, Option.some.injEq] at readOther
    subst readOther
    omega

/-- The three outcomes of an image that is delivered whole. -/
theorem loadRomData_cases (contents : Array Byte) :
    let outcome := loadRomData (some { contents := contents })
    (InvalidRom contents ∧ outcome = .error .invalidRom) ∨
      (AcceptableRom contents ∧ outcome = .ok contents) ∨
      ¬InvalidRom contents ∧ ¬AcceptableRom contents ∧
        ∃ header, outcome = .error (.mismatchedRomSize contents.size header) := by
  by_cases long : 0x150 ≤ contents.size
  · obtain ⟨code, read, decided⟩ := sizeCode_read long
    by_cases invalid : contents.size > 0x800000 ∨ code.toNat > 0x08
    · rw [if_pos invalid] at decided
      exact .inl ⟨.inr (invalid.imp id fun big => ⟨code, read, big⟩), decided⟩
    · rw [if_neg invalid] at decided
      obtain ⟨notLarge, notBig⟩ := not_or.mp invalid
      by_cases matched : 0x8000 * 2 ^ code.toNat = contents.size
      · rw [if_neg (not_not_intro matched)] at decided
        exact .inr (.inl ⟨⟨code, read, by omega, matched.symm⟩, decided⟩)
      · rw [if_pos matched] at decided
        refine .inr (.inr ⟨?_, ?_, _, decided⟩)
        · rintro (short | large | ⟨other, readOther, big⟩)
          · omega
          · exact notLarge large
          · rw [read, Option.some.injEq] at readOther
            exact notBig (readOther ▸ big)
        · rintro ⟨other, readOther, -, size⟩
          rw [read, Option.some.injEq] at readOther
          exact matched (readOther ▸ size.symm)
  · have short : contents.size < 0x150 := Nat.lt_of_not_le long
    refine .inl ⟨.inl short, ?_⟩
    simp only [loadRomData]
    rw [dif_pos (.inl short)]

theorem Cartridge.acceptable (cartridge : Cartridge) : AcceptableRom cartridge.romData := by
  have accepted := cartridge.accepted
  rcases loadRomData_cases cartridge.romData with
    ⟨-, outcome⟩ | ⟨acceptable, -⟩ | ⟨-, -, header, outcome⟩
  · rw [accepted] at outcome
    cases outcome
  · exact acceptable
  · rw [accepted] at outcome
    cases outcome

theorem Cartridge.romSize_eq (cartridge : Cartridge) :
    ∃ size, romSize cartridge.romData = some size ∧ size.toNat = cartridge.romData.size := by
  have bounds := cartridge.acceptable.bounds
  obtain ⟨code, read, small, size⟩ := cartridge.acceptable
  refine ⟨BitVec.ofNat 64 cartridge.romData.size, ?_, ?_⟩
  · rw [size, ← romSize_code code small, romSize, read]
    rfl
  · rw [BitVec.toNat_ofNat]
    exact Nat.mod_eq_of_lt (by omega)

theorem Cartridge.readUnchecked_eq (cartridge : Cartridge) (address : Word) :
    readFromAddressUnchecked cartridge.romData address =
      some (cartridge.readFromAddress address) := by
  have size := cartridge.romData_size
  unfold readFromAddressUnchecked Cartridge.readFromAddress
  split
  · rfl
  · exact Array.getElem?_eq_getElem (by omega)

/-- Which images are accepted, which error the others get, and that no index used
in deciding or by an accessor of an accepted image is out of bounds. -/
theorem loadRomData_exact :
    (∀ contents : Array Byte,
      let outcome := loadRomData (some { contents := contents })
      (outcome = .ok contents ↔ AcceptableRom contents) ∧
        (outcome = .error .invalidRom ↔ InvalidRom contents) ∧
        ((∃ disk header, outcome = .error (.mismatchedRomSize disk header)) ↔
          ¬AcceptableRom contents ∧ ¬InvalidRom contents) ∧
        (∀ romData, outcome = .ok romData → romData = contents) ∧
        loadRomDataUnchecked (some { contents := contents }) = some outcome) ∧
    ∀ cartridge : Cartridge,
      (∃ size, romSize cartridge.romData = some size ∧ size.toNat = cartridge.romData.size) ∧
        (∀ address, readFromAddressUnchecked cartridge.romData address =
          some (cartridge.readFromAddress address)) ∧
        (hasValidNintendoLogo cartridge.romData).isSome ∧ (title cartridge.romData).isSome ∧
        (cartridgeType cartridge.romData).isSome ∧
        (validHeaderChecksum cartridge.romData).isSome := by
  constructor
  · intro contents
    have unchecked := loadRomData_unchecked (some { contents := contents })
    rcases loadRomData_cases contents with
      ⟨invalid, outcome⟩ | ⟨acceptable, outcome⟩ | ⟨valid, unacceptable, header, outcome⟩
    · have unacceptable : ¬AcceptableRom contents := fun acceptable =>
        acceptable.not_invalid invalid
      simp [outcome, invalid, unacceptable, unchecked]
    · have valid := acceptable.not_invalid
      simp [outcome, acceptable, valid, unchecked]
    · simp [outcome, valid, unacceptable, unchecked]
  · intro cartridge
    have long : 0x150 ≤ cartridge.romData.size := by
      have bounds := cartridge.acceptable.bounds
      omega
    obtain ⟨valid, logo⟩ := logo_defined long
    obtain ⟨bytes, characters⟩ := title_defined long
    refine ⟨cartridge.romSize_eq, cartridge.readUnchecked_eq, ?_, ?_, ?_, ?_⟩
    · rw [logo]; rfl
    · rw [characters]; rfl
    · rw [cartridgeType, Array.getElem?_eq_getElem (by omega)]; rfl
    · rw [checksum_read long]; rfl

end Acceptance

section Checksum
variable {rom : Array Byte}

theorem headerBytes_length (rom : Array Byte) : (headerBytes rom).length = 25 := by
  rw [headerBytes, List.length_map, List.length_range']

/-- The bytes of the header and the check byte cancel. -/
theorem checksum_valid_iff (long : 0x150 ≤ rom.size) :
    validHeaderChecksum rom = some true ↔ total 1 (headerBytes rom) + rom.getD 0x14D 0 = 0 := by
  rw [checksum_read long, Option.some.injEq, beq_iff_eq, checksum_eq_iff]

theorem total_toNat (bytes : List Byte) :
    (total 1 bytes).toNat = (bytes.map fun data => data.toNat + 1).sum % 256 := by
  induction bytes with
  | nil => rfl
  | cons data bytes ih =>
    have split : total 1 (data :: bytes) = data + 1 + total 1 bytes := List.sum_cons
    have unit : (1 : Byte).toNat = 1 := rfl
    rw [split, List.map_cons, List.sum_cons, BitVec.toNat_add, BitVec.toNat_add, ih, unit]
    omega

/-- Two images with the same total and check byte are judged alike. -/
theorem checksum_congr {other : Array Byte} (long : 0x150 ≤ rom.size)
    (longOther : 0x150 ≤ other.size)
    (totals : total 1 (headerBytes other) = total 1 (headerBytes rom))
    (checks : other.getD 0x14D 0 = rom.getD 0x14D 0) :
    validHeaderChecksum other = validHeaderChecksum rom := by
  have same : checksum 1 (headerBytes other) = checksum 1 (headerBytes rom) := by
    rw [checksum_eq_iff, totals, ← checksum_eq_iff]
  rw [checksum_read long, checksum_read longOther, same, checks]

theorem getD_setIfInBounds (rom : Array Byte) (index other : Nat) (data : Byte)
    (inside : index < rom.size) :
    (rom.setIfInBounds index data).getD other 0 =
      if index = other then data else rom.getD other 0 := by
  rw [Array.getD_eq_getD_getElem?, Array.getD_eq_getD_getElem?, Array.getElem?_setIfInBounds]
  by_cases same : index = other
  · rw [if_pos same, if_pos same, if_pos (by omega)]
    rfl
  · rw [if_neg same, if_neg same]

theorem headerBytes_check (rom : Array Byte) (data : Byte) (long : 0x150 ≤ rom.size) :
    headerBytes (rom.setIfInBounds 0x14D data) = headerBytes rom := by
  apply List.map_congr_left
  intro i member
  have bounds := List.mem_range'_1.mp member
  rw [getD_setIfInBounds rom 0x14D i data (by omega), if_neg (by omega)]

/-- Exactly one check byte is valid. -/
theorem check_valid_iff (data : Byte) (long : 0x150 ≤ rom.size) :
    validHeaderChecksum (rom.setIfInBounds 0x14D data) = some true ↔
      data = -total 1 (headerBytes rom) := by
  have longSet : 0x150 ≤ (rom.setIfInBounds 0x14D data).size := by
    rw [Array.size_setIfInBounds]
    exact long
  rw [checksum_valid_iff longSet, headerBytes_check rom data long,
    getD_setIfInBounds rom _ _ _ (by omega), if_pos rfl]
  exact add_eq_zero_iff_eq_neg'

theorem headerBytes_set (rom : Array Byte) (data : Byte) (long : 0x150 ≤ rom.size)
    (first : 0x134 ≤ index) (last : index < 0x14D) :
    headerBytes (rom.setIfInBounds index data) = (headerBytes rom).set (index - 0x134) data := by
  refine List.ext_getElem (by simp [headerBytes_length]) fun i bound _ => ?_
  simp only [headerBytes, List.getElem_map, List.getElem_range', List.getElem_set, Nat.one_mul,
    getD_setIfInBounds rom index _ data (by omega)]
  split <;> split <;> first | rfl | omega

theorem checksum_changed (long : 0x150 ≤ rom.size) (valid : validHeaderChecksum rom = some true)
    (first : 0x134 ≤ index) (last : index ≤ 0x14D) (changed : data ≠ rom.getD index 0) :
    validHeaderChecksum (rom.setIfInBounds index data) = some false := by
  have longSet : 0x150 ≤ (rom.setIfInBounds index data).size := by
    rw [Array.size_setIfInBounds]
    exact long
  have cancels := (checksum_valid_iff long).mp valid
  have unequal : ¬total 1 (headerBytes (rom.setIfInBounds index data)) +
      (rom.setIfInBounds index data).getD 0x14D 0 = 0 := by
    rw [getD_setIfInBounds rom index 0x14D data (by omega)]
    rcases Nat.lt_or_eq_of_le last with inHeader | rfl
    · rw [if_neg (by omega), headerBytes_set rom data long first inHeader]
      have inside : index - 0x134 < (headerBytes rom).length := by
        rw [headerBytes_length]
        omega
      have held : (headerBytes rom)[index - 0x134] = rom.getD index 0 := by
        simp only [headerBytes, List.getElem_map, List.getElem_range', Nat.one_mul]
        rw [Nat.add_sub_cancel' first]
      intro cancelsNow
      exact total_set_ne 1 (headerBytes rom) inside (held ▸ changed)
        (add_right_cancel (cancelsNow.trans cancels.symm))
    · rw [if_pos rfl, headerBytes_check rom data long]
      intro cancelsNow
      exact changed (add_left_cancel (cancelsNow.trans cancels.symm))
  rw [checksum_read longSet, Option.some.injEq, beq_eq_false_iff_ne]
  intro same
  exact unequal ((checksum_eq_iff 1 _ _).mp same)

/-- When the header checksum is valid, and what it detects. -/
theorem headerChecksum_law (long : 0x150 ≤ rom.size) :
    (∃ valid, validHeaderChecksum rom = some valid ∧ (valid = true ↔
      (((List.range' 0x134 25).map fun i => (rom.getD i 0).toNat + 1).sum +
        (rom.getD 0x14D 0).toNat) % 256 = 0)) ∧
      (∃! data, validHeaderChecksum (rom.setIfInBounds 0x14D data) = some true) ∧
      (∀ other : Array Byte, 0x150 ≤ other.size → (headerBytes other).Perm (headerBytes rom) →
        other.getD 0x14D 0 = rom.getD 0x14D 0 →
          validHeaderChecksum other = validHeaderChecksum rom) ∧
      (validHeaderChecksum rom = some true → ∀ index data, 0x134 ≤ index → index ≤ 0x14D →
        data ≠ rom.getD index 0 →
          validHeaderChecksum (rom.setIfInBounds index data) = some false) ∧
      ∀ other : Array Byte, 0x150 ≤ other.size →
        (∀ index, 0x134 ≤ index → index ≤ 0x14D → other.getD index 0 = rom.getD index 0) →
          validHeaderChecksum other = validHeaderChecksum rom := by
  refine ⟨⟨_, checksum_read long, ?_⟩, ⟨_, (check_valid_iff _ long).mpr rfl, fun data valid =>
    (check_valid_iff data long).mp valid⟩, ?_,
    fun valid index data first last changed => checksum_changed long valid first last changed, ?_⟩
  · have sums := total_toNat (headerBytes rom)
    rw [headerBytes, List.map_map] at sums
    rw [beq_iff_eq, checksum_eq_iff, ← BitVec.toNat_inj, BitVec.toNat_add, headerBytes, sums]
    exact iff_of_eq (congrArg (· = 0) (Nat.mod_add_mod _ _ _))
  · intro other longOther permuted checks
    exact checksum_congr long longOther (total_perm 1 permuted) checks
  · intro other longOther same
    refine checksum_congr long longOther (congrArg (total 1) (List.map_congr_left ?_))
      (same 0x14D (by decide) (by decide))
    intro i member
    have bounds := List.mem_range'_1.mp member
    exact same i bounds.1 (by omega)

/-- An image of numbered bytes, with the check byte that they take. -/
def numberedRom : Array Byte :=
  ⟨(List.range 0x150).map fun index => if index = 0x14D then 0xA7 else BitVec.ofNat 8 index⟩

/-- It is valid, and no longer is when a byte of its title has been changed. -/
theorem headerChecksum_law_numbered :
    validHeaderChecksum numberedRom = some true ∧
      validHeaderChecksum (numberedRom.setIfInBounds 0x140 0xFF) = some false := by
  have long : 0x150 ≤ numberedRom.size := by
    simp [numberedRom]
  obtain ⟨⟨valid, computed, exact⟩, -, -, changed, -⟩ := headerChecksum_law long
  obtain rfl : valid = true := exact.mpr (by decide +kernel)
  exact ⟨computed, changed computed 0x140 0xFF (by decide) (by decide) (by decide +kernel)⟩

end Checksum
end GbEmulator
