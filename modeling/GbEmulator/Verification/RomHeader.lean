import GbEmulator.Verification.Rom

/-! ROM images as a format. An image is put together from what its header says, and the
accessors of `Cartridge` take it apart again. -/
namespace GbEmulator
open Cartridge AdditiveChecksum

section Accessors
variable {romData : Array Byte}

theorem mapM_getD {indices : List Nat} (inside : ∀ i ∈ indices, i < romData.size) :
    indices.mapM (fun i => romData[i]?) = some (indices.map fun i => romData.getD i 0) := by
  induction indices with
  | nil => rfl
  | cons index indices ih =>
    obtain ⟨first, others⟩ := List.forall_mem_cons.mp inside
    rw [List.mapM_cons, ih others, Array.getElem?_eq_getElem first, List.map_cons,
      Array.getD_eq_getD_getElem?, Array.getElem?_eq_getElem first]
    rfl

theorem title_read (long : 0x150 ≤ romData.size) :
    title romData = some ((List.range' 0x134 16).map fun i => romData.getD i 0) := by
  apply mapM_getD
  intro i member
  have bounds := List.mem_range'_1.mp member
  omega

theorem allM_true {indices : List Nat} {test : Nat → Option Bool} {holds : Nat → Bool}
    (defined : ∀ i ∈ indices, test i = some (holds i)) :
    indices.allM test = some (indices.all holds) := by
  induction indices with
  | nil => rfl
  | cons index indices ih =>
    obtain ⟨first, others⟩ := List.forall_mem_cons.mp defined
    rw [List.allM, first, List.all_cons]
    cases holds index with
    | false => rfl
    | true => exact ih others

/-- All 48 bytes, each in its place. -/
theorem logo_valid_iff (long : 0x150 ≤ romData.size) :
    hasValidNintendoLogo romData = some true ↔
      ∀ i < 48, romData.getD (nintendoLogoRomOffset + i) 0 = nintendoLogoData.getD i 0 := by
  have size : nintendoLogoData.size = 48 := rfl
  have defined : ∀ i ∈ List.range nintendoLogoData.size,
      (do return (← romData[nintendoLogoRomOffset + i]?) == (← nintendoLogoData[i]?) : Option Bool) =
        some (romData.getD (nintendoLogoRomOffset + i) 0 == nintendoLogoData.getD i 0) := by
    intro i member
    have inLogo := List.mem_range.mp member
    have inside : nintendoLogoRomOffset + i < romData.size := by
      simp only [nintendoLogoRomOffset]
      omega
    rw [Array.getElem?_eq_getElem inside, Array.getElem?_eq_getElem inLogo,
      Array.getD_eq_getD_getElem?, Array.getD_eq_getD_getElem?, Array.getElem?_eq_getElem inside,
      Array.getElem?_eq_getElem inLogo]
    rfl
  rw [hasValidNintendoLogo, allM_true defined, Option.some.injEq, List.all_eq_true, size]
  simp only [List.mem_range, beq_iff_eq]

end Accessors

/-- What a header says besides the logo and the check byte. -/
structure RomHeader where
  title : Vector Byte 16
  cartridgeType : Byte
  sizeCode : Fin 9

namespace RomHeader
variable (header : RomHeader) (body : Nat → Byte)

def size : Nat := 0x8000 * 2 ^ header.sizeCode.val

/-- Every byte but the check byte; `body` gives those the header does not name. -/
def contentAt (i : Nat) : Byte :=
  if 0x104 ≤ i ∧ i < 0x134 then nintendoLogoData.getD (i - nintendoLogoRomOffset) 0
  else if 0x134 ≤ i ∧ i < 0x144 then header.title.toArray.getD (i - 0x134) 0
  else if i = 0x147 then header.cartridgeType
  else if i = 0x148 then BitVec.ofNat 8 header.sizeCode.val
  else body i

def check : Byte := -total 1 ((List.range' 0x134 25).map (header.contentAt body))

def byteAt (i : Nat) : Byte := if i = 0x14D then header.check body else header.contentAt body i

def image : Array Byte := Array.ofFn fun i : Fin header.size => header.byteAt body i.val

theorem size_image : (header.image body).size = header.size := Array.size_ofFn

theorem long_image : 0x150 ≤ (header.image body).size := by
  rw [size_image, size]
  have least := Nat.one_le_two_pow (n := header.sizeCode.val)
  omega

theorem image_read {i : Nat} (inside : i < header.size) :
    (header.image body)[i]? = some (header.byteAt body i) := by
  rw [image, Array.getElem?_ofFn, dif_pos inside]

theorem image_getD {i : Nat} (inside : i < 0x150) :
    (header.image body).getD i 0 = header.byteAt body i := by
  have long := header.long_image body
  rw [size_image] at long
  rw [Array.getD_eq_getD_getElem?, image_read header body (by omega)]
  rfl

/-! What the accessors find in an image. -/

theorem acceptable_image : AcceptableRom (header.image body) := by
  have long := header.long_image body
  have small := header.sizeCode.isLt
  have code : (BitVec.ofNat 8 header.sizeCode.val).toNat = header.sizeCode.val := by
    rw [BitVec.toNat_ofNat]
    exact Nat.mod_eq_of_lt (by omega)
  rw [size_image] at long
  refine ⟨BitVec.ofNat 8 header.sizeCode.val, image_read header body (by omega), ?_, ?_⟩
  · omega
  · rw [code, size_image, size]

theorem checksum_image : validHeaderChecksum (header.image body) = some true := by
  have bytes : headerBytes (header.image body) =
      (List.range' 0x134 25).map (header.contentAt body) := by
    apply List.map_congr_left
    intro i member
    have bounds := List.mem_range'_1.mp member
    rw [image_getD header body (by omega), byteAt, if_neg (by omega)]
  rw [checksum_valid_iff (header.long_image body), bytes, image_getD header body (by decide), byteAt,
    if_pos rfl, check, add_neg_cancel]

theorem logo_image : hasValidNintendoLogo (header.image body) = some true := by
  rw [logo_valid_iff (header.long_image body)]
  intro i inside
  have place : 0x104 ≤ nintendoLogoRomOffset + i ∧ nintendoLogoRomOffset + i < 0x134 := by
    simp only [nintendoLogoRomOffset]
    omega
  rw [image_getD header body (by omega), byteAt, if_neg (by omega), contentAt, if_pos place,
    Nat.add_sub_cancel_left]

theorem title_image : Cartridge.title (header.image body) = some header.title.toList := by
  rw [title_read (header.long_image body)]
  refine congrArg some (List.ext_getElem (by simp) fun i inside other => ?_)
  have bound : i < 16 := by simpa using inside
  rw [List.getElem_map, List.getElem_range', Nat.one_mul, image_getD header body (by omega), byteAt,
    if_neg (by omega), contentAt, if_neg (by omega), if_pos (by omega), Nat.add_sub_cancel_left]
  simp [bound]

theorem cartridgeType_image :
    Cartridge.cartridgeType (header.image body) = some header.cartridgeType := by
  have long := header.long_image body
  rw [size_image] at long
  exact image_read header body (by omega)

theorem romSize_image : romSize (header.image body) = some (BitVec.ofNat 64 header.size) := by
  obtain ⟨code, read, small, size⟩ := header.acceptable_image body
  rw [← header.size_image body, size, ← romSize_code code small, romSize, read]
  rfl

theorem load_image :
    loadRomData (some { contents := header.image body }) = .ok (header.image body) := by
  have acceptable := header.acceptable_image body
  rcases loadRomData_cases (header.image body) with
    ⟨invalid, -⟩ | ⟨-, loaded⟩ | ⟨-, unacceptable, -⟩
  · exact absurd invalid acceptable.not_invalid
  · exact loaded
  · exact absurd acceptable unacceptable

end RomHeader

/-! An accepted image with a valid logo and check byte is the image of its header. -/

/-- The header an image has. -/
def RomHeader.ofImage (romData : Array Byte) (sizeCode : Fin 9) : RomHeader where
  title := Vector.ofFn fun i => romData.getD (0x134 + i.val) 0
  cartridgeType := romData.getD 0x147 0
  sizeCode := sizeCode

section Restored
variable {romData : Array Byte} {sizeCode : Fin 9}

theorem contentAt_ofImage
    (logo : ∀ i < 48, romData.getD (nintendoLogoRomOffset + i) 0 = nintendoLogoData.getD i 0)
    (code : romData.getD 0x148 0 = BitVec.ofNat 8 sizeCode.val) (i : Nat) :
    (RomHeader.ofImage romData sizeCode).contentAt (fun i => romData.getD i 0) i =
      romData.getD i 0 := by
  unfold RomHeader.contentAt
  by_cases inLogo : 0x104 ≤ i ∧ i < 0x134
  · have place : nintendoLogoRomOffset + (i - nintendoLogoRomOffset) = i :=
      Nat.add_sub_cancel' inLogo.1
    have inside : i - nintendoLogoRomOffset < 48 := by
      rw [nintendoLogoRomOffset]
      omega
    rw [if_pos inLogo, ← logo _ inside, place]
  rw [if_neg inLogo]
  by_cases inTitle : 0x134 ≤ i ∧ i < 0x144
  · have inside : i - 0x134 < 16 := by omega
    rw [if_pos inTitle, RomHeader.ofImage, Vector.toArray_ofFn, Array.getD_eq_getD_getElem?,
      Array.getElem?_ofFn, dif_pos inside, Option.getD_some, Nat.add_sub_cancel' inTitle.1]
  rw [if_neg inTitle]
  by_cases isType : i = 0x147
  · rw [if_pos isType, isType]
    rfl
  rw [if_neg isType]
  by_cases isSize : i = 0x148
  · rw [if_pos isSize, isSize, code]
    rfl
  rw [if_neg isSize]

theorem image_ofImage (long : 0x150 ≤ romData.size)
    (logo : hasValidNintendoLogo romData = some true)
    (checksum : validHeaderChecksum romData = some true)
    (code : romData.getD 0x148 0 = BitVec.ofNat 8 sizeCode.val)
    (size : romData.size = 0x8000 * 2 ^ sizeCode.val) :
    (RomHeader.ofImage romData sizeCode).image (fun i => romData.getD i 0) = romData := by
  have content := contentAt_ofImage ((logo_valid_iff long).mp logo) code
  have check : (RomHeader.ofImage romData sizeCode).check (fun i => romData.getD i 0) =
      romData.getD 0x14D 0 := by
    have cancels := (checksum_valid_iff long).mp checksum
    rw [RomHeader.check, funext content]
    exact neg_eq_of_add_eq_zero_right cancels
  refine Array.ext (by rw [RomHeader.size_image, size]; rfl) fun i inside other => ?_
  have byte : (RomHeader.ofImage romData sizeCode).byteAt (fun i => romData.getD i 0) i =
      romData.getD i 0 := by
    unfold RomHeader.byteAt
    by_cases isCheck : i = 0x14D
    · rw [if_pos isCheck, check, isCheck]
    · rw [if_neg isCheck, content]
  have built : ((RomHeader.ofImage romData sizeCode).image fun i => romData.getD i 0)[i] =
      romData.getD i 0 :=
    (Array.getElem_ofFn inside).trans byte
  rw [built, Array.getD_eq_getD_getElem?, Array.getElem?_eq_getElem other, Option.getD_some]

theorem Cartridge.restored (cartridge : Cartridge)
    (logo : hasValidNintendoLogo cartridge.romData = some true)
    (checksum : validHeaderChecksum cartridge.romData = some true) :
    ∃ (header : RomHeader) (body : Nat → Byte), cartridge.romData = header.image body := by
  have bounds := cartridge.acceptable.bounds
  obtain ⟨code, read, small, size⟩ := cartridge.acceptable
  have held : cartridge.romData.getD 0x148 0 = code := by
    rw [Array.getD_eq_getD_getElem?, read, Option.getD_some]
  have named : code = BitVec.ofNat 8 code.toNat := by
    rw [BitVec.ofNat_toNat, BitVec.setWidth_eq]
  let sizeCode : Fin 9 := ⟨code.toNat, by omega⟩
  refine ⟨.ofImage cartridge.romData sizeCode, fun i => cartridge.romData.getD i 0, ?_⟩
  exact (image_ofImage (by omega) logo checksum (held.trans named) size).symm

end Restored

/-- Every image of a header is loaded as it is and gives its header back; the loaded
images that pass both checks are these and no others. -/
theorem header_round_trip :
    (∀ (header : RomHeader) (body : Nat → Byte),
      let romData := header.image body
      loadRomData (some { contents := romData }) = .ok romData ∧
        hasValidNintendoLogo romData = some true ∧ validHeaderChecksum romData = some true ∧
        title romData = some header.title.toList ∧
        cartridgeType romData = some header.cartridgeType ∧
        romSize romData = some (BitVec.ofNat 64 romData.size)) ∧
      ∀ cartridge : Cartridge,
        (hasValidNintendoLogo cartridge.romData = some true ∧
          validHeaderChecksum cartridge.romData = some true) ↔
            ∃ (header : RomHeader) (body : Nat → Byte), cartridge.romData = header.image body := by
  constructor
  · intro header body
    refine ⟨header.load_image body, header.logo_image body, header.checksum_image body,
      header.title_image body, header.cartridgeType_image body, ?_⟩
    rw [header.size_image]
    exact header.romSize_image body
  · intro cartridge
    constructor
    · rintro ⟨logo, checksum⟩
      exact cartridge.restored logo checksum
    · rintro ⟨header, body, image⟩
      rw [image]
      exact ⟨header.logo_image body, header.checksum_image body⟩

end GbEmulator
