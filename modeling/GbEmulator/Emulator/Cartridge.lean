import GbEmulator.Emulator.AddressBus
import Mathlib.Algebra.Group.Nat.Defs

/-! `Cartridge`: what `LoadRomData` accepts, and the ROM on the bus. -/
namespace GbEmulator

/-- The file behind the ROM path and whether reading it delivers every byte. -/
structure RomFile where
  contents : Array Byte
  delivered : Bool := true

inductive RomException where
  | failedToOpen
  | failedToRead
  | invalidRom
  | mismatchedRomSize (diskRomSize headerRomSize : Nat)
  deriving DecidableEq, Repr

def RomException.what (romPath : String) : RomException → String
  | .failedToOpen => "Failed to open ROM file " ++ romPath
  | .failedToRead => "Failed to read ROM file " ++ romPath
  | .invalidRom => "ROM file " ++ romPath ++ " is invalid"
  | .mismatchedRomSize diskRomSize headerRomSize =>
      "ROM size in header (" ++ toString headerRomSize ++ ") does not match actual ROM size (" ++
        toString diskRomSize ++ ")"

/-- `none` is a path that cannot be opened. -/
def loadRomData (romFile : Option RomFile) : Except RomException (Array Byte) :=
  match romFile with
  | none => .error .failedToOpen
  | some romFile =>
    let romData := romFile.contents
    if size : romData.size < 0x0150 ∨ romData.size > 0x800000 then .error .invalidRom
    else if !romFile.delivered then .error .failedToRead
    else
      have := not_or.mp size
      let romSizeShift := romData[0x0148].toNat
      if romSizeShift > 0x08 then .error .invalidRom
      else
        let calculatedRomSizeFromHeader := 0x8000 * 2 ^ romSizeShift
        if calculatedRomSizeFromHeader ≠ romData.size then
          .error (.mismatchedRomSize romData.size calculatedRomSizeFromHeader)
        else .ok romData

/-- The same decisions with the size code read unchecked: `none` is a read past the end. -/
def loadRomDataUnchecked (romFile : Option RomFile) : Option (Except RomException (Array Byte)) :=
  match romFile with
  | none => some (.error .failedToOpen)
  | some romFile =>
    let romData := romFile.contents
    if romData.size < 0x0150 ∨ romData.size > 0x800000 then some (.error .invalidRom)
    else if !romFile.delivered then some (.error .failedToRead)
    else do
      let romSizeShift := (← romData[0x0148]?).toNat
      if romSizeShift > 0x08 then
        return .error .invalidRom
      let calculatedRomSizeFromHeader := 0x8000 * 2 ^ romSizeShift
      if calculatedRomSizeFromHeader ≠ romData.size then
        return .error (.mismatchedRomSize romData.size calculatedRomSizeFromHeader)
      return .ok romData

/-- A cartridge holds ROM data that was accepted when it was constructed. -/
structure Cartridge where
  romData : Array Byte
  accepted : loadRomData (some { contents := romData }) = .ok romData

namespace Cartridge

def romEndAddress : Nat := 0x7FFF

theorem romData_size (cartridge : Cartridge) : romEndAddress < cartridge.romData.size := by
  have accepted := cartridge.accepted
  dsimp only [loadRomData] at accepted
  split at accepted
  · cases accepted
  · simp only [Bool.not_true, Bool.false_eq_true, if_false] at accepted
    split at accepted
    · cases accepted
    · split at accepted
      · cases accepted
      · rename_i matched
        rw [← not_ne_iff.mp matched]
        have := Nat.one_le_two_pow (n := (cartridge.romData[0x0148]).toNat)
        simp only [romEndAddress]
        omega

def writeToAddress (cartridge : Cartridge) (_address : Word) (_data : Byte) : Cartridge := cartridge

def readFromAddress (cartridge : Cartridge) (address : Word) : Byte :=
  if beyond : address.toNat > romEndAddress then 0
  else
    have := cartridge.romData_size
    cartridge.romData[address.toNat]

theorem loadRomData_smallest {romData : Array Byte} (size : romData.size = 0x8000)
    (sizeCode : ∀ _bound : 0x0148 < romData.size, romData[0x0148] = 0) :
    loadRomData (some { contents := romData }) = .ok romData := by
  have bound : 0x0148 < romData.size := by omega
  simp [loadRomData, sizeCode bound, size]

/-- The smallest image, whose size code has to say so. The size stays a variable:
the array itself is never unfolded. -/
def ofRom (rom : Fin size → Byte) (smallest : size = 0x8000)
    (sizeCode : ∀ bound, rom ⟨0x0148, bound⟩ = 0) : Cartridge where
  romData := Array.ofFn rom
  accepted := loadRomData_smallest (Array.size_ofFn.trans smallest) fun _ =>
    (Array.getElem_ofFn _).trans (sizeCode _)

theorem ofRom_read (rom : Fin size → Byte) (smallest : size = 0x8000)
    (sizeCode : ∀ bound, rom ⟨0x0148, bound⟩ = 0) {address : Word}
    (inside : address.toNat < size) :
    (ofRom rom smallest sizeCode).readFromAddress address = rom ⟨address.toNat, inside⟩ := by
  have notBeyond : ¬address.toNat > romEndAddress := by
    simp only [romEndAddress]
    omega
  exact (dif_neg notBeyond).trans (Array.getElem_ofFn _)

theorem sizeCode_inside : 0x0148 < 0x8000 := by decide

def ofSmallestRom (rom : Fin 0x8000 → Byte) (sizeCode : rom ⟨0x0148, sizeCode_inside⟩ = 0) :
    Cartridge :=
  ofRom rom rfl fun _ => sizeCode

theorem ofSmallestRom_read (rom : Fin 0x8000 → Byte)
    (sizeCode : rom ⟨0x0148, sizeCode_inside⟩ = 0) {address : Word}
    (inside : address.toNat < 0x8000) :
    (ofSmallestRom rom sizeCode).readFromAddress address = rom ⟨address.toNat, inside⟩ :=
  ofRom_read rom rfl (fun _ => sizeCode) inside

instance : AddressBusAddressable Cartridge := ⟨writeToAddress, readFromAddress⟩

/-! The accessors over `m_romData`, indexing unchecked as well. -/

def readFromAddressUnchecked (romData : Array Byte) (address : Word) : Option Byte :=
  if address.toNat > romEndAddress then some 0 else romData[address.toNat]?

def nintendoLogoRomOffset : Nat := 0x104

def nintendoLogoData : Array Byte := #[
  0xCE, 0xED, 0x66, 0x66,
  0xCC, 0x0D, 0x00, 0x0B,
  0x03, 0x73, 0x00, 0x83,
  0x00, 0x0C, 0x00, 0x0D,
  0x00, 0x08, 0x11, 0x1F,
  0x88, 0x89, 0x00, 0x0E,
  0xDC, 0xCC, 0x6E, 0xE6,
  0xDD, 0xDD, 0xD9, 0x99,
  0xBB, 0xBB, 0x67, 0x63,
  0x6E, 0x0E, 0xEC, 0xCC,
  0xDD, 0xDC, 0x99, 0x9F,
  0xBB, 0xB9, 0x33, 0x3E]

def hasValidNintendoLogo (romData : Array Byte) : Option Bool :=
  (List.range nintendoLogoData.size).allM fun i => do
    return (← romData[nintendoLogoRomOffset + i]?) == (← nintendoLogoData[i]?)

/-- The characters of the view. -/
def title (romData : Array Byte) : Option (List Byte) :=
  (List.range' 0x134 16).mapM fun i => romData[i]?

/-- The underlying value; every byte is a value of the enumeration's type. -/
def cartridgeType (romData : Array Byte) : Option Byte := romData[0x147]?

/-- `1 << shift` and a product in `int`; `none` where they are undefined. -/
def shiftedOne (shift : Nat) : Option Int :=
  if shift < 32 then some ((1#32 <<< shift).toInt) else none

def intProduct (left right : Int) : Option Int :=
  if -0x80000000 ≤ left * right ∧ left * right < 0x80000000 then some (left * right) else none

def romSize (romData : Array Byte) : Option (BitVec 64) := do
  let shifted ← shiftedOne (← romData[0x148]?).toNat
  return BitVec.ofInt 64 (← intProduct 0x8000 shifted)

def validHeaderChecksum (romData : Array Byte) : Option Bool := do
  let calculatedChecksum ← (List.range' 0x0134 (0x014D - 0x0134)).foldlM
    (fun calculatedChecksum i => do return calculatedChecksum - (← romData[i]?) - 1) (0x00 : Byte)
  return calculatedChecksum == (← romData[0x014D]?)

end Cartridge
end GbEmulator
