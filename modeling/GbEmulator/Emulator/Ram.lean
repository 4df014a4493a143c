import GbEmulator.Emulator.AddressBus

/-! `Ram`: work memory at 0xC000 to 0xDFFF. -/
namespace GbEmulator

namespace Ram

def startAddress : Nat := 0xC000
def endAddress : Nat := 0xDFFF
def size : Nat := endAddress - startAddress + 1

end Ram

structure Ram where
  data : Vector Byte Ram.size := Vector.replicate Ram.size 0

namespace Ram

/-- The addresses the range tests let through. -/
def Owns (address : Word) : Prop := startAddress ≤ address.toNat ∧ address.toNat ≤ endAddress

instance : DecidablePred Owns := fun _ => inferInstanceAs (Decidable (_ ∧ _))

theorem Owns.index (owned : Owns address) : address.toNat - startAddress < size := by
  simp only [Owns, size] at *
  omega

def writeToAddress (ram : Ram) (address : Word) (data : Byte) : Ram :=
  if owned : Owns address then ⟨ram.data.set (address.toNat - startAddress) data owned.index⟩
  else ram

def readFromAddress (ram : Ram) (address : Word) : Byte :=
  if owned : Owns address then
    have := owned.index
    ram.data[address.toNat - startAddress]
  else 0

instance : AddressBusAddressable Ram := ⟨writeToAddress, readFromAddress⟩

theorem read_outside (ram : Ram) (outside : ¬Owns address) : ram.readFromAddress address = 0 :=
  dif_neg outside

theorem write_outside (ram : Ram) (data : Byte) (outside : ¬Owns address) :
    ram.writeToAddress address data = ram :=
  dif_neg outside

theorem read_write (ram : Ram) (data : Byte) (owned : Owns address) (other : Word) :
    (ram.writeToAddress address data).readFromAddress other =
      if other = address then data else ram.readFromAddress other := by
  by_cases inside : Owns other
  · simp only [readFromAddress, writeToAddress, inside, owned, dif_pos, Vector.getElem_set]
    have same : address.toNat - startAddress = other.toNat - startAddress ↔ other = address := by
      rw [← BitVec.toNat_inj]
      simp only [Owns] at owned inside
      omega
    simp only [same]
  · have distinct : other ≠ address := fun same => inside (same ▸ owned)
    rw [read_outside _ inside, read_outside _ inside, if_neg distinct]

theorem read_new (address : Word) : ({} : Ram).readFromAddress address = 0 := by
  unfold readFromAddress
  split
  · exact Vector.getElem_replicate _
  · rfl

end Ram
end GbEmulator
