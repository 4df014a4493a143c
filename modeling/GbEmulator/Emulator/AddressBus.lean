import GbEmulator.Coroutine.Execution
import GbEmulator.Bits.Words

/-! `AddressBus`: writes go to every device, reads are the OR of all answers.
The registered devices are separate objects; a bus of different classes of
device is a bus over their sum. -/
namespace GbEmulator

/-- The virtual interface of a device. -/
class AddressBusAddressable (δ : Type u) where
  writeToAddress : δ → Word → Byte → δ
  readFromAddress : δ → Word → Byte

structure AddressBus (δ : Type u) where
  devices : List δ

namespace AddressBus
variable {δ : Type u} [AddressBusAddressable δ]

def writeToAddress (bus : AddressBus δ) (address : Word) (data : Byte) : AddressBus δ :=
  ⟨bus.devices.map fun device => AddressBusAddressable.writeToAddress device address data⟩

def readFromAddress (bus : AddressBus δ) (address : Word) : Byte :=
  bus.devices.foldl
    (fun data device => data ||| AddressBusAddressable.readFromAddress device address) 0

instance : Store (AddressBus δ) Word Byte where
  load := readFromAddress
  store := writeToAddress

end AddressBus

instance [AddressBusAddressable δ] [AddressBusAddressable ε] : AddressBusAddressable (δ ⊕ ε) where
  writeToAddress device address data := match device with
    | .inl device => .inl (AddressBusAddressable.writeToAddress device address data)
    | .inr device => .inr (AddressBusAddressable.writeToAddress device address data)
  readFromAddress device address := match device with
    | .inl device => AddressBusAddressable.readFromAddress device address
    | .inr device => AddressBusAddressable.readFromAddress device address

end GbEmulator
