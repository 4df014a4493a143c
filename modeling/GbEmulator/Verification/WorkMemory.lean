import GbEmulator.Verification.Memory

/-! Work memory behind a bus. Whatever else is registered, reads and writes of work
memory addresses are those of one array of bytes. -/
namespace GbEmulator
open AddressBusAddressable (SilentOutside)

variable {δ : Type u} [AddressBusAddressable δ]

theorem silent_write {owns : Word → Prop} {device : δ} (silent : SilentOutside owns device)
    (address : Word) (data : Byte) :
    SilentOutside owns (AddressBusAddressable.writeToAddress device address data) :=
  fun history other outside => silent ((address, data) :: history) other outside

/-- One device is the work memory and no other answers there. -/
def WithRam (bus : AddressBus (δ ⊕ Ram)) : Prop :=
  ∃ before ram behind, bus.devices = before ++ .inr ram :: behind ∧
    ∀ device ∈ before ++ behind, SilentOutside (fun address => ¬Ram.Owns address) device

/-- What is read in the work memory is what it holds. -/
theorem ram_read {before behind : List (δ ⊕ Ram)} {address : Word} (ram : Ram)
    (silent : ∀ device ∈ before ++ behind, SilentOutside (fun address => ¬Ram.Owns address) device)
    (owned : Ram.Owns address) :
    (AddressBus.mk (before ++ .inr ram :: behind)).readFromAddress address =
      ram.readFromAddress address :=
  read_only
    (fun device member =>
      silent device (List.mem_append_left _ member) [] address (not_not_intro owned))
    (fun device member =>
      silent device (List.mem_append_right _ member) [] address (not_not_intro owned))

section
variable {before behind : List (δ ⊕ Ram)} (ram : Ram) (address : Word) (data : Byte)

theorem write_devices :
    (AddressBus.mk (before ++ .inr ram :: behind)).writeToAddress address data =
      ⟨before.map (AddressBusAddressable.writeToAddress · address data) ++
        .inr (ram.writeToAddress address data) ::
          behind.map (AddressBusAddressable.writeToAddress · address data)⟩ := by
  rw [AddressBus.writeToAddress, List.map_append, List.map_cons]
  rfl

theorem write_silent
    (silent : ∀ device ∈ before ++ behind, SilentOutside (fun address => ¬Ram.Owns address) device) :
    ∀ device ∈ before.map (AddressBusAddressable.writeToAddress · address data) ++
      behind.map (AddressBusAddressable.writeToAddress · address data),
        SilentOutside (fun address => ¬Ram.Owns address) device := by
  rw [← List.map_append, List.forall_mem_map]
  intro device member
  exact silent_write (silent device member) address data

end

theorem WithRam.write {bus : AddressBus (δ ⊕ Ram)} (ram : WithRam bus) (address : Word)
    (data : Byte) : WithRam (bus.writeToAddress address data) := by
  obtain ⟨devices⟩ := bus
  obtain ⟨before, memory, behind, rfl, silent⟩ := ram
  exact ⟨_, _, _, congrArg AddressBus.devices (write_devices memory address data),
    write_silent address data silent⟩

theorem WithRam.read_write {bus : AddressBus (δ ⊕ Ram)} (ram : WithRam bus)
    (owned : Ram.Owns address) (data : Byte) {other : Word} (ownedOther : Ram.Owns other) :
    (bus.writeToAddress address data).readFromAddress other =
      if other = address then data else bus.readFromAddress other := by
  obtain ⟨devices⟩ := bus
  obtain ⟨before, memory, behind, rfl, silent⟩ := ram
  rw [write_devices, ram_read _ (write_silent address data silent) ownedOther,
    ram_read memory silent ownedOther]
  exact memory.read_write data owned other

theorem cartridge_offRam (cartridge : Cartridge) :
    SilentOutside (fun address => ¬Ram.Owns address) (.inl cartridge : MainDevice) := by
  intro history address owned
  apply cartridge_silent cartridge history address
  have inside := not_not.mp owned
  simp only [Ram.Owns, Ram.startAddress] at inside
  omega

/-- The bus of `main`, in either order of registration. -/
theorem main_withRam {bus : AddressBus MainDevice} {cartridge : Cartridge} {ram : Ram}
    (devices : bus.devices = [.inl cartridge, .inr ram] ∨
      bus.devices = [.inr ram, .inl cartridge]) : WithRam bus := by
  rcases devices with ordered | ordered
  · refine ⟨[.inl cartridge], ram, [], ordered, ?_⟩
    intro device member
    obtain rfl := List.mem_singleton.mp member
    exact cartridge_offRam cartridge
  · refine ⟨[], ram, [.inl cartridge], ordered, ?_⟩
    intro device member
    obtain rfl := List.mem_singleton.mp member
    exact cartridge_offRam cartridge

theorem main_rom (cartridge : Cartridge) (ram : Ram) {address : Word}
    (rom : address.toNat ≤ 0x7FFF) :
    (AddressBus.mk [.inl cartridge, (.inr ram : MainDevice)]).readFromAddress address =
      cartridge.readFromAddress address := by
  have outside : ¬Ram.Owns address := by
    simp only [Ram.Owns, Ram.startAddress]
    omega
  change (AddressBus.mk ([] ++ (.inl cartridge : MainDevice) :: [.inr ram])).readFromAddress
    address = _
  refine read_only (fun _ none => absurd none List.not_mem_nil) fun other member => ?_
  obtain rfl := List.mem_singleton.mp member
  exact Ram.read_outside ram outside

def emptyRom (_ : Fin 0x8000) : Byte := 0

end GbEmulator
