import GbEmulator.Emulator.Cartridge
import GbEmulator.Emulator.Ram

/-! The address bus as a flat memory. Broadcast writes and OR-combined reads are
harmless when every address has at most one owner and the others answer 0. -/
namespace GbEmulator

/-- Writes in the order they are issued. -/
abbrev History := List (Word × Byte)

def AddressBus.writeAll [AddressBusAddressable δ] (bus : AddressBus δ) (history : History) :
    AddressBus δ :=
  history.foldl (fun bus write => bus.writeToAddress write.1 write.2) bus

namespace AddressBusAddressable
variable {δ : Type u} [AddressBusAddressable δ]

/-- A device on its own under the same writes. -/
def writeAll (device : δ) (history : History) : δ :=
  history.foldl (fun device write => writeToAddress device write.1 write.2) device

/-- Whatever has been written, reads outside `owns` answer 0. -/
def SilentOutside (owns : Word → Prop) (device : δ) : Prop :=
  ∀ history address, ¬owns address → readFromAddress (writeAll device history) address = 0

end AddressBusAddressable

namespace FlatMemory

/-- The data of the last write to an address, 0 before the first. -/
def lastWrite (history : History) (address : Word) : Byte :=
  history.foldl (fun last write => if write.1 = address then write.2 else last) 0

end FlatMemory

open AddressBusAddressable (SilentOutside writeAll)

section Bus
variable {δ : Type u} [AddressBusAddressable δ]

theorem writeAll_devices (devices : List δ) (history : History) :
    (AddressBus.mk devices).writeAll history =
      ⟨devices.map fun device => writeAll device history⟩ := by
  induction history generalizing devices with
  | nil => exact congrArg AddressBus.mk (List.map_id' devices).symm
  | cons write history ih =>
    refine (ih (devices.map fun device =>
      AddressBusAddressable.writeToAddress device write.1 write.2)).trans ?_
    rw [List.map_map]
    rfl

theorem or_silent (devices : List δ) (address : Word) (data : Byte)
    (silent : ∀ device ∈ devices, AddressBusAddressable.readFromAddress device address = 0) :
    devices.foldl (fun data device =>
      data ||| AddressBusAddressable.readFromAddress device address) data = data := by
  induction devices with
  | nil => rfl
  | cons device devices ih =>
    have heard : data ||| (0 : Byte) = data := BitVec.or_zero
    rw [List.foldl_cons, silent device List.mem_cons_self, heard]
    exact ih fun other member => silent other (List.mem_cons_of_mem device member)

theorem read_silent {devices : List δ} {address : Word}
    (silent : ∀ device ∈ devices, AddressBusAddressable.readFromAddress device address = 0) :
    (AddressBus.mk devices).readFromAddress address = 0 :=
  or_silent devices address 0 silent

/-- A device that is the only one to answer is the one that is heard. -/
theorem read_only {before behind : List δ} {device : δ} {address : Word}
    (silentBefore : ∀ other ∈ before, AddressBusAddressable.readFromAddress other address = 0)
    (silentBehind : ∀ other ∈ behind, AddressBusAddressable.readFromAddress other address = 0) :
    (AddressBus.mk (before ++ device :: behind)).readFromAddress address =
      AddressBusAddressable.readFromAddress device address := by
  unfold AddressBus.readFromAddress
  rw [List.foldl_append, List.foldl_cons, or_silent before address 0 silentBefore,
    or_silent behind address _ silentBehind]
  exact BitVec.zero_or

/-- The owner of an address decides what is read there, wherever it is registered. -/
theorem read_owner {devices : List (δ × (Word → Prop))} {owner : δ × (Word → Prop)}
    (disjoint : devices.Pairwise fun left right => ∀ address, ¬(left.2 address ∧ right.2 address))
    (silent : ∀ device ∈ devices, SilentOutside device.2 device.1) (registered : owner ∈ devices)
    (history : History) (address : Word) (owned : owner.2 address) :
    ((AddressBus.mk (devices.map Prod.fst)).writeAll history).readFromAddress address =
      AddressBusAddressable.readFromAddress (writeAll owner.1 history) address := by
  obtain ⟨before, behind, rfl⟩ := List.append_of_mem registered
  rw [List.pairwise_append, List.pairwise_cons] at disjoint
  obtain ⟨-, ⟨apartBehind, -⟩, apartBefore⟩ := disjoint
  rw [writeAll_devices, List.map_append, List.map_append, List.map_cons, List.map_cons]
  apply read_only
  · simp only [List.mem_map]
    rintro _ ⟨_, ⟨other, member, rfl⟩, rfl⟩
    exact silent other (List.mem_append_left _ member) history address
      fun shared => apartBefore other member owner List.mem_cons_self address ⟨shared, owned⟩
  · simp only [List.mem_map]
    rintro _ ⟨_, ⟨other, member, rfl⟩, rfl⟩
    exact silent other (List.mem_append_right _ (List.mem_cons_of_mem _ member)) history address
      fun shared => apartBehind other member address ⟨owned, shared⟩

theorem read_unowned {devices : List (δ × (Word → Prop))}
    (silent : ∀ device ∈ devices, SilentOutside device.2 device.1)
    (history : History) (address : Word) (unowned : ∀ device ∈ devices, ¬device.2 address) :
    ((AddressBus.mk (devices.map Prod.fst)).writeAll history).readFromAddress address = 0 := by
  rw [writeAll_devices]
  apply read_silent
  simp only [List.mem_map]
  rintro _ ⟨_, ⟨device, member, rfl⟩, rfl⟩
  exact silent device member history address (unowned device member)

end Bus

/-! The bus `main` builds, over an accepted cartridge and new work memory. -/
section Main

abbrev MainDevice := Cartridge ⊕ Ram

theorem writeAll_cartridge (cartridge : Cartridge) (history : History) :
    writeAll (.inl cartridge : MainDevice) history = .inl cartridge := by
  induction history with
  | nil => rfl
  | cons write history ih => exact ih

theorem writeAll_ram (ram : Ram) (history : History) :
    writeAll (.inr ram : MainDevice) history = .inr (writeAll ram history) := by
  induction history generalizing ram with
  | nil => rfl
  | cons write history ih => exact ih (ram.writeToAddress write.1 write.2)

theorem readAll_ram (ram : Ram) (history : History) (owned : Ram.Owns address) :
    (writeAll ram history).readFromAddress address =
      history.foldl (fun last write => if write.1 = address then write.2 else last)
        (ram.readFromAddress address) := by
  induction history generalizing ram with
  | nil => rfl
  | cons write history ih =>
    refine (ih (ram.writeToAddress write.1 write.2)).trans (congrArg (history.foldl _) ?_)
    by_cases inside : Ram.Owns write.1
    · rw [ram.read_write write.2 inside address]
      simp only [eq_comm]
    · have distinct : write.1 ≠ address := fun same => inside (same.symm ▸ owned)
      rw [ram.write_outside write.2 inside]
      exact (if_neg distinct).symm

theorem cartridge_silent (cartridge : Cartridge) :
    SilentOutside (fun address => address.toNat ≤ 0x7FFF) (.inl cartridge : MainDevice) := by
  intro history address outside
  rw [writeAll_cartridge]
  exact dif_pos (Nat.lt_of_not_le outside)

theorem ram_silent (ram : Ram) : SilentOutside Ram.Owns (.inr ram : MainDevice) := by
  intro history address outside
  rw [writeAll_ram]
  exact Ram.read_outside _ outside

/-- Both devices of `main` with the addresses they answer at. -/
def mainOwners (cartridge : Cartridge) : List (MainDevice × (Word → Prop)) :=
  [(.inl cartridge, fun address => address.toNat ≤ 0x7FFF), (.inr {}, Ram.Owns)]

theorem mainOwners_disjoint (cartridge : Cartridge) :
    (mainOwners cartridge).Pairwise
      fun left right => ∀ address, ¬(left.2 address ∧ right.2 address) := by
  have apart (address : Word) : ¬(address.toNat ≤ 0x7FFF ∧ Ram.Owns address) := by
    simp only [Ram.Owns, Ram.startAddress]
    omega
  simpa [mainOwners] using apart

theorem mainOwners_silent (cartridge : Cartridge) :
    ∀ device ∈ mainOwners cartridge, SilentOutside device.2 device.1 := by
  simp only [mainOwners, List.mem_cons, List.not_mem_nil, or_false, forall_eq_or_imp, forall_eq]
  exact ⟨cartridge_silent cartridge, ram_silent {}⟩

/-- What a flat memory answers: ROM, the last write to work memory, or nothing. -/
def mainRead (cartridge : Cartridge) (history : History) (address : Word) : Byte :=
  if address.toNat ≤ 0x7FFF then cartridge.readFromAddress address
  else if Ram.Owns address then FlatMemory.lastWrite history address
  else 0

theorem main_read {cartridge : Cartridge} {order : List (MainDevice × (Word → Prop))}
    (permuted : order.Perm (mainOwners cartridge)) (history : History) (address : Word) :
    ((AddressBus.mk (order.map Prod.fst)).writeAll history).readFromAddress address =
      mainRead cartridge history address := by
  have disjoint := permuted.symm.pairwise (mainOwners_disjoint cartridge)
    fun apart address shared => apart address shared.symm
  have silent : ∀ device ∈ order, SilentOutside device.2 device.1 := fun device member =>
    mainOwners_silent cartridge device (permuted.mem_iff.mp member)
  have registered (owner) (member : owner ∈ mainOwners cartridge) : owner ∈ order :=
    permuted.mem_iff.mpr member
  unfold mainRead
  split
  · rename_i rom
    rw [read_owner disjoint silent (registered _ List.mem_cons_self) history address rom]
    dsimp only
    rw [writeAll_cartridge]
    rfl
  · rename_i beyond
    split
    · rename_i owned
      rw [read_owner disjoint silent (registered _ (List.mem_cons_of_mem _ List.mem_cons_self))
        history address owned]
      dsimp only
      rw [writeAll_ram]
      refine (readAll_ram {} history owned).trans ?_
      rw [Ram.read_new]
      rfl
    · rename_i unowned
      apply read_unowned silent history address
      intro device member
      have listed := permuted.mem_iff.mp member
      simp only [mainOwners, List.mem_cons, List.not_mem_nil, or_false] at listed
      rcases listed with rfl | rfl
      · exact beyond
      · exact unowned

theorem rom_read (cartridge : Cartridge) (rom : address.toNat ≤ 0x7FFF) :
    cartridge.romData[address.toNat]? = some (cartridge.readFromAddress address) := by
  have size := cartridge.romData_size
  simp only [Cartridge.romEndAddress] at size
  have inside : address.toNat < cartridge.romData.size := by omega
  have notBeyond : ¬address.toNat > Cartridge.romEndAddress := by
    simp only [Cartridge.romEndAddress]
    omega
  have read : cartridge.readFromAddress address = cartridge.romData[address.toNat] :=
    dif_neg notBeyond
  rw [Array.getElem?_eq_getElem inside, read]

theorem lastWrite_other (history : History) (data : Byte) (distinct : other ≠ address) :
    FlatMemory.lastWrite (history ++ [(other, data)]) address =
      FlatMemory.lastWrite history address := by
  simp only [FlatMemory.lastWrite, List.foldl_append, List.foldl_cons, List.foldl_nil, if_neg distinct]

/-- Registration order never matters, and `main`'s bus is ROM, work memory and
nothing else. -/
theorem addressBus_flat :
    (∀ (δ : Type u) [AddressBusAddressable δ] (devices order : List (δ × (Word → Prop))),
      order.Perm devices →
      devices.Pairwise (fun left right => ∀ address, ¬(left.2 address ∧ right.2 address)) →
      (∀ device ∈ devices, SilentOutside device.2 device.1) →
      ∀ history address,
        let answer := ((AddressBus.mk (order.map Prod.fst)).writeAll history).readFromAddress address
        (∀ owner ∈ devices, owner.2 address →
          answer = AddressBusAddressable.readFromAddress (writeAll owner.1 history) address) ∧
        ((∀ device ∈ devices, ¬device.2 address) → answer = 0)) ∧
    ∀ (cartridge : Cartridge) (devices : List MainDevice),
      devices = [.inl cartridge, .inr {}] ∨ devices = [.inr {}, .inl cartridge] →
      ∀ history (address : Word),
        let answer := fun history =>
          ((AddressBus.mk devices).writeAll history).readFromAddress address
        (address.toNat ≤ 0x7FFF →
          cartridge.romData[address.toNat]? = some (answer history)) ∧
        (0xC000 ≤ address.toNat ∧ address.toNat ≤ 0xDFFF →
          answer history = FlatMemory.lastWrite history address) ∧
        (0x7FFF < address.toNat ∧ ¬(0xC000 ≤ address.toNat ∧ address.toNat ≤ 0xDFFF) →
          answer history = 0) ∧
        ∀ other data, other ≠ address → answer (history ++ [(other, data)]) = answer history := by
  refine ⟨fun δ _ devices order permuted disjoint silent history address => ⟨?_, ?_⟩,
    fun cartridge devices order history address => ?_⟩
  · intro owner registered owned
    exact read_owner
      (permuted.symm.pairwise disjoint fun apart address shared => apart address shared.symm)
      (fun device member => silent device (permuted.mem_iff.mp member))
      (permuted.mem_iff.mpr registered) history address owned
  · intro unowned
    exact read_unowned (fun device member => silent device (permuted.mem_iff.mp member)) history
      address fun device member => unowned device (permuted.mem_iff.mp member)
  · have answered (history : History) :
        ((AddressBus.mk devices).writeAll history).readFromAddress address =
          mainRead cartridge history address := by
      rcases order with rfl | rfl
      · exact main_read (List.Perm.refl (mainOwners cartridge)) history address
      · exact main_read (List.Perm.swap _ _ []) history address
    simp only [answered]
    refine ⟨?_, ?_, ?_, ?_⟩
    · intro rom
      rw [mainRead, if_pos rom]
      exact rom_read cartridge rom
    · intro owned
      rw [mainRead, if_neg (by omega), if_pos (show Ram.Owns address from owned)]
    · intro unowned
      rw [mainRead, if_neg (by omega), if_neg (show ¬Ram.Owns address from unowned.2)]
    · intro other data distinct
      simp only [mainRead, lastWrite_other history data distinct]

/-- An image with one byte of code, in a bus with the work memory first. -/
theorem addressBus_flat_at_C000 :
    let cartridge := Cartridge.ofRom (fun index : Fin 0x8000 => if index = 0x100 then 0x3E else 0)
      rfl (fun _ => rfl)
    ((AddressBus.mk [.inr {}, (.inl cartridge : MainDevice)]).writeAll
      [(0xC000, 0x11), (0x8000, 0x22), (0xC000, 0x33)]).readFromAddress 0xC000 = 0x33 :=
  ((addressBus_flat.{0}).2 _ _ (.inr rfl) _ _).2.1 (by decide)

end Main
end GbEmulator
