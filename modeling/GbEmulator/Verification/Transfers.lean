import GbEmulator.InstructionSet.Transfers
import GbEmulator.Refinement.Completion
import GbEmulator.Verification.WorkMemory

/-! Stores of A and loads into A. Every form accesses its effective address once, so
what any form stores to work memory any other form loads back. -/
namespace GbEmulator
open CpuRegisters Sm83

section Accesses
variable {δ : Type u} [AddressBusAddressable δ]

theorem store_completes {cpu : Cpu δ} (boundary : cpu.AtBoundary) (place : Place)
    (decoded : decode cpu.registers.visible.opcode = .implemented place.store) :
    let before := cpu.registers.visible
    let address := place.address before cpu.bus
    ∃ next fetchedAt, cpu.Completes place.store next ∧
      cpu.accesses place.store = place.operandReads before cpu.bus ++
        [.write address before.a, .read fetchedAt next.registers.visible.opcode] ∧
      next.registers.visible.hl = place.moved before.hl ∧
      next.bus = cpu.bus.writeToAddress address before.a := by
  obtain ⟨next, completes⟩ := boundary.completes decoded
  refine ⟨next, (place.store.finished cpu.registers.visible cpu.bus).1.pc, completes, ?_, ?_, ?_⟩
  · rw [completes.accesses_eq, store_accesses, List.append_assoc]
    rfl
  · rw [completes.registers.hl, store_hl]
  · rw [completes.bus, store_memory]
    rfl

theorem load_completes {cpu : Cpu δ} (boundary : cpu.AtBoundary) (place : Place)
    (decoded : decode cpu.registers.visible.opcode = .implemented place.load) :
    let before := cpu.registers.visible
    let address := place.address before cpu.bus
    let data := cpu.bus.readFromAddress address
    ∃ next fetchedAt, cpu.Completes place.load next ∧
      cpu.accesses place.load = place.operandReads before cpu.bus ++
        [.read address data, .read fetchedAt next.registers.visible.opcode] ∧
      next.registers.visible.a = data ∧
      next.registers.visible.hl = place.moved before.hl ∧
      next.bus = cpu.bus := by
  obtain ⟨next, completes⟩ := boundary.completes decoded
  refine ⟨next, (place.load.finished cpu.registers.visible cpu.bus).1.pc, completes, ?_, ?_, ?_, ?_⟩
  · rw [completes.accesses_eq, load_accesses, List.append_assoc]
    rfl
  · exact (completes.registers.registers .a).trans (load_a _ _ place)
  · rw [completes.registers.hl, load_hl]
  · rw [completes.bus, load_memory]

theorem storeSp_completes {cpu : Cpu δ} (boundary : cpu.AtBoundary)
    (decoded : decode cpu.registers.visible.opcode = .implemented .storeSp) :
    let before := cpu.registers.visible
    let address := immediateWord before cpu.bus
    ∃ next fetchedAt, cpu.Completes .storeSp next ∧
      cpu.accesses .storeSp = Place.absolute.operandReads before cpu.bus ++
        [.write address (Word.lower before.sp), .write (address + 1) (Word.upper before.sp),
          .read fetchedAt next.registers.visible.opcode] := by
  obtain ⟨next, completes⟩ := boundary.completes decoded
  exact ⟨next, _, completes, completes.accesses_eq⟩

end Accesses

/-- What one form has stored to work memory any form loads back, from a bus that
nothing else was written to in between. -/
theorem stored_loaded {δ : Type u} [AddressBusAddressable δ]
    {cpu stored later loaded : Cpu (δ ⊕ Ram)} {store load : Place}
    (ram : WithRam cpu.bus) (storing : cpu.Completes store.store stored)
    (kept : later.bus = stored.bus) (loading : later.Completes load.load loaded)
    (same : load.address later.registers.visible later.bus =
      store.address cpu.registers.visible cpu.bus)
    (owned : Ram.Owns (store.address cpu.registers.visible cpu.bus)) :
    loaded.registers.visible.a = cpu.registers.visible.a ∧
      ∀ other, Ram.Owns other → other ≠ store.address cpu.registers.visible cpu.bus →
        loaded.bus.readFromAddress other = cpu.bus.readFromAddress other := by
  have read (address : Word) (inside : Ram.Owns address) :=
    ram.read_write owned cpu.registers.visible.a inside
  have bus : later.bus = cpu.bus.writeToAddress (store.address cpu.registers.visible cpu.bus)
      cpu.registers.visible.a := by
    rw [kept, storing.bus, store_memory]
    rfl
  constructor
  · calc loaded.registers.visible.a
      _ = later.bus.readFromAddress (load.address later.registers.visible later.bus) :=
        (loading.registers.registers .a).trans (load_a _ _ load)
      _ = cpu.registers.visible.a := by rw [same, bus, read _ owned, if_pos rfl]
  · intro other inside distinct
    rw [loading.bus, load_memory, bus, read other inside, if_neg distinct]

/-- Every store form and every load form accesses its effective address once, so on
the bus of `main` any form loads what any form has stored. -/
theorem transfers_agree :
    (∀ (δ : Type u) [AddressBusAddressable δ] (cpu : Cpu δ), cpu.AtBoundary →
      let before := cpu.registers.visible
      (∀ place : Place, decode before.opcode = .implemented place.store →
        let address := place.address before cpu.bus
        ∃ next fetchedAt, cpu.Completes place.store next ∧
          cpu.accesses place.store = place.operandReads before cpu.bus ++
            [.write address before.a, .read fetchedAt next.registers.visible.opcode] ∧
          next.registers.visible.hl = place.moved before.hl ∧
          next.bus = cpu.bus.writeToAddress address before.a) ∧
      (∀ place : Place, decode before.opcode = .implemented place.load →
        let address := place.address before cpu.bus
        let data := cpu.bus.readFromAddress address
        ∃ next fetchedAt, cpu.Completes place.load next ∧
          cpu.accesses place.load = place.operandReads before cpu.bus ++
            [.read address data, .read fetchedAt next.registers.visible.opcode] ∧
          next.registers.visible.a = data ∧
          next.registers.visible.hl = place.moved before.hl ∧ next.bus = cpu.bus) ∧
      (decode before.opcode = .implemented .storeSp →
        let address := immediateWord before cpu.bus
        ∃ next fetchedAt, cpu.Completes .storeSp next ∧
          cpu.accesses .storeSp = Place.absolute.operandReads before cpu.bus ++
            [.write address (Word.lower before.sp), .write (address + 1) (Word.upper before.sp),
              .read fetchedAt next.registers.visible.opcode])) ∧
    ∀ (cartridge : Cartridge) (ram : Ram) (cpu stored later loaded : Cpu MainDevice)
      (store load : Place),
      cpu.bus.devices = [.inl cartridge, .inr ram] ∨ cpu.bus.devices = [.inr ram, .inl cartridge] →
      cpu.Completes store.store stored → later.bus = stored.bus →
      later.Completes load.load loaded →
      let address := store.address cpu.registers.visible cpu.bus
      load.address later.registers.visible later.bus = address →
      0xC000 ≤ address.toNat ∧ address.toNat ≤ 0xDFFF →
        loaded.registers.visible.a = cpu.registers.visible.a ∧
          ∀ other : Word, 0xC000 ≤ other.toNat ∧ other.toNat ≤ 0xDFFF → other ≠ address →
            loaded.bus.readFromAddress other = cpu.bus.readFromAddress other := by
  refine ⟨fun δ _ cpu boundary => ⟨store_completes boundary, load_completes boundary,
    storeSp_completes boundary⟩, ?_⟩
  intro cartridge ram cpu stored later loaded store load devices storing kept loading address same
    owned
  exact stored_loaded (main_withRam devices) storing kept loading same owned

/-- The bus of `main` over an empty image, at the start of `LD (BC),A` or `LD A,(BC)`. -/
def transferCpu (bus : AddressBus MainDevice) (opcode : Byte) (place : Place → Instruction) :
    Cpu MainDevice :=
  .about bus { Cpu.powerUp {} with
    backingInstructionRegister := opcode
    backingBcRegister := 0xC000 } (place .bc)

theorem transferCpu_boundary (bus : AddressBus MainDevice) {place : Place → Instruction}
    (decoded : decode opcode = .implemented (place .bc)) :
    (transferCpu bus opcode place).AtBoundary :=
  about_boundary bus decoded

theorem transfers_agree_throughBc :
    ∃ stored loaded, (transferCpu ⟨[.inl (.ofSmallestRom emptyRom rfl), .inr {}]⟩ 0x02
        Place.store).Completes (.storeIndirect .bc) stored ∧
      (transferCpu stored.bus 0x0A Place.load).Completes (.loadIndirect .bc) loaded ∧
      loaded.registers.visible.a = 0x01 := by
  have storing : decode 0x02 = .implemented (Place.store .bc) := by decide
  have loading : decode 0x0A = .implemented (Place.load .bc) := by decide
  obtain ⟨stored, -, stores, -⟩ :=
    (transfers_agree.{0}.1 _ _ (transferCpu_boundary _ storing)).1 .bc storing
  obtain ⟨loaded, -, loads, -⟩ :=
    (transfers_agree.{0}.1 _ _ (transferCpu_boundary stored.bus loading)).2.1 .bc loading
  refine ⟨stored, loaded, stores, loads, ?_⟩
  exact (transfers_agree.{0}.2 _ _ _ stored (transferCpu stored.bus 0x0A Place.load) loaded .bc .bc
    (.inl rfl) stores rfl loads rfl (by decide)).1

end GbEmulator
