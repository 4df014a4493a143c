import GbEmulator.Refinement.Substitution
import GbEmulator.Verification.Process

/-! The part of an image that matters to a process: the bytes its processor reads. -/
namespace GbEmulator
open Coroutine

/-- What the loop of `main` makes of a report; `none` goes on. -/
def StepReport.Face.ending (face : StepReport.Face) : Option ProcessOutcome :=
  match face.registers, face.error with
  | none, _ => some .undefinedBehaviour
  | some _, none => none
  | some registers, some e => some (caught e registers)

theorem ending_face (cpu : Cpu δ) [AddressBusAddressable δ] :
    cpu.call.1.face.ending = match cpu.step.outcome with
      | .returned _ => none
      | .threw e next => some (caught e next.registers)
      | .undefinedBehaviour => some .undefinedBehaviour := by
  change cpu.step.face.ending = _
  unfold StepReport.face
  cases cpu.step.outcome <;> rfl

/-- The loop is decided by the first report that ends it. -/
theorem stepLoop_ending {δ : Type u} [AddressBusAddressable δ] (cpu : Cpu δ) (calls : Nat) :
    stepLoop calls cpu =
      (((cpu.run calls).map StepReport.face).findSome? StepReport.Face.ending).getD .running := by
  induction calls generalizing cpu with
  | zero => rfl
  | succ calls ih =>
    have called : (cpu.call).2 = cpu.step.outcome.cpu := rfl
    have ends := ending_face cpu
    cases outcome : cpu.step.outcome with
    | returned next =>
      rw [outcome] at called ends
      rw [Cpu.run, Transition.run_next Cpu.call called, List.map_cons, List.findSome?_cons, ends,
        ← Cpu.run]
      simp only [stepLoop, outcome, ih next]
    | threw e next =>
      rw [outcome] at called ends
      rw [Cpu.run, Transition.run_next Cpu.call called, List.map_cons, List.findSome?_cons, ends]
      simp only [stepLoop, outcome, Option.getD_some]
    | undefinedBehaviour =>
      rw [outcome] at called ends
      rw [Cpu.run, Transition.run_last Cpu.call called, List.map_cons, List.findSome?_cons, ends]
      simp only [stepLoop, outcome, Option.getD_some]

/-- The buses of two images that agree inside, over the same work memory. -/
def SameRam (inside : Word → Prop) (bus image : AddressBus MainDevice) : Prop :=
  ∃ cartridge other ram, bus.devices = [.inl cartridge, .inr ram] ∧
    image.devices = [.inl other, .inr ram] ∧
    ∀ address, inside address → cartridge.readFromAddress address = other.readFromAddress address

theorem sameRam_alike (inside : Word → Prop) : Store.Alike inside (SameRam inside) where
  load := by
    rintro ⟨devices⟩ ⟨devicesImage⟩ ⟨cartridge, other, ram, rfl, rfl, agree⟩ address within
    refine (mainBus_read cartridge ram address).trans ?_
    rw [agree address within]
    exact (mainBus_read other ram address).symm
  store := by
    rintro ⟨devices⟩ ⟨devicesImage⟩ ⟨cartridge, other, ram, rfl, rfl, agree⟩ address data
    exact ⟨cartridge, other, ram.writeToAddress address data, rfl, rfl, agree⟩

/-- Where two images hold the same byte, or are not read at all. -/
def SameBytes (romData otherData : Array Byte) (address : Word) : Prop :=
  address.toNat ≤ 0x7FFF → romData[address.toNat]? = otherData[address.toNat]?

theorem sameBytes_read {cartridge other : Cartridge} {address : Word}
    (same : SameBytes cartridge.romData other.romData address) :
    cartridge.readFromAddress address = other.readFromAddress address := by
  rw [cartridge_read, cartridge_read]
  by_cases rom : address.toNat ≤ 0x7FFF
  · simp only [mainMemory, if_pos rom, Array.getD_eq_getD_getElem?, same rom]
  · simp only [mainMemory, if_neg rom]

def mainCpu (cartridge : Cartridge) : Cpu MainDevice :=
  .construct ⟨[.inl cartridge, .inr {}]⟩

theorem mainCpu_alike (cartridge other : Cartridge) :
    (mainCpu cartridge).Alike (SameRam (SameBytes cartridge.romData other.romData))
      (mainCpu other) :=
  ⟨⟨cartridge, other, {}, rfl, rfl, fun _ same => sameBytes_read same⟩, rfl, rfl⟩

/-- Two files whose images agree wherever the first process reads give the same outcome,
whatever else is in them and however large they are. -/
theorem main_footprint (program romFilePath otherPath : String) (files : String → Option RomFile)
    (cartridge other : Cartridge) (calls : Nat)
    (loaded : loadRomData (files romFilePath) = .ok cartridge.romData)
    (loadedOther : loadRomData (files otherPath) = .ok other.romData)
    (within : ∀ report ∈ (mainCpu cartridge).run calls,
      report.ReadsWithin (SameBytes cartridge.romData other.romData)) :
    main [program, romFilePath] files calls = main [program, otherPath] files calls := by
  have faces := (run_alike (sameRam_alike _) (mainCpu_alike cartridge other) calls within).1
  rw [main_loaded loaded, main_loaded loadedOther, ← stepLoop_main, ← stepLoop_main,
    stepLoop_ending, stepLoop_ending]
  exact congrArg (fun seen => (seen.findSome? StepReport.Face.ending).getD .running) faces

theorem run_one_within {cartridge other : Cartridge}
    (same : cartridge.romData[0x0100]? = other.romData[0x0100]?) :
    ∀ report ∈ (mainCpu cartridge).run 1,
      report.ReadsWithin (SameBytes cartridge.romData other.romData) := by
  intro report member access made
  rw [Cpu.run, Transition.run_one, List.mem_singleton] at member
  subst member
  rw [show (mainCpu cartridge).call.1.transactions = _ from construct_step _,
    List.mem_singleton] at made
  subst made
  exact fun _ => same

/-- An illegal image in which every other byte but the size code differs. -/
def noisyRom (size : Nat) (index : Fin size) : Byte :=
  if index.val = 0x0100 then 0xD3 else if index.val = 0x0148 then 0 else 0xFF

theorem illegalRom_noisyRom (size : Nat) (smallest : size = 0x8000) :
    (Array.ofFn (illegalRom size))[0x0100]? = (Array.ofFn (noisyRom size))[0x0100]? := by
  rw [Array.getElem?_ofFn, Array.getElem?_ofFn, dif_pos (by omega), dif_pos (by omega)]
  rfl

def illegalCartridge (size : Nat) (smallest : size = 0x8000) : Cartridge :=
  .ofRom (illegalRom size) smallest fun _ => rfl

def noisyCartridge (size : Nat) (smallest : size = 0x8000) : Cartridge :=
  .ofRom (noisyRom size) smallest fun _ => rfl

theorem illegal_noisy_within (size : Nat) (smallest : size = 0x8000) :
    ∀ report ∈ (mainCpu (illegalCartridge size smallest)).run 1, report.ReadsWithin
      (SameBytes (illegalCartridge size smallest).romData (noisyCartridge size smallest).romData) :=
  run_one_within (illegalRom_noisyRom size smallest)

def twoFiles (first second : Cartridge) (path : String) : Option RomFile :=
  some { contents := if path = "a.gb" then first.romData else second.romData }

theorem twoFiles_first (first second : Cartridge) :
    loadRomData (twoFiles first second "a.gb") = .ok first.romData := by
  rw [twoFiles, if_pos rfl]
  exact first.accepted

theorem twoFiles_second (first second : Cartridge) :
    loadRomData (twoFiles first second "b.gb") = .ok second.romData := by
  rw [twoFiles, if_neg (by decide)]
  exact second.accepted

theorem main_footprint_noisyRom :
    let files := twoFiles (illegalCartridge 0x8000 rfl) (noisyCartridge 0x8000 rfl)
    main ["emulator", "a.gb"] files 1 = main ["emulator", "b.gb"] files 1 :=
  main_footprint "emulator" "a.gb" "b.gb" _ (illegalCartridge 0x8000 rfl)
    (noisyCartridge 0x8000 rfl) 1 (twoFiles_first _ _) (twoFiles_second _ _)
    (illegal_noisy_within 0x8000 rfl)

end GbEmulator
