import GbEmulator.Refinement.Process
import GbEmulator.Verification.WorkMemory

/-! What the process does with a ROM file: it behaves as an SM83 on a memory map of
ROM and work memory, for as many calls as are made, and stops with a report of the
first opcode without an instruction. -/
namespace GbEmulator
open CpuRegisters Sm83

/-- The memory at power up: ROM, cleared work memory, and 0 where nothing answers. -/
def mainMemory (romData : Array Byte) : MemoryMap Ram.Owns :=
  ⟨fun address => if address.toNat ≤ 0x7FFF then romData.getD address.toNat 0 else 0⟩

/-- The state in which `main` starts, about to execute the instruction of opcode 0. -/
def Sm83.State.powerUp : State :=
  { a := 0x01, f := 0x80, b := 0x00, c := 0x13, d := 0x00, e := 0xD8, h := 0x01, l := 0x4D,
    sp := 0xFFFE, pc := 0x0100, opcode := 0x00, interrupts := .disabled }

def mainMachine (romData : Array Byte) : Machine (MemoryMap Ram.Owns) :=
  .starting .nop .powerUp (mainMemory romData)

section
variable (cartridge : Cartridge) (ram : Ram)

theorem mainBus_read (address : Word) :
    (AddressBus.mk [.inl cartridge, (.inr ram : MainDevice)]).readFromAddress address =
      cartridge.readFromAddress address ||| ram.readFromAddress address := by
  change 0 ||| cartridge.readFromAddress address ||| ram.readFromAddress address = _
  rw [show (0 : Byte) ||| cartridge.readFromAddress address = _ from BitVec.zero_or]

theorem cartridge_read (address : Word) :
    cartridge.readFromAddress address = (mainMemory cartridge.romData).byteAt address := by
  by_cases rom : address.toNat ≤ 0x7FFF
  · have read := rom_read cartridge rom
    simp only [mainMemory, if_pos rom, Array.getD_eq_getD_getElem?, read, Option.getD_some]
  · simp only [mainMemory, if_neg rom]
    exact dif_pos (Nat.lt_of_not_le rom)

theorem cartridge_read_owned {address : Word} (owned : Ram.Owns address) :
    cartridge.readFromAddress address = 0 := by
  apply dif_pos
  simp only [Ram.Owns, Ram.startAddress, Cartridge.romEndAddress] at *
  omega

end

/-- The bus of `main` answers like the memory. -/
structure Mapped (bus : AddressBus MainDevice) (memory : MemoryMap Ram.Owns) : Prop where
  devices : ∃ cartridge ram, bus.devices = [.inl cartridge, .inr ram]
  read : ∀ address, bus.readFromAddress address = memory.byteAt address

theorem mapped_alike : Store.Alike (fun _ => True) Mapped where
  load mapped address _ := mapped.read address
  store := by
    rintro ⟨devices⟩ memory ⟨⟨cartridge, ram, ordered⟩, read⟩ address data
    dsimp only at ordered
    subst ordered
    refine ⟨⟨cartridge, ram.writeToAddress address data, rfl⟩, fun other => ?_⟩
    refine Eq.trans (mainBus_read cartridge (ram.writeToAddress address data) other) ?_
    have before := read other
    rw [mainBus_read] at before
    by_cases owned : Ram.Owns address
    · rw [ram.read_write data owned, MemoryMap.store_eq, MemoryMap.byteAt_write memory owned]
      by_cases same : other = address
      · rw [if_pos same, if_pos same, same, cartridge_read_owned cartridge owned]
        exact BitVec.zero_or
      · rw [if_neg same, if_neg same, before]
    · rw [ram.write_outside data owned, MemoryMap.store_eq, MemoryMap.write_lost memory owned, before]

theorem mapped_start (cartridge : Cartridge) :
    Mapped ⟨[.inl cartridge, .inr {}]⟩ (mainMemory cartridge.romData) where
  devices := ⟨cartridge, {}, rfl⟩
  read address := by
    rw [mainBus_read, Ram.read_new, ← cartridge_read]
    exact BitVec.or_zero

/-- A processor on the bus of `main` has the machine of the image before it. -/
theorem stepLoop_main (cartridge : Cartridge) (calls : Nat) :
    stepLoop calls (.construct (AddressBus.mk [.inl cartridge, (.inr {} : MainDevice)])) =
      processOf ((mainMachine cartridge.romData).halt calls) := by
  have represents := (construct_boundary
    (AddressBus.mk [.inl cartridge, (.inr {} : MainDevice)])).starting (construct_decoded _)
  rw [stepLoop_halt represents (starting_live _ _ _),
    show (Cpu.construct _).registers.visible = _ from visible_powerUp]
  exact processOf_alike (halt_alike mapped_alike
    (starting_alike mapped_alike (mapped_start cartridge) .nop _) calls)

theorem construct_loaded {romFile : Option RomFile} {romData : Array Byte}
    (loaded : loadRomData romFile = .ok romData) :
    Cartridge.construct romFile = .ok ⟨romData, loadRomData_contents loaded⟩ := by
  unfold Cartridge.construct
  split
  · rename_i error failed
    rw [failed] at loaded
    cases loaded
  · rename_i other loadedOther
    rw [loadedOther] at loaded
    cases loaded
    rfl

theorem construct_failed {romFile : Option RomFile} {error : RomException}
    (failed : loadRomData romFile = .error error) : Cartridge.construct romFile = .error error := by
  unfold Cartridge.construct
  split
  · rename_i other failedOther
    rw [failedOther] at failed
    cases failed
    rfl
  · rename_i romData loaded
    rw [loaded] at failed
    cases failed

section
variable {program romFilePath : String} {files : String → Option RomFile}

theorem main_failed {error : RomException} (failed : loadRomData (files romFilePath) = .error error)
    (calls : Nat) : main [program, romFilePath] files calls = .terminated error := by
  simp only [main, construct_failed failed]

theorem main_loaded {romData : Array Byte} (loaded : loadRomData (files romFilePath) = .ok romData)
    (calls : Nat) :
    main [program, romFilePath] files calls = processOf ((mainMachine romData).halt calls) := by
  simp only [main, construct_loaded loaded]
  exact stepLoop_main ⟨romData, loadRomData_contents loaded⟩ calls

end

/-- The process, for every file and any number of calls. -/
theorem main_runs_sm83 (program romFilePath : String) (files : String → Option RomFile)
    (calls : Nat) :
    main [program, romFilePath] files calls =
      match loadRomData (files romFilePath) with
      | .error error => .terminated error
      | .ok romData => processOf ((mainMachine romData).halt calls) := by
  cases loaded : loadRomData (files romFilePath) with
  | error error => exact main_failed loaded calls
  | ok romData => exact main_loaded loaded calls

theorem processOf_exited {halts : Option (Halt μ)} {status : Int} {output : String}
    (exited : processOf halts = .exited status output) :
    ∃ halt, halts = some halt ∧ status = -1 ∧ output = halt.output := by
  cases halts with
  | none => cases exited
  | some halt =>
    cases exited
    exact ⟨halt, rfl, rfl, rfl⟩

/-- An exit after the ROM was loaded is a report of where the machine of the image halts: at
an opcode before PC that has no instruction, with nothing changed outside work memory. More
calls change nothing. -/
theorem main_exit (program romFilePath : String) (files : String → Option RomFile) (calls : Nat)
    (status : Int) (output : String)
    (exited : main [program, romFilePath] files calls = .exited status output) :
    status = -1 ∧ ∃ romData, ∃ halt : Halt (MemoryMap Ram.Owns),
      loadRomData (files romFilePath) = .ok romData ∧
      (mainMachine romData).halt calls = some halt ∧ output = halt.output ∧ halt.Fetched ∧
      (∀ address, ¬Ram.Owns address →
        halt.memory.byteAt address = (mainMemory romData).byteAt address) ∧
      ∀ more, main [program, romFilePath] files (calls + more) = .exited status output := by
  cases loaded : loadRomData (files romFilePath) with
  | error error =>
    rw [main_failed loaded calls] at exited
    cases exited
  | ok romData =>
    rw [main_loaded loaded calls] at exited
    obtain ⟨halt, halts, rfl, rfl⟩ := processOf_exited exited
    refine ⟨rfl, romData, halt, rfl, halts, rfl, ?_, ?_, fun more => ?_⟩
    · exact (starting_live .nop .powerUp (mainMemory romData)).halt_fetched calls halts
    · refine halt_memory (fun memory => ∀ address, ¬Ram.Owns address →
        memory.byteAt address = (mainMemory romData).byteAt address) ?_ (fun _ _ => rfl) halts
      intro memory address data kept other outside
      exact (MemoryMap.byteAt_unwritable memory data outside).trans (kept other outside)
    · rw [main_loaded loaded, halt_mono calls halts more]
      rfl

/-- The first call ends the instruction of opcode 0 and fetches from 0x0100. -/
theorem construct_step (bus : AddressBus δ) [AddressBusAddressable δ] :
    (Cpu.construct bus).step.transactions = [.read 0x0100 (bus.readFromAddress 0x0100)] := by
  have completes := (Cpu.construct bus).step_completes rfl rfl
  rw [completes, Cpu.fetch_decoded]
  rfl

/-- An image that is illegal from its first opcode on. -/
def illegalRom (size : Nat) (index : Fin size) : Byte := if index.val = 0x0100 then 0xD3 else 0

theorem mainMachine_illegal {romData : Array Byte} (first : romData.getD 0x0100 0 = 0xD3) :
    ∃ halt, (mainMachine romData).halt 1 = some halt := by
  have opcode : Store.load (mainMemory romData) 0x0100 = 0xD3 := first
  have fetched : (mainMachine romData).step =
      (some (Machine.fetch .powerUp (mainMemory romData) []).1,
        some (Machine.fetch .powerUp (mainMemory romData) []).2) := rfl
  have faulty : (Machine.fetch .powerUp (mainMemory romData) []).1.fault = some (.illegal 0xD3) := by
    change (decode (Store.load (mainMemory romData) 0x0100)).fault
      (Store.load (mainMemory romData) 0x0100) = _
    rw [opcode]
    rfl
  exact ⟨_, halt_stops 0 fetched faulty⟩

def illegalFiles (size : Nat) (_path : String) : Option RomFile :=
  some { contents := Array.ofFn (illegalRom size) }

theorem illegalRom_loaded (size : Nat) (smallest : size = 0x8000) (path : String) :
    loadRomData (illegalFiles size path) = .ok (Array.ofFn (illegalRom size)) :=
  Cartridge.loadRomData_smallest (Array.size_ofFn.trans smallest) fun _ => Array.getElem_ofFn _

theorem illegalRom_first (size : Nat) (smallest : size = 0x8000) :
    (Array.ofFn (illegalRom size)).getD 0x0100 0 = 0xD3 := by
  have inside : 0x0100 < size := by omega
  rw [Array.getD_eq_getD_getElem?, Array.getElem?_ofFn, dif_pos inside]
  rfl

theorem illegalRom_exits (size : Nat) (smallest : size = 0x8000) :
    ∃ output, main ["emulator", "rom.gb"] (illegalFiles size) 1 = .exited (-1) output := by
  obtain ⟨halt, halts⟩ := mainMachine_illegal (illegalRom_first size smallest)
  refine ⟨halt.output, ?_⟩
  rw [main_loaded (illegalRom_loaded size smallest "rom.gb"), halts]
  rfl

theorem main_exit_illegalRom :
    ∃ output, ∃ halt : Halt (MemoryMap Ram.Owns),
      main ["emulator", "rom.gb"] (illegalFiles 0x8000) 1 = .exited (-1) output ∧
        (mainMachine (Array.ofFn (illegalRom 0x8000))).halt 1 = some halt ∧
        output = halt.output ∧ halt.Fetched := by
  obtain ⟨output, exited⟩ := illegalRom_exits 0x8000 rfl
  obtain ⟨-, romData, halt, loaded, halts, printed, fetched, -⟩ := main_exit _ _ _ _ _ _ exited
  obtain rfl := Except.ok.inj ((illegalRom_loaded 0x8000 rfl "rom.gb").symm.trans loaded)
  exact ⟨output, halt, exited, halts, printed, fetched⟩

end GbEmulator
