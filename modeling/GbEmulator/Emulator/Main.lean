import GbEmulator.Emulator.Cartridge
import GbEmulator.Emulator.Cpu
import GbEmulator.Emulator.Ram

/-! `main.cpp`: the ROM file of the command line, the bus, the endless loop of steps
and the report of the exception that ends it. -/
namespace GbEmulator
open CpuRegisters

/-- `0x{:04X}`. -/
def formatWord (word : Word) : String :=
  "0x" ++ String.ofList [hexDigit (word.toNat / 0x1000), hexDigit (word.toNat / 0x100 % 16),
    hexDigit (word.toNat / 0x10 % 16), hexDigit (word.toNat % 16)]

/-- `std::formatter<EmulatorLib::CpuRegisters>`. -/
def CpuRegisters.format (obj : CpuRegisters) : String :=
  "A: " ++ formatByte (accumulator.value obj) ++ "\nF: " ++ formatByte (flags.value obj) ++
    "\nB: " ++ formatByte (bRegister.value obj) ++ "\nC: " ++ formatByte (cRegister.value obj) ++
    "\nD: " ++ formatByte (dRegister.value obj) ++ "\nE: " ++ formatByte (eRegister.value obj) ++
    "\nH: " ++ formatByte (hRegister.value obj) ++ "\nL: " ++ formatByte (lRegister.value obj) ++
    "\nSP: " ++ formatWord (stackPointer.value obj) ++
    "\nPC: " ++ formatWord (programCounter.value obj)

theorem loadRomData_contents {romFile : Option RomFile} {romData : Array Byte}
    (loaded : loadRomData romFile = .ok romData) :
    loadRomData (some { contents := romData }) = .ok romData := by
  cases romFile with
  | none => cases loaded
  | some romFile =>
    obtain ⟨contents, delivered⟩ := romFile
    cases delivered with
    | false =>
      dsimp only [loadRomData] at loaded
      split at loaded <;> cases loaded
    | true =>
      have same : romData = contents := by
        dsimp only [loadRomData] at loaded
        repeat' split at loaded
        all_goals cases loaded
        rfl
      exact same ▸ loaded

/-- The constructor; `m_romPath` is used for nothing but the texts of the errors. -/
def Cartridge.construct (romFile : Option RomFile) : Except RomException Cartridge :=
  match loaded : loadRomData romFile with
  | .error error => .error error
  | .ok romData => .ok ⟨romData, loadRomData_contents loaded⟩

/-- How the process ends, with everything it has printed. -/
inductive ProcessOutcome where
  | exited (status : Int) (output : String)
  /-- An exception left `main`. -/
  | terminated (error : RomException)
  /-- It has made all the calls it was given and goes on. -/
  | running
  | undefinedBehaviour
  deriving DecidableEq

/-- The `catch` of `main`. -/
def caught (e : RuntimeError) (registers : CpuRegisters) : ProcessOutcome :=
  .exited (-1) ("Exception caught: " ++ e.what ++ "\n" ++
    "Register state: \n" ++ registers.format ++ "\n")

/-- `while (true) cpu.Step();`, of which at most `calls` calls are made. -/
def stepLoop [AddressBusAddressable δ] : Nat → Cpu δ → ProcessOutcome
  | 0, _ => .running
  | calls + 1, cpu =>
    match cpu.step.outcome with
    | .returned cpu => stepLoop calls cpu
    | .threw e cpu => caught e cpu.registers
    | .undefinedBehaviour => .undefinedBehaviour

/-- `files` is what the paths lead to. -/
def main (argv : List String) (files : String → Option RomFile) (calls : Nat) : ProcessOutcome :=
  match argv with
  | [_, romFilePath] =>
    match Cartridge.construct (files romFilePath) with
    | .error error => .terminated error
    | .ok cartridge =>
      let addressBus : AddressBus (Cartridge ⊕ Ram) := ⟨[.inl cartridge, .inr {}]⟩
      stepLoop calls (.construct addressBus)
  | _ => .exited (-1) "Usage: emulator <rom_file>\n"

end GbEmulator
