import GbEmulator.InstructionSet.CallFlow
import GbEmulator.Verification.Execution
import GbEmulator.Verification.Subroutines
import Mathlib.Data.List.GetD

/-! Code that the process does not leave. Where the bytes of a ROM name only opcodes that
have an instruction, the process can end after a computed transfer only. -/
namespace GbEmulator
open Sm83

/-- Code outside work memory, where no store changes a byte. -/
def mainProgram (romData : Array Byte) (code : Word → Prop) : Program :=
  ⟨(mainMemory romData).byteAt, fun address => ¬Ram.Owns address, code⟩

section
variable {romData : Array Byte} {code : Word → Prop}

theorem mainProgram_store {memory : MemoryMap Ram.Owns}
    (shown : (mainProgram romData code).Shown memory) (address : Word) (data : Byte) :
    (mainProgram romData code).Shown (Store.store memory address data) := by
  intro other fixed
  exact (MemoryMap.byteAt_unwritable memory data fixed).trans (shown other fixed)

/-- The first opcode that is fetched is the one at 0x0100. -/
theorem mainConfiguration_enters (entry : code 0x0100) :
    (Instruction.nop.execute (mainConfiguration romData)).InCode (mainProgram romData code) :=
  ⟨fun _ _ => rfl, 0x0100, entry, ⟨rfl, rfl⟩⟩

end

/-- A process that has stopped has come from the first fetch to an opcode without an
instruction. -/
theorem main_stopped (program romFilePath : String) (files : String → Option RomFile)
    {romData : Array Byte} (loaded : loadRomData (files romFilePath) = .ok romData) {calls : Nat}
    (stopped : ¬main [program, romFilePath] files calls = .running) :
    ∃ time halt, (Instruction.nop.execute (mainConfiguration romData)).HaltsAt time halt ∧
      1 + time ≤ calls := by
  rw [main_running_iff program romFilePath files loaded] at stopped
  obtain ⟨cycles, halt, halts, bound⟩ : ∃ cycles halt,
      (mainConfiguration romData).HaltsAt cycles halt ∧ cycles ≤ calls := by
    simpa only [not_forall, Nat.not_lt, exists_prop] using stopped
  obtain ⟨time, rfl, rest⟩ := halts.next (mainConfiguration_decoded romData)
  exact ⟨time, halt, rest, bound⟩

/-- The process goes on as long as an invariant holds that excludes opcodes without an
instruction. -/
theorem main_until (program romFilePath : String) (files : String → Option RomFile)
    {romData : Array Byte} (loaded : loadRomData (files romFilePath) = .ok romData)
    {holds broken : Configuration (MemoryMap Ram.Owns) → Prop}
    (ready : ∀ {configuration}, holds configuration →
      ∃ instruction, configuration.decoded = .implemented instruction)
    (kept : ∀ {configuration instruction}, holds configuration →
      configuration.decoded = .implemented instruction →
      holds (instruction.execute configuration) ∨ broken configuration)
    (start : holds (Instruction.nop.execute (mainConfiguration romData))) (calls : Nat) :
    main [program, romFilePath] files calls = .running ∨
      ∃ cycles before, cycles < calls ∧ (mainConfiguration romData).Executes cycles before ∧
        broken before := by
  by_cases running : main [program, romFilePath] files calls = .running
  · exact .inl running
  · right
    obtain ⟨time, halt, halts, bound⟩ := main_stopped program romFilePath files loaded running
    obtain ⟨earlier, before, early, run, breaks⟩ := halts.broken ready kept start
    exact ⟨1 + earlier, before, Nat.lt_of_lt_of_le (Nat.add_lt_add_left early 1) bound,
      .step (Configuration.next_implemented (mainConfiguration_decoded romData)) run, breaks⟩

/-- A process in closed code goes on unless HL or the stack has led it out of the code;
where neither is used it never ends. -/
theorem main_stays (program romFilePath : String) (files : String → Option RomFile)
    (romData : Array Byte) (loaded : loadRomData (files romFilePath) = .ok romData)
    (code : Word → Prop) (entry : code 0x0100) (closed : (mainProgram romData code).Closed) :
    (∀ calls, main [program, romFilePath] files calls = .running ∨
      ∃ cycles before, cycles < calls ∧ (mainConfiguration romData).Executes cycles before ∧
        ∃ instruction, before.Leaves (mainProgram romData code) instruction) ∧
    ((∀ address instruction, code address →
        decode ((mainMemory romData).byteAt address) = .implemented instruction →
        instruction.computed = false) →
      ∀ calls, main [program, romFilePath] files calls = .running) := by
  have kept {configuration : Configuration (MemoryMap Ram.Owns)} {instruction : Instruction}
      (inside : configuration.InCode (mainProgram romData code))
      (decoded : configuration.decoded = .implemented instruction) :
      (instruction.execute configuration).InCode (mainProgram romData code) ∨
        ∃ instruction, configuration.Leaves (mainProgram romData code) instruction :=
    (closed.step mainProgram_store inside decoded).imp_right fun leaves => ⟨instruction, leaves⟩
  have stays := main_until program romFilePath files loaded closed.instruction_at kept
    (mainConfiguration_enters entry)
  constructor
  · exact stays
  · intro direct calls
    rcases stays calls with running | ⟨cycles, before, -, -, instruction, leaves⟩
    · exact running
    · exact absurd leaves (closed.confined direct)

theorem mainMemory_ramAt {region : StackRegion}
    (owned : ∀ address, region.Owns address → Ram.Owns address) :
    RamAt (fun _ : MemoryMap Ram.Owns => True) region.Owns where
  store _ _ _ := trivial
  load {memory} _ address inside data other _ :=
    MemoryMap.byteAt_write memory (owned address inside) data other

/-- As long as no instruction breaks the structure of calls, the stack, wherever in work memory
it lies, holds the words that have been pushed since the first fetch and not popped, those
pushed by calls lead back into the code, and the process goes on. It ends only after an
instruction that has broken the structure. -/
theorem main_structured (program romFilePath : String) (files : String → Option RomFile)
    (romData : Array Byte) (loaded : loadRomData (files romFilePath) = .ok romData)
    (code : Word → Prop) (entry : code 0x0100)
    (structured : (mainProgram romData code).Structured) (region : StackRegion)
    (owned : ∀ address, region.Owns address → Ram.Owns address) :
    let first := Instruction.nop.execute (mainConfiguration romData)
    (∀ time last entries,
      UnbrokenRun (mainProgram romData code) region first [] time last entries →
        (mainConfiguration romData).Executes (1 + time) last ∧
        last.Nested (mainProgram romData code) region (fun _ => True) entries ∧
        main [program, romFilePath] files (1 + time) = .running) ∧
    ∀ calls, main [program, romFilePath] files calls = .running ∨
      ∃ time before entries instruction, 1 + time < calls ∧
        UnbrokenRun (mainProgram romData code) region first [] time before entries ∧
        before.decoded = .implemented instruction ∧
        before.Breaks (mainProgram romData code) region entries instruction := by
  intro first
  have start : first.Nested (mainProgram romData code) region (fun _ => True) [] :=
    ⟨mainConfiguration_enters entry, ⟨trivial, .inl rfl, trivial⟩, nofun⟩
  have nested {time : Nat} {last : Configuration (MemoryMap Ram.Owns)}
      {entries : List StackEntry}
      (run : UnbrokenRun (mainProgram romData code) region first [] time last entries) :
      last.Nested (mainProgram romData code) region (fun _ => True) entries :=
    run.nested structured (mainMemory_ramAt owned) mainProgram_store start
  have ends (calls : Nat) : main [program, romFilePath] files calls = .running ∨
      ∃ time before entries instruction, 1 + time < calls ∧
        UnbrokenRun (mainProgram romData code) region first [] time before entries ∧
        before.decoded = .implemented instruction ∧
        before.Breaks (mainProgram romData code) region entries instruction := by
    refine Classical.or_iff_not_imp_left.mpr fun stopped => ?_
    obtain ⟨more, halt, halts, bound⟩ := main_stopped program romFilePath files loaded stopped
    rcases UnbrokenRun.of_executes halts.executes [] with
      ⟨entries, run⟩ | ⟨time, before, entries, instruction, early, run, decoded, breaks⟩
    · -- an unbroken run has an instruction to go on with
      obtain ⟨instruction, decoded⟩ := structured.instruction_at (nested run).inside
      exact absurd decoded halts.absent
    · exact ⟨time, before, entries, instruction,
        Nat.lt_of_lt_of_le (Nat.add_lt_add_left early 1) bound, run, decoded, breaks⟩
  refine ⟨fun time last entries run => ⟨?_, nested run, ?_⟩, ends⟩
  · exact .step (Configuration.next_implemented (mainConfiguration_decoded romData)) run.executes
  · rcases ends (1 + time) with running | ⟨earlier, before, stack, instruction, early, broken,
      decoded, breaks⟩
    · exact running
    · exact absurd breaks (broken.earlier run (Nat.lt_of_add_lt_add_left early) decoded)

section Witness

/-- Code from 0x0100 on, and zeros. -/
def codeImage (bytes : List Byte) (address : Nat) : Byte :=
  if 0x0100 ≤ address then bytes.getD (address - 0x0100) 0 else 0

def codeRom (bytes : List Byte) (size : Nat) : Array Byte :=
  Array.ofFn fun index : Fin size => codeImage bytes index.val

def codeFiles (bytes : List Byte) (size : Nat) (_path : String) : Option RomFile :=
  some { contents := codeRom bytes size }

variable {bytes : List Byte} {size : Nat} (short : bytes.length ≤ 0x48) (smallest : size = 0x8000)
include short smallest

omit smallest in
theorem codeImage_beyond {address : Nat} (beyond : 0x0148 ≤ address) :
    codeImage bytes address = 0 := by
  rw [codeImage, if_pos (by omega)]
  exact List.getD_eq_default _ _ (by omega)

theorem codeRom_loaded (path : String) :
    loadRomData (codeFiles bytes size path) = .ok (codeRom bytes size) :=
  Cartridge.loadRomData_smallest (Array.size_ofFn.trans smallest) fun _ =>
    (Array.getElem_ofFn _).trans (codeImage_beyond short (Nat.le_refl _))

theorem codeRom_image : (mainMemory (codeRom bytes size)).byteAt =
    fun address => codeImage bytes address.toNat := by
  funext address
  by_cases rom : address.toNat ≤ 0x7FFF
  · have inside : address.toNat < size := by omega
    simp only [mainMemory, codeRom, if_pos rom, Array.getD_eq_getD_getElem?, Array.getElem?_ofFn,
      dif_pos inside, Option.getD_some]
  · simp only [mainMemory, if_neg rom, codeImage_beyond short (by omega : 0x0148 ≤ address.toNat)]

theorem codeRom_configuration : mainConfiguration (codeRom bytes size) =
    ⟨.powerUp, ⟨fun address => codeImage bytes address.toNat⟩⟩ :=
  congrArg (fun image => Configuration.mk State.powerUp (MemoryMap.mk image))
    (codeRom_image short smallest)

theorem codeRom_structured {listing : List (Word × Instruction)}
    (right : ∀ line ∈ listing, Program.Lists (fun address => codeImage bytes address.toNat)
      (fun address => ¬Ram.Owns address) (listing.map Prod.fst) line.1 line.2) :
    (mainProgram (codeRom bytes size)
      fun address => address ∈ listing.map Prod.fst).Structured := by
  rw [← codeRom_image short smallest] at right
  exact listed_structured right

end Witness

/-- `NOP` and a jump back to it. -/
def spinning : List (Word × Instruction) := [(0x0100, .nop), (0x0101, .jumpRelative none)]

def spinningBytes : List Byte := [0x00, 0x18, 0xFD]

theorem spinning_right :
    ∀ line ∈ spinning, Program.Lists (fun address => codeImage spinningBytes address.toNat)
      (fun address => ¬Ram.Owns address) (spinning.map Prod.fst) line.1 line.2 := by
  decide

theorem main_stays_spinning :
    main ["emulator", "rom.gb"] (codeFiles spinningBytes 0x8000) 1000000 = .running := by
  generalize smallest : 0x8000 = size
  have short : spinningBytes.length ≤ 0x48 := by decide
  have stays := main_stays "emulator" "rom.gb" (codeFiles spinningBytes size) _
    (codeRom_loaded short smallest.symm "rom.gb") (fun address => address ∈ spinning.map Prod.fst)
    (by decide) (codeRom_structured short smallest.symm spinning_right).toClosed
  apply stays.2
  intro address instruction member decoded
  rw [codeRom_image short smallest.symm] at decoded
  have line := listed_line spinning_right member decoded
  exact (by decide : ∀ line ∈ spinning, line.2.computed = false) _ line

/-- `LD SP,0xD000` and a loop that calls a `RET`. -/
def calling : List (Word × Instruction) :=
  [(0x0100, .loadPairImmediate .sp), (0x0103, .call none), (0x0106, .jumpRelative none),
    (0x0108, .ret)]

def callingBytes : List Byte := [0x31, 0x00, 0xD0, 0xCD, 0x08, 0x01, 0x18, 0xFB, 0xC9]

theorem calling_right :
    ∀ line ∈ calling, Program.Lists (fun address => codeImage callingBytes address.toNat)
      (fun address => ¬Ram.Owns address) (calling.map Prod.fst) line.1 line.2 := by
  decide

/-- The first fetch, `LD SP,nn`, `CALL` and `RET` of the loop. -/
def callingFirst : Configuration (MemoryMap Ram.Owns) :=
  Instruction.nop.execute ⟨.powerUp, ⟨fun address => codeImage callingBytes address.toNat⟩⟩

def callingSet : Configuration (MemoryMap Ram.Owns) :=
  (Instruction.loadPairImmediate .sp).execute callingFirst

def callingCalled : Configuration (MemoryMap Ram.Owns) := (Instruction.call none).execute callingSet

def callingReturned : Configuration (MemoryMap Ram.Owns) := Instruction.ret.execute callingCalled

/-- The stack is empty, holds the address behind the call, and is empty again. -/
theorem calling_unbroken (program : Program) :
    UnbrokenRun program workStack callingFirst [] 9 callingCalled [⟨0x0106, true⟩] ∧
      UnbrokenRun program workStack callingFirst [] 13 callingReturned [] := by
  have sets : callingFirst.decoded = .implemented (.loadPairImmediate .sp) := by decide +kernel
  have calls : callingSet.decoded = .implemented (.call none) := by decide +kernel
  have returns : callingCalled.decoded = .implemented .ret := by decide +kernel
  have pushed : (Instruction.call none).tracks callingSet.state [] = [⟨0x0106, true⟩] := by
    decide +kernel
  have room : Ram.Owns (callingSet.state.sp - 1) ∧ Ram.Owns (callingSet.state.sp - 2) := by
    decide +kernel
  have unbrokenSet : ¬callingFirst.Breaks program workStack [] (.loadPairImmediate .sp) := by
    intro breaks
    cases breaks with
    | overflow pushes outside => cases pushes
    | underflow pops => cases pops
  have unbrokenCall : ¬callingSet.Breaks program workStack [] (.call none) := by
    intro breaks
    cases breaks with
    | overflow pushes outside => exact outside ⟨owns_inside.mp room.1, owns_inside.mp room.2⟩
    | underflow pops => cases pops
  have unbrokenReturn : ¬callingCalled.Breaks program workStack [⟨0x0106, true⟩] .ret := by
    intro breaks
    cases breaks with
    | overflow pushes outside => cases pushes
    | data returns pushed outside => cases pushed
    | clobbers pushes pops touched => cases pops
  have called {last : Configuration (MemoryMap Ram.Owns)} {time : Nat} {final : List StackEntry}
      (rest : UnbrokenRun program workStack callingCalled [⟨0x0106, true⟩] time last final) :
      UnbrokenRun program workStack callingFirst [] (3 + (6 + time)) last final := by
    rw [← pushed] at rest
    exact .step sets unbrokenSet (.step calls unbrokenCall rest)
  constructor
  · exact called (.refl _ _)
  · exact called (.step returns unbrokenReturn (.refl _ _))

theorem main_structured_calling :
    let romData := codeRom callingBytes 0x8000
    let program := mainProgram romData fun address => address ∈ calling.map Prod.fst
    callingCalled.Nested program workStack (fun _ => True) [⟨0x0106, true⟩] ∧
      callingReturned.Nested program workStack (fun _ => True) [] ∧
      (mainConfiguration romData).Executes 14 callingReturned ∧
      main ["emulator", "rom.gb"] (codeFiles callingBytes 0x8000) 14 = .running := by
  generalize smallest : 0x8000 = size
  have short : callingBytes.length ≤ 0x48 := by decide
  intro romData program
  obtain ⟨runs, -⟩ := main_structured "emulator" "rom.gb" (codeFiles callingBytes size) romData
    (codeRom_loaded short smallest.symm "rom.gb") (fun address => address ∈ calling.map Prod.fst)
    (by decide) (codeRom_structured short smallest.symm calling_right) workStack
    (fun address => owns_inside.mpr)
  have first : Instruction.nop.execute (mainConfiguration romData) = callingFirst := by
    rw [codeRom_configuration short smallest.symm]
    rfl
  rw [first] at runs
  obtain ⟨called, returned⟩ := calling_unbroken program
  obtain ⟨-, nested, -⟩ := runs 9 callingCalled _ called
  obtain ⟨executes, emptied, running⟩ := runs 13 callingReturned _ returned
  exact ⟨nested, emptied, executes, running⟩

end GbEmulator
