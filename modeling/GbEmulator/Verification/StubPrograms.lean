import GbEmulator.Emulator.ProgramStub
import GbEmulator.InstructionSet.BlockCopy
import GbEmulator.Refinement.Completion
import GbEmulator.Verification.WorkMemory

/-! Programs on the bus of the instruction tests, with work memory in the place of their
mock. A program that lies below work memory stays as it is, whatever is written. -/
namespace GbEmulator
open CpuRegisters Sm83
open AddressBusAddressable (SilentOutside)

abbrev StubDevice := ProgramStub ⊕ Ram

/-- A program that ends below work memory. -/
def ProgramStub.Low (stub : ProgramStub) : Prop :=
  stub.offset.toNat + stub.program.length ≤ Ram.startAddress

instance (stub : ProgramStub) : Decidable stub.Low := inferInstanceAs (Decidable (_ ≤ _))

section Bus
variable {stub : ProgramStub} (low : stub.Low)

/-- Work memory and the program, in the order of the instruction tests. -/
def OnStub (stub : ProgramStub) (bus : AddressBus StubDevice) : Prop :=
  ∃ ram, bus.devices = [.inr ram, .inl stub]

theorem stub_read (ram : Ram) (stub : ProgramStub) (address : Word) :
    (AddressBus.mk [.inr ram, (.inl stub : StubDevice)]).readFromAddress address =
      ram.readFromAddress address ||| stub.readFromAddress address := by
  change 0 ||| ram.readFromAddress address ||| stub.readFromAddress address = _
  rw [show (0 : Byte) ||| ram.readFromAddress address = _ from BitVec.zero_or]

include low

theorem ProgramStub.Low.read_owned {address : Word} (owned : Ram.Owns address) :
    stub.readFromAddress address = 0 := by
  simp only [ProgramStub.Low, Ram.startAddress] at low
  apply ProgramStub.read_outside
  · omega
  · simp only [ProgramStub.Owns, Ram.Owns, Ram.startAddress] at *
    omega

theorem OnStub.withRam {bus : AddressBus StubDevice} (onStub : OnStub stub bus) : WithRam bus := by
  obtain ⟨ram, devices⟩ := onStub
  refine ⟨[], ram, [.inl stub], devices, ?_⟩
  intro device member
  obtain rfl := List.mem_singleton.mp member
  have kept (history : History) :
      AddressBusAddressable.writeAll (.inl stub : StubDevice) history = .inl stub := by
    induction history with
    | nil => rfl
    | cons write history ih => exact ih
  intro history address owned
  rw [kept]
  exact low.read_owned (not_not.mp owned)

theorem onStub_remembers : Remembers (OnStub stub) Ram.Owns where
  store := by
    rintro ⟨devices⟩ ⟨ram, rfl⟩ address data
    exact ⟨ram.writeToAddress address data, rfl⟩
  load := by
    rintro ⟨devices⟩ ⟨ram, rfl⟩ address owned data other
    have stored : (AddressBus.mk [.inr ram, (.inl stub : StubDevice)]).writeToAddress address data =
        ⟨[.inr (ram.writeToAddress address data), .inl stub]⟩ := rfl
    change (AddressBus.writeToAddress _ address data).readFromAddress other = _
    rw [stored, stub_read, ram.read_write data owned]
    by_cases same : other = address
    · rw [if_pos same, if_pos same, same, low.read_owned owned]
      exact BitVec.or_zero
    · rw [if_neg same, if_neg same]
      exact (stub_read ram stub other).symm

theorem OnStub.code {bus : AddressBus StubDevice} (onStub : OnStub stub bus) :
    Code bus (BitVec.ofNat 16 stub.offset.toNat) stub.program := by
  obtain ⟨devices⟩ := bus
  obtain ⟨ram, rfl⟩ := onStub
  intro offset inside
  simp only [ProgramStub.Low, Ram.startAddress] at low
  have position : (BitVec.ofNat 16 stub.offset.toNat + BitVec.ofNat 16 offset).toNat =
      stub.offset.toNat + offset := by
    rw [← BitVec.ofNat_add, BitVec.toNat_ofNat]
    omega
  have outside : ¬Ram.Owns (BitVec.ofNat 16 stub.offset.toNat + BitVec.ofNat 16 offset) := by
    simp only [Ram.Owns, Ram.startAddress, position]
    omega
  refine (stub_read ram stub _).trans ?_
  rw [Ram.read_outside ram outside, ProgramStub.read_inside (by omega) (by omega)]
  simp only [position, Nat.add_sub_cancel_left]
  exact BitVec.zero_or

end Bus

/-- The bus of `InstructionTestBase`, after `WriteProgram`. -/
def stubBus (program : List Byte) : AddressBus StubDevice :=
  ⟨[.inr {}, .inl (ProgramStub.writeProgram ⟨0x0100, []⟩ program)]⟩

section
variable (program : List Byte)

theorem stubBus_onStub : OnStub ⟨0x0100, program⟩ (stubBus program) := ⟨{}, rfl⟩

/-- About to execute the first instruction of a program. -/
def stubCpu (instruction : Instruction) (registers : CpuRegisters) : Cpu StubDevice :=
  .about (stubBus program) { registers with
    backingInstructionRegister := program.headD 0
    backingProgramCounterRegister := 0x0101 } instruction

variable {program} {instruction : Instruction} (registers : CpuRegisters)

theorem stubCpu_boundary (decoded : decode (program.headD 0) = .implemented instruction) :
    (stubCpu program instruction registers).AtBoundary :=
  about_boundary _ decoded

theorem stubCpu_located (low : ProgramStub.Low ⟨0x0100, program⟩) (nonempty : program ≠ []) :
    let cpu := stubCpu program instruction registers
    Configuration.At 0x0100 ⟨cpu.registers.visible, cpu.bus⟩ where
  opcode := by
    cases program with
    | nil => exact absurd rfl nonempty
    | cons byte rest => exact (Code.head ((stubBus_onStub (byte :: rest)).code low)).symm
  pc := rfl

end

/-! Whether the calls of a run return can be computed. -/
section
variable {δ : Type u}

def StepOutcome.returns : StepOutcome δ → Bool
  | .returned _ => true
  | _ => false

theorem StepOutcome.returns_iff {outcome : StepOutcome δ} :
    outcome.returns = true ↔ ∃ next, outcome = .returned next := by
  cases outcome with
  | returned cpu => exact ⟨fun _ => ⟨cpu, rfl⟩, fun _ => rfl⟩
  | threw error cpu => exact ⟨nofun, nofun⟩
  | undefinedBehaviour => exact ⟨nofun, nofun⟩

theorem reports_returned {reports : List (StepReport δ)}
    (returns : (reports.all fun report => report.outcome.returns) = true) :
    ∀ report ∈ reports, ∃ next, report.outcome = .returned next := by
  intro report member
  exact StepOutcome.returns_iff.mp (List.all_eq_true.mp returns report member)

end
end GbEmulator
