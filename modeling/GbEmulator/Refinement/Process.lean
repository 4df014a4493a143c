import GbEmulator.Emulator.Main
import GbEmulator.InstructionSet.Halting
import GbEmulator.InstructionSet.MemoryMap
import GbEmulator.Refinement.Agreement
import GbEmulator.Refinement.Boundary

/-! The process as a whole. Its loop makes the cycles of an SM83 until a fault, and
the bus it builds is a memory map of ROM, work memory and nothing else. -/
namespace GbEmulator
open CpuRegisters Sm83

/-- The register dump in terms of the programmer's state. -/
def Sm83.State.report (state : State) : String :=
  "A: " ++ formatByte state.a ++ "\nF: " ++ formatByte state.f ++
    "\nB: " ++ formatByte state.b ++ "\nC: " ++ formatByte state.c ++
    "\nD: " ++ formatByte state.d ++ "\nE: " ++ formatByte state.e ++
    "\nH: " ++ formatByte state.h ++ "\nL: " ++ formatByte state.l ++
    "\nSP: " ++ formatWord state.sp ++ "\nPC: " ++ formatWord state.pc

def Sm83.Fault.text : Fault → String
  | .unimplemented opcode => "Unimplemented opcode: " ++ formatByte opcode
  | .illegal opcode => "Illegal opcode: " ++ formatByte opcode

/-- Everything the process prints about a halt. -/
def Sm83.Halt.output (halt : Halt μ) : String :=
  "Exception caught: " ++ halt.fault.text ++ "\n" ++
    "Register state: \n" ++ halt.state.report ++ "\n"

/-- The process that runs an SM83 up to its halt. -/
def processOf : Option (Halt μ) → ProcessOutcome
  | none => .running
  | some halt => .exited (-1) halt.output

theorem caught_fault (fault : Fault) (registers : CpuRegisters) (memory : μ) :
    caught fault.error registers = processOf (some ⟨fault, registers.visible, memory⟩) := by
  cases fault <;> rfl

theorem observation_threw {report : StepReport δ}
    (seen : report.observation = some ⟨transactions, fetched, state, memory, some error⟩) :
    ∃ next, report.outcome = .threw error next ∧ next.registers.visible = state := by
  obtain ⟨_, _, outcome⟩ := report
  cases outcome <;> simp [StepReport.observation] at seen ⊢
  exact ⟨seen.2.2.2.2, seen.2.2.1⟩

section
variable {δ : Type u} [AddressBusAddressable δ]

/-- The loop of `main` over a processor that represents a live machine. -/
theorem stepLoop_halt {cpu : Cpu δ} {machine : Machine (AddressBus δ)}
    (represents : cpu.Represents machine) (live : machine.Live) (calls : Nat) :
    stepLoop calls cpu = processOf (machine.halt calls) := by
  induction calls generalizing cpu machine with
  | zero => rfl
  | succ calls ih =>
    obtain ⟨seen, kept⟩ := step_represents represents
    obtain ⟨⟨transactions, fetched, state, memory, fault⟩, next, stepped, continues⟩ :=
      live.step_cases
    rw [stepped] at seen kept
    rcases continues with ⟨rfl, liveNext⟩ | ⟨fault, rfl, -⟩
    · obtain ⟨-, -, reached, outcome, -, -⟩ := observation_returned seen
      rw [outcome] at kept
      obtain ⟨kept⟩ := kept
      rw [halt_continues calls stepped rfl, ← ih kept liveNext]
      simp only [stepLoop, outcome]
    · obtain ⟨reached, outcome, rfl⟩ := observation_threw seen
      rw [halt_stops calls stepped rfl, ← caught_fault]
      simp only [stepLoop, outcome]

end

theorem processOf_alike {related : μ → ν → Prop} {left : Option (Halt μ)} {right : Option (Halt ν)}
    (same : Option.Rel (Halt.Alike related) left right) : processOf left = processOf right := by
  cases same with
  | none => rfl
  | @some halt image same =>
    obtain ⟨fault, state, memory⟩ := halt
    obtain ⟨_, _, memoryImage⟩ := image
    obtain ⟨rfl, rfl, -⟩ := same
    rfl

end GbEmulator
