import GbEmulator.Coroutine.Agreement
import GbEmulator.Refinement.Steps
import GbEmulator.Transition.Guarded

/-! One processor on two buses. As long as the buses answer alike wherever it reads,
its calls cannot be told apart, whatever the devices behind them are. -/
namespace GbEmulator
open CpuRegisters Sm83 Coroutine

/-- A report without the devices behind the bus. -/
structure StepReport.Face where
  transactions : List (Transaction Word Byte)
  fetched : Option Byte
  /-- What the caller finds after the call; `none` once its behaviour is undefined. -/
  registers : Option CpuRegisters
  error : Option RuntimeError
  deriving DecidableEq

def StepReport.face (report : StepReport δ) : StepReport.Face :=
  ⟨report.transactions, report.fetched, report.outcome.cpu.map Cpu.registers, report.outcome.error⟩

/-- The same processor, but for the bus it is on. -/
structure Cpu.Alike (related : AddressBus δ → AddressBus ε → Prop) (cpu : Cpu δ) (image : Cpu ε) :
    Prop where
  bus : related cpu.bus image.bus
  registers : cpu.registers = image.registers
  handler : cpu.handler = image.handler

/-- The call read nowhere but inside. -/
def StepReport.ReadsWithin (inside : Word → Prop) (report : StepReport δ) : Prop :=
  ∀ access ∈ report.transactions, access.ReadsWithin inside

section
variable {δ : Type u} {ε : Type v} {related : AddressBus δ → AddressBus ε → Prop}

/-- Two reports that show the same and leave processors that are alike. -/
structure StepReport.Alike (related : AddressBus δ → AddressBus ε → Prop) (report : StepReport δ)
    (image : StepReport ε) : Prop where
  face : report.face = image.face
  next : Option.Rel (Cpu.Alike related) report.outcome.cpu image.outcome.cpu

variable [AddressBusAddressable δ] [AddressBusAddressable ε] {inside : Word → Prop}
  {cpu : Cpu δ} {image : Cpu ε}

theorem fetch_alike (alike : Store.Alike inside related) (same : cpu.Alike related image)
    (transactions : List (Transaction Word Byte))
    (within : (cpu.fetch transactions).ReadsWithin inside) :
    (cpu.fetch transactions).Alike related (image.fetch transactions) := by
  obtain ⟨bus, registers, handler⟩ := cpu
  obtain ⟨busImage, registersImage, handlerImage⟩ := image
  obtain ⟨answers, rfl, rfl⟩ := same
  dsimp only at answers
  have fetched := Cpu.fetch_decoded ⟨bus, registers, handler⟩ transactions
  have fetchedImage := Cpu.fetch_decoded ⟨busImage, registers, handler⟩ transactions
  dsimp only at fetched fetchedImage
  rw [fetched] at within ⊢
  have opcode : bus.readFromAddress registers.visible.pc =
      busImage.readFromAddress registers.visible.pc :=
    alike.load answers _ (within _ (List.mem_append_right _ List.mem_cons_self))
  rw [fetchedImage, opcode]
  generalize busImage.readFromAddress registers.visible.pc = opcode
  cases decode opcode with
  | implemented instruction => exact ⟨rfl, .some ⟨answers, rfl, rfl⟩⟩
  | unimplemented => exact ⟨rfl, .some ⟨answers, rfl, rfl⟩⟩
  | illegal => exact ⟨rfl, .some ⟨answers, rfl, rfl⟩⟩

/-- A fetch reports what the resumption before it has reported. -/
theorem fetch_appends (cpu : Cpu δ) (transactions : List (Transaction Word Byte)) :
    transactions <+: (cpu.fetch transactions).transactions := by
  rw [cpu.fetch_decoded transactions]
  exact List.prefix_append _ _

theorem step_alike (alike : Store.Alike inside related) (same : cpu.Alike related image)
    (within : cpu.step.ReadsWithin inside) : cpu.step.Alike related image.step := by
  obtain ⟨bus, registers, ⟨handle, exception⟩⟩ := cpu
  obtain ⟨busImage, registersImage, handlerImage⟩ := image
  obtain ⟨answers, rfl, rfl⟩ := same
  cases exception with
  | some error => exact ⟨rfl, .some ⟨answers, rfl, rfl⟩⟩
  | none =>
    cases handle with
    | done => exact ⟨rfl, .none⟩
    | suspended rest =>
      dsimp only at answers
      have reported : ∀ access ∈ (rest.resume registers bus).transactions,
          access.ReadsWithin inside := by
        intro access member
        apply within access
        simp only [Cpu.step]
        split
        · exact member
        · exact (fetch_appends _ _).subset member
      have resumed := resume_alike alike rest registers answers reported
      unfold Cpu.step at within ⊢
      dsimp only at within ⊢
      rw [← resumed.next, ← resumed.state, ← resumed.transactions]
      split at within
      · exact ⟨rfl, .some ⟨resumed.memory, rfl, rfl⟩⟩
      · exact fetch_alike alike ⟨resumed.memory, rfl, rfl⟩ _ within

theorem alike_lockstep (alike : Store.Alike inside related) :
    Transition.GuardedLockstep (Cpu.call (δ := δ)) StepReport.face (Cpu.call (δ := ε))
      StepReport.face (Cpu.Alike related) (StepReport.ReadsWithin inside) where
  shown same within := (step_alike alike same within).face
  next same within := (step_alike alike same within).next

/-- Whole runs, whose reads stay where the buses answer alike. -/
theorem run_alike (alike : Store.Alike inside related) (same : cpu.Alike related image)
    (count : Nat) (within : ∀ report ∈ cpu.run count, report.ReadsWithin inside) :
    (cpu.run count).map StepReport.face = (image.run count).map StepReport.face ∧
      Option.Rel (Cpu.Alike related) (cpu.after count) (image.after count) :=
  (alike_lockstep alike).run_after same count within

end
end GbEmulator
