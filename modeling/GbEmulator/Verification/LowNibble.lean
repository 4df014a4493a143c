import GbEmulator.InstructionSet.Frame
import GbEmulator.Refinement.Boundary
import GbEmulator.Verification.StubPrograms

/-! The low four bits of F stay clear in every state a run shows, so the raw value
of AF and the masked one are the same. -/
namespace GbEmulator
open CpuRegisters Sm83

/-- Neither the state nor any state still to come has one of the low bits set. -/
def Sm83.Machine.LowClear (machine : Machine μ) : Prop :=
  machine.state.f &&& 0x0F = 0 ∧ ∀ cycle ∈ machine.cycles, cycle.state.f &&& 0x0F = 0

section
variable {μ : Type u} [Store μ Word Byte]

theorem starting_low {state : State} (clear : state.f &&& 0x0F = 0) (instruction : Instruction)
    (memory : μ) : (Machine.starting instruction state memory).LowClear :=
  ⟨clear, schedule_low state memory instruction clear⟩

theorem fetch_low {state : State} (clear : state.f &&& 0x0F = 0) (memory : μ)
    (transactions : List (Transaction Word Byte)) :
    (Machine.fetch state memory transactions).2.LowClear := by
  refine ⟨clear, ?_⟩
  simp only [Machine.fetch]
  cases decode (Store.load memory state.pc) with
  | implemented instruction => exact schedule_low _ memory instruction clear
  | unimplemented => exact List.forall_mem_nil _
  | illegal => exact List.forall_mem_nil _

theorem step_low {machine next : Machine μ} (clear : machine.LowClear)
    (stepped : machine.step.2 = some next) : next.LowClear := by
  obtain ⟨state, memory, cycles⟩ := machine
  obtain ⟨-, ahead⟩ := clear
  match cycles with
  | [] => cases stepped
  | [last] =>
    obtain rfl := Option.some.inj stepped
    refine fetch_low ?_ last.memory last.transactions
    rw [(State.promoted_frame _ _).2.1]
    exact ahead last List.mem_cons_self
  | cycle :: following :: rest =>
    obtain rfl := Option.some.inj stepped
    exact ⟨ahead cycle List.mem_cons_self, fun later member =>
      ahead later (List.mem_cons_of_mem cycle member)⟩

end

variable {δ : Type u} [AddressBusAddressable δ]

theorem after_low (bus : AddressBus δ) {reached : Cpu δ}
    (arrived : (Cpu.construct bus).after count = some reached) :
    reached.registers.visible.f &&& 0x0F = 0 := by
  obtain ⟨machine, start, represents⟩ : ∃ machine : Machine (AddressBus δ), machine.LowClear ∧
      (Cpu.construct bus).Represents machine := by
    obtain ⟨instruction, -, represents⟩ := (construct_boundary bus).represents
    exact ⟨_, starting_low (congrArg (fun state => state.f &&& 0x0F) visible_powerUp) instruction _,
      represents⟩
  have related := lockstep.after represents count
  rw [show Transition.after Cpu.call count (.construct bus) = some reached from arrived] at related
  cases image : Transition.after Machine.step count machine with
  | none => rw [image] at related; cases related
  | some last =>
    rw [image] at related
    obtain ⟨kept⟩ := related
    rw [kept.state]
    exact (Transition.after_invariant Machine.step (fun _ _ clear stepped => step_low clear stepped)
      start image).1

/-- A byte or word whose low four bits are clear is not changed by the mask of AF. -/
theorem masked_byte {data : Byte} (clear : data &&& 0x0F = 0) : data &&& 0xF0 = data := by
  revert data
  decide

theorem masked_word {word : Word} (clear : Word.lower word &&& 0x0F = 0) :
    word &&& 0xFFF0 = word := by
  apply Word.ext_halves
  · rw [Word.upper_and]
    exact BitVec.and_allOnes
  · rw [Word.lower_and]
    exact masked_byte clear

theorem raw_af_masked (bus : AddressBus δ) {reached : Cpu δ}
    (arrived : (Cpu.construct bus).after count = some reached) :
    let registers := reached.registers
    Word.lower registers.backingAfRegister &&& 0x0F = 0 ∧
      afRegister.value registers = afRegister.load registers ∧
      flags.value registers = flags.load registers ∧
      (executePushAF.segments registers reached.bus).flatMap Segment.transactions =
        [.write (stackPointer.value registers - 1) (Word.upper (afRegister.load registers)),
          .write (stackPointer.value registers - 2) (Word.lower (afRegister.load registers))] := by
  have clear : Word.lower reached.registers.backingAfRegister &&& 0x0F = 0 := after_low bus arrived
  have raw : afRegister.value reached.registers = afRegister.load reached.registers :=
    (masked_word clear).symm
  refine ⟨clear, raw, (masked_byte clear).symm, ?_⟩
  have pushes : (executePushAF.segments reached.registers reached.bus).map (Segment.map visible) =
      Instruction.schedule reached.registers.visible reached.bus (.push .af) :=
    handler_follows (.push .af) reached.registers reached.bus
  have stored : reached.registers.visible.getStack .af = afRegister.value reached.registers :=
    (value_stackLocation reached.registers .af).symm
  rw [← raw]
  calc (executePushAF.segments reached.registers reached.bus).flatMap Segment.transactions
    _ = ((executePushAF.segments reached.registers reached.bus).map
          (Segment.map visible)).flatMap Segment.transactions := by rw [List.flatMap_map]; rfl
    _ = _ := by rw [pushes, Instruction.schedule, stored]; rfl

/-- `LD SP,0x0104` and `POP AF`, which reads 0x12FF. -/
theorem raw_af_masked_popAf :
    ∃ reached, (Cpu.construct (stubBus [0x31, 0x04, 0x01, 0xF1, 0xFF, 0x12])).after 7 = some reached ∧
      reached.registers.backingAfRegister = 0x12F0 ∧
      flags.value reached.registers = flags.load reached.registers ∧
      (executePushAF.segments reached.registers reached.bus).flatMap Segment.transactions =
        [.write 0x0105 0x12, .write 0x0104 0xF0] := by
  obtain ⟨reached, arrived, held⟩ := Option.map_eq_some_iff.mp
    (by decide +kernel : ((Cpu.construct (stubBus [0x31, 0x04, 0x01, 0xF1, 0xFF, 0x12])).after 7).map
      (fun cpu => (afRegister.value cpu.registers, stackPointer.value cpu.registers)) =
        some (0x12F0, 0x0106))
  obtain ⟨af, sp⟩ := Prod.mk.inj held
  obtain ⟨-, raw, masked, pushed⟩ := raw_af_masked _ arrived
  rw [← raw, af, sp] at pushed
  exact ⟨reached, arrived, af, masked, pushed⟩

end GbEmulator
