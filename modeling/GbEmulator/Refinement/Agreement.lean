import GbEmulator.Coroutine.Agreement
import GbEmulator.InstructionSet.Halting
import GbEmulator.Refinement.Instructions

/-! Machines over memories that answer alike. Every schedule is the run of a handler,
so what holds of all coroutines holds of the schedules. -/
namespace GbEmulator
open CpuRegisters Sm83 Coroutine

/-- Every state of the programmer is shown by some registers. -/
theorem visible_surjective (state : State) : ∃ registers, visible registers = state := by
  refine ⟨{ backingInstructionRegister := state.opcode
            backingAfRegister := state.af
            backingBcRegister := state.bc
            backingDeRegister := state.de
            backingHlRegister := state.hl
            backingProgramCounterRegister := state.pc
            backingStackPointerRegister := state.sp
            masterInterruptState := state.interrupts }, ?_⟩
  apply State.ext
  · exact Word.upper_ofBytes state.a state.f
  · exact Word.lower_ofBytes state.a state.f
  · exact Word.upper_ofBytes state.b state.c
  · exact Word.lower_ofBytes state.b state.c
  · exact Word.upper_ofBytes state.d state.e
  · exact Word.lower_ofBytes state.d state.e
  · exact Word.upper_ofBytes state.h state.l
  · exact Word.lower_ofBytes state.h state.l
  all_goals rfl

variable {μ : Type u} {ν : Type v} [Store μ Word Byte] [Store ν Word Byte] {related : μ → ν → Prop}
  {memory : μ} {image : ν}

theorem schedule_alike (alike : Store.Alike (fun _ => True) related) (start : related memory image)
    (instruction : Instruction) (state : State) :
    List.Forall₂ (Segment.Alike related) (instruction.schedule state memory)
      (instruction.schedule state image) := by
  obtain ⟨registers, rfl⟩ := visible_surjective state
  rw [← handler_follows instruction registers memory,
    ← handler_follows instruction registers image, List.forall₂_map_left_iff,
    List.forall₂_map_right_iff]
  exact (segments_alike alike instruction.handler registers start).imp
    fun _ _ same => same.map visible

theorem decoded_alike (alike : Store.Alike (fun _ => True) related) (start : related memory image)
    (decoded : Decoded) (state : State) :
    List.Forall₂ (Segment.Alike related) (decoded.schedule state memory)
      (decoded.schedule state image) := by
  cases decoded with
  | implemented instruction => exact schedule_alike alike start instruction state
  | unimplemented => exact .nil
  | illegal => exact .nil

namespace Sm83

/-- Observations that show the same, with the memories related. -/
structure Observation.Alike (related : μ → ν → Prop) (seen : Observation μ φ)
    (image : Observation ν φ) : Prop where
  transactions : seen.transactions = image.transactions
  fetched : seen.fetched = image.fetched
  state : seen.state = image.state
  memory : related seen.memory image.memory
  fault : seen.fault = image.fault

/-- The same machine, but for the memory it runs on. -/
structure Machine.Alike (related : μ → ν → Prop) (machine : Machine μ) (image : Machine ν) : Prop where
  state : machine.state = image.state
  memory : related machine.memory image.memory
  cycles : List.Forall₂ (Segment.Alike related) machine.cycles image.cycles

theorem starting_alike (alike : Store.Alike (fun _ => True) related) (start : related memory image)
    (instruction : Instruction) (state : State) :
    (Machine.starting instruction state memory).Alike related
      (Machine.starting instruction state image) :=
  ⟨rfl, start, schedule_alike alike start instruction state⟩

theorem fetch_machine_alike (alike : Store.Alike (fun _ => True) related)
    (start : related memory image) (state : State) (transactions : List (Transaction Word Byte)) :
    (Machine.fetch state memory transactions).1.Alike related
        (Machine.fetch state image transactions).1 ∧
      (Machine.fetch state memory transactions).2.Alike related
        (Machine.fetch state image transactions).2 := by
  have opcode := alike.load start state.pc trivial
  unfold Machine.fetch
  rw [opcode]
  exact ⟨⟨rfl, rfl, rfl, start, rfl⟩, rfl, start, decoded_alike alike start _ _⟩

theorem step_machine_alike (alike : Store.Alike (fun _ => True) related) {machine : Machine μ}
    {image : Machine ν} (same : machine.Alike related image) :
    Option.Rel (Observation.Alike related) machine.step.1 image.step.1 ∧
      Option.Rel (Machine.Alike related) machine.step.2 image.step.2 := by
  obtain ⟨state, memory, cycles⟩ := machine
  obtain ⟨_, image, cyclesImage⟩ := image
  obtain ⟨rfl, answers, same⟩ := same
  dsimp only at answers same
  cases same with
  | nil => exact ⟨.none, .none⟩
  | @cons cycle cycleImage rest restImage here ahead =>
    obtain ⟨before, left, transactions⟩ := cycle
    obtain ⟨_, leftImage, _⟩ := cycleImage
    obtain ⟨rfl, kept, rfl⟩ := here
    cases ahead with
    | nil =>
      have fetched := fetch_machine_alike alike kept (before.promoted state.interrupts) transactions
      exact ⟨.some fetched.1, .some fetched.2⟩
    | cons next later =>
      exact ⟨.some ⟨rfl, rfl, rfl, kept, rfl⟩, .some ⟨rfl, kept, .cons next later⟩⟩

structure Halt.Alike (related : μ → ν → Prop) (halt : Halt μ) (image : Halt ν) : Prop where
  fault : halt.fault = image.fault
  state : halt.state = image.state
  memory : related halt.memory image.memory

theorem halt_alike (alike : Store.Alike (fun _ => True) related) {machine : Machine μ}
    {image : Machine ν} (same : machine.Alike related image) (calls : Nat) :
    Option.Rel (Halt.Alike related) (machine.halt calls) (image.halt calls) := by
  induction calls generalizing machine image with
  | zero => exact .none
  | succ calls ih =>
    obtain ⟨shown, kept⟩ := step_machine_alike alike same
    unfold Machine.halt
    generalize machine.step = left at shown kept ⊢
    generalize image.step = right at shown kept ⊢
    obtain ⟨seen, next⟩ := left
    obtain ⟨seenImage, nextImage⟩ := right
    cases shown with
    | none => exact .none
    | @some seen seenImage shown =>
      cases kept with
      | none => exact .none
      | some kept =>
        simp only [← shown.fault]
        split
        · exact .some ⟨rfl, shown.state, shown.memory⟩
        · exact ih kept

/-- What every store keeps, holds of the memory of every halt. -/
theorem halt_memory (holds : μ → Prop)
    (stable : ∀ memory address data, holds memory → holds (Store.store memory address data))
    (start : holds memory) {instruction : Instruction} {state : State} {calls : Nat} {halt : Halt μ}
    (halts : (Machine.starting instruction state memory).halt calls = some halt) :
    holds halt.memory := by
  have alike : Store.Alike (fun _ => True) fun memory image : μ => memory = image ∧ holds memory :=
    ⟨fun same address _ => congrArg (Store.load · address) same.1, fun same address data =>
      ⟨congrArg (Store.store · address data) same.1, stable _ address data same.2⟩⟩
  have kept := halt_alike alike (starting_alike alike ⟨rfl, start⟩ instruction state) calls
  rw [halts] at kept
  obtain ⟨kept⟩ := kept
  exact kept.memory.2

end Sm83
end GbEmulator
