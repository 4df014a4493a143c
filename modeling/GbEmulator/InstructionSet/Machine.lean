import GbEmulator.InstructionSet.Schedule
import GbEmulator.Transition.Runs

/-! The SM83 one machine cycle at a time. The machine holds what is left of the
current instruction's schedule; the cycle that ends the schedule fetches the next
opcode and lets a pending interrupt enable take effect. -/
namespace GbEmulator.Sm83

inductive Fault where
  | unimplemented (opcode : Byte)
  | illegal (opcode : Byte)
  deriving DecidableEq, Repr

def Decoded.fault (opcode : Byte) : Decoded → Option Fault
  | .implemented _ => none
  | .unimplemented => some (.unimplemented opcode)
  | .illegal => some (.illegal opcode)

def Decoded.schedule {μ : Type u} [Store μ Word Byte] (state : State) (memory : μ) :
    Decoded → List (Segment State μ Word Byte)
  | .implemented instruction => instruction.schedule state memory
  | .unimplemented => []
  | .illegal => []

/-- What one cycle shows; `fault` is why no instruction could be started. -/
structure Observation (μ : Type u) (φ : Type) where
  transactions : List (Transaction Word Byte)
  fetched : Option Byte
  state : State
  memory : μ
  fault : Option φ

def Observation.mapFault (f : φ → ψ) (observation : Observation μ φ) : Observation μ ψ :=
  { observation with fault := observation.fault.map f }

/-- No cycles are left after a fault. -/
structure Machine (μ : Type u) where
  state : State
  memory : μ
  cycles : List (Segment State μ Word Byte)

def State.promoted (state : State) (before : MasterInterruptState) : State :=
  if before = .pending ∧ state.interrupts = .pending then { state with interrupts := .enabled }
  else state

@[simp] theorem State.promoted_frame (state : State) (before : MasterInterruptState) :
    (state.promoted before).a = state.a ∧ (state.promoted before).f = state.f ∧
      (state.promoted before).sp = state.sp ∧ (state.promoted before).pc = state.pc := by
  unfold State.promoted
  split <;> exact ⟨rfl, rfl, rfl, rfl⟩

def State.fetched (state : State) (opcode : Byte) : State :=
  { state with opcode := opcode, pc := state.pc + 1 }

namespace Machine
variable {μ : Type u} [Store μ Word Byte]

def fetch (state : State) (memory : μ) (transactions : List (Transaction Word Byte)) :
    Observation μ Fault × Machine μ :=
  let opcode := Store.load memory state.pc
  let next := state.fetched opcode
  (⟨transactions ++ [.read state.pc opcode], some opcode, next, memory,
      (decode opcode).fault opcode⟩,
    ⟨next, memory, (decode opcode).schedule next memory⟩)

/-- A cycle that does not end its instruction. -/
def shown (cycle : Segment State μ Word Byte) : Observation μ Fault :=
  ⟨cycle.transactions, none, cycle.state, cycle.memory, none⟩

def step (machine : Machine μ) : Option (Observation μ Fault) × Option (Machine μ) :=
  match machine.cycles with
  | [] => (none, none)
  | [last] =>
      let (observation, next) :=
        fetch (last.state.promoted machine.state.interrupts) last.memory last.transactions
      (some observation, some next)
  | cycle :: next :: rest =>
      (some (shown cycle), some ⟨cycle.state, cycle.memory, next :: rest⟩)

def run (count : Nat) (machine : Machine μ) : List (Option (Observation μ Fault)) :=
  Transition.run step count machine

/-- At the start of an instruction. -/
def starting (instruction : Instruction) (state : State) (memory : μ) : Machine μ :=
  ⟨state, memory, instruction.schedule state memory⟩

section Runs
variable (before : List (Segment State μ Word Byte)) (last : Segment State μ Word Byte)
  (rest : List (Segment State μ Word Byte)) (state : State) (memory : μ)

/-- The state and memory a run of cycles ends in. -/
def reached (cycles : List (Segment State μ Word Byte)) : State × μ :=
  cycles.foldl (fun _ cycle => (cycle.state, cycle.memory)) (state, memory)

theorem step_before (cycle : Segment State μ Word Byte) :
    step ⟨state, memory, cycle :: (before ++ last :: rest)⟩ =
      (some (shown cycle), some ⟨cycle.state, cycle.memory, before ++ last :: rest⟩) := by
  cases before <;> rfl

theorem after_cycles :
    Transition.after step before.length ⟨state, memory, before ++ last :: rest⟩ =
      some ⟨(reached state memory before).1, (reached state memory before).2, last :: rest⟩ := by
  induction before generalizing state memory with
  | nil => rfl
  | cons cycle before ih =>
    rw [List.length_cons, List.cons_append, Transition.after_succ, step_before]
    exact ih cycle.state cycle.memory

theorem run_before :
    run before.length ⟨state, memory, before ++ last :: rest⟩ =
      before.map fun cycle => some (shown cycle) := by
  induction before generalizing state memory with
  | nil => rfl
  | cons cycle before ih =>
    rw [List.length_cons, List.cons_append, run,
      Transition.run_next step (congrArg Prod.snd (step_before before last rest state memory cycle)),
      step_before, List.map_cons]
    exact congrArg _ (ih cycle.state cycle.memory)

theorem run_cycles :
    run (before.length + 1) ⟨state, memory, before ++ last :: rest⟩ =
      (before.map fun cycle => some (shown cycle)) ++
        [(step ⟨(reached state memory before).1, (reached state memory before).2,
          last :: rest⟩).1] := by
  rw [run, Transition.run_append step before.length 1 (after_cycles before last rest state memory),
    ← run, run_before]
  congr 1
  cases rest <;> rfl

end Runs
end Machine
end GbEmulator.Sm83
