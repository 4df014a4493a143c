import GbEmulator.InstructionSet.Timing

/-! Where in an instruction a machine is. Up to the last cycle a step only moves on
in the schedule; the step after that starts the next instruction. -/
namespace GbEmulator.Sm83

/-- `done` cycles of an instruction that was started in `state` and `memory`. -/
structure Position (μ : Type u) where
  instruction : Instruction
  state : State
  memory : μ
  done : Nat

namespace Position
variable {μ : Type u} [Store μ Word Byte]

def cycles (position : Position μ) : List (Segment State μ Word Byte) :=
  position.instruction.schedule position.state position.memory

/-- State and memory after the cycles that are done. -/
def current (position : Position μ) : State × μ :=
  Machine.reached position.state position.memory (position.cycles.take position.done)

def machine (position : Position μ) : Machine μ :=
  ⟨position.current.1, position.current.2, position.cycles.drop position.done⟩

def next (position : Position μ) : Position μ := { position with done := position.done + 1 }

section
variable {position : Position μ} {cycle : Segment State μ Word Byte}
  (runs : position.cycles[position.done]? = some cycle)
include runs

theorem next_current : position.next.current = (cycle.state, cycle.memory) := by
  have taken : position.cycles.take (position.done + 1) =
      position.cycles.take position.done ++ [cycle] := by
    rw [List.take_add_one, runs, Option.toList_some]
  change Machine.reached _ _ (position.cycles.take (position.done + 1)) = _
  rw [taken, Machine.reached, List.foldl_append]
  rfl

theorem machine_cycles :
    position.machine.cycles = cycle :: position.cycles.drop (position.done + 1) := by
  obtain ⟨inside, rfl⟩ := List.getElem?_eq_some_iff.mp runs
  exact List.drop_eq_getElem_cons inside

/-- A cycle before the last one. -/
theorem step_shown (more : position.done + 1 < position.cycles.length) :
    position.machine.step = (some (Machine.shown cycle), some position.next.machine) := by
  have moved : position.next.machine =
      ⟨cycle.state, cycle.memory, position.cycles.drop (position.done + 1)⟩ := by
    rw [machine, next_current runs]
    rfl
  obtain ⟨following, rest, remaining⟩ := List.exists_cons_of_ne_nil
    (List.drop_eq_nil_iff.not.mpr (Nat.not_le.mpr more))
  rw [Machine.step, machine_cycles runs, moved, remaining]

theorem step_fetches (ends : position.done + 1 = position.cycles.length) :
    position.machine.step =
      let fetched := Machine.fetch (cycle.state.promoted position.current.1.interrupts)
        cycle.memory cycle.transactions
      (some fetched.1, some fetched.2) := by
  have ahead := machine_cycles runs
  rw [List.drop_eq_nil_of_le (by omega)] at ahead
  rw [Machine.step, ahead]
  rfl

end
end Position
end GbEmulator.Sm83
