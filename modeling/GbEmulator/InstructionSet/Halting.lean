import GbEmulator.InstructionSet.Timing

/-! Runs that stop at the first opcode without an instruction. -/
namespace GbEmulator.Sm83

/-- What a run ends with. -/
structure Halt (μ : Type u) where
  fault : Fault
  state : State
  memory : μ

/-- The halt within `calls` cycles, if there is one. -/
def Machine.halt {μ : Type u} [Store μ Word Byte] : Nat → Machine μ → Option (Halt μ)
  | 0, _ => none
  | calls + 1, machine =>
    match machine.step with
    | (some seen, some next) =>
      match seen.fault with
      | some fault => some ⟨fault, seen.state, seen.memory⟩
      | none => next.halt calls
    | _ => none

section
variable {μ : Type u} [Store μ Word Byte]

/-- The machine is about to execute some cycle. -/
def Machine.Live (machine : Machine μ) : Prop := machine.cycles ≠ []

theorem starting_live (instruction : Instruction) (state : State) (memory : μ) :
    (Machine.starting instruction state memory).Live :=
  List.ne_nil_of_length_pos (schedule_pos state memory instruction)

/-- The opcode a machine has fetched is the byte PC has just passed. -/
structure Halt.Fetched (halt : Halt μ) : Prop where
  opcode : halt.state.opcode = Store.load halt.memory (halt.state.pc - 1)
  fault : (decode halt.state.opcode).fault halt.state.opcode = some halt.fault

/-- A cycle of a live machine shows a fault, or leaves a live machine. -/
theorem Machine.Live.step_cases {machine : Machine μ} (live : machine.Live) :
    ∃ seen next, machine.step = (some seen, some next) ∧
      (seen.fault = none ∧ next.Live ∨
        ∃ fault, seen.fault = some fault ∧ (Halt.mk fault seen.state seen.memory).Fetched) := by
  obtain ⟨state, memory, cycles⟩ := machine
  match cycles with
  | [] => exact absurd rfl live
  | cycle :: next :: rest => exact ⟨_, _, rfl, .inl ⟨rfl, List.cons_ne_nil next rest⟩⟩
  | [last] =>
    refine ⟨_, _, rfl, ?_⟩
    dsimp only [Machine.fetch]
    generalize last.state.promoted state.interrupts = final
    have opcode : Store.load last.memory final.pc =
        Store.load last.memory ((final.fetched (Store.load last.memory final.pc)).pc - 1) := by
      rw [show (final.fetched (Store.load last.memory final.pc)).pc - 1 = final.pc from
        BitVec.add_sub_cancel final.pc 1]
    cases decoded : decode (Store.load last.memory final.pc) with
    | implemented instruction => exact .inl ⟨rfl, starting_live instruction _ last.memory⟩
    | unimplemented => exact .inr ⟨_, rfl, opcode, congrArg (Decoded.fault _) decoded⟩
    | illegal => exact .inr ⟨_, rfl, opcode, congrArg (Decoded.fault _) decoded⟩

variable {machine next : Machine μ} {seen : Observation μ Fault} (calls : Nat)

theorem halt_continues (stepped : machine.step = (some seen, some next))
    (faultless : seen.fault = none) : machine.halt (calls + 1) = next.halt calls := by
  simp only [Machine.halt, stepped, faultless]

theorem halt_stops (stepped : machine.step = (some seen, some next))
    (faulty : seen.fault = some fault) :
    machine.halt (calls + 1) = some ⟨fault, seen.state, seen.memory⟩ := by
  simp only [Machine.halt, stepped, faulty]

/-- A halt is final. -/
theorem halt_mono {halt : Halt μ} (halts : machine.halt calls = some halt) (more : Nat) :
    machine.halt (calls + more) = some halt := by
  induction calls generalizing machine with
  | zero => cases halts
  | succ calls ih =>
    rw [Nat.add_right_comm]
    unfold Machine.halt at halts ⊢
    split at halts
    · split at halts
      · exact halts
      · exact ih halts
    · cases halts

theorem Machine.Live.halt_fetched {halt : Halt μ} (live : machine.Live)
    (halts : machine.halt calls = some halt) : halt.Fetched := by
  induction calls generalizing machine with
  | zero => cases halts
  | succ calls ih =>
    obtain ⟨seen, next, stepped, ⟨faultless, kept⟩ | ⟨fault, faulty, fetched⟩⟩ := live.step_cases
    · rw [halt_continues calls stepped faultless] at halts
      exact ih kept halts
    · rw [halt_stops calls stepped faulty] at halts
      exact Option.some.inj halts ▸ fetched

/-- No cycle before the last one of an instruction ends a run. -/
theorem halt_before (before : List (Segment State μ Word Byte)) (last : Segment State μ Word Byte)
    (rest : List (Segment State μ Word Byte)) (state : State) (memory : μ) :
    (Machine.mk state memory (before ++ last :: rest)).halt (before.length + calls) =
      (Machine.mk (Machine.reached state memory before).1 (Machine.reached state memory before).2
        (last :: rest)).halt calls := by
  induction before generalizing state memory with
  | nil => rw [List.length_nil, Nat.zero_add]; rfl
  | cons cycle before ih =>
    rw [List.length_cons, Nat.add_right_comm, List.cons_append,
      halt_continues _ (Machine.step_before before last rest state memory cycle) rfl]
    exact ih cycle.state cycle.memory

end
end GbEmulator.Sm83
