import GbEmulator.Refinement.Steps

/-! Reachable processors. `Reachable` has seen no throw, `ReachablePastThrows` may
have caught some; both allow the registers and the memory to be written from
outside between two calls. What matters is only where the handler stands. -/
namespace GbEmulator
open CpuRegisters Sm83 Coroutine

variable {δ : Type u}

section
variable [AddressBusAddressable δ]

inductive Cpu.Reachable : Cpu δ → Prop where
  | construct (bus : AddressBus δ) : Reachable (.construct bus)
  | step (reachable : Reachable cpu) (returned : cpu.step.outcome = .returned next) :
      Reachable next
  | outside (reachable : Reachable cpu) (registers : CpuRegisters) (bus : AddressBus δ) :
      Reachable { cpu with registers := registers, bus := bus }

inductive Cpu.ReachablePastThrows : Cpu δ → Prop where
  | construct (bus : AddressBus δ) : ReachablePastThrows (.construct bus)
  | call (reachable : ReachablePastThrows cpu) (continued : cpu.step.outcome.cpu = some next) :
      ReachablePastThrows next
  | outside (reachable : ReachablePastThrows cpu) (registers : CpuRegisters)
      (bus : AddressBus δ) : ReachablePastThrows { cpu with registers := registers, bus := bus }

end

/-- The handler is suspended in a body that keeps the bus discipline. -/
def Cpu.Running (cpu : Cpu δ) : Prop :=
  ∃ rest, cpu.handler = ⟨.suspended rest, none⟩ ∧ Disciplined rest

/-- The handler has run to its end and nothing has replaced it. -/
def Cpu.Finished (cpu : Cpu δ) : Prop := cpu.handler = ⟨.done, none⟩

theorem construct_running (bus : AddressBus δ) : (Cpu.construct bus).Running :=
  ⟨executeNoop, rfl, handler_disciplined .nop⟩

variable [AddressBusAddressable δ]

/-- What the next call resumes. -/
def Cpu.resumption (cpu : Cpu δ) :
    Option (Resumption CpuRegisters (AddressBus δ) Word Byte RuntimeError Unit) :=
  match cpu.handler.handle with
  | .suspended rest => some (rest.resume cpu.registers cpu.bus)
  | .done => none

theorem resumption_suspended {cpu : Cpu δ} (running : cpu.handler = ⟨.suspended rest, none⟩) :
    cpu.resumption = some (rest.resume cpu.registers cpu.bus) := by
  simp only [Cpu.resumption, running]

/-- The first call resumes the constructor's handler. -/
theorem construct_resumption (bus : AddressBus δ) : (Cpu.construct bus).resumption =
    some ⟨⟨Cpu.powerUp {}, bus, []⟩, .returned ()⟩ := rfl

/-- A fetch either starts a disciplined handler or throws and leaves the old one. -/
theorem fetch_cases (cpu : Cpu δ) (transactions : List (Transaction Word Byte)) :
    let opcode := cpu.bus.readFromAddress cpu.registers.visible.pc
    let report := cpu.fetch transactions
    report.transactions = transactions ++ [.read cpu.registers.visible.pc opcode] ∧
      report.fetched = some opcode ∧
      ((∃ instruction, decode opcode = .implemented instruction ∧
          report.outcome = .returned ⟨cpu.bus, fetchedRegisters opcode cpu.registers,
            ⟨.suspended instruction.handler, none⟩⟩) ∨
        ∃ fault, (decode opcode).fault opcode = some fault ∧
          report.outcome = .threw fault.error
            { cpu with registers := fetchedRegisters opcode cpu.registers }) := by
  have fetched := cpu.fetch_decoded transactions
  dsimp only at fetched ⊢
  rw [fetched]
  refine ⟨rfl, rfl, ?_⟩
  cases decode (cpu.bus.readFromAddress cpu.registers.visible.pc) with
  | implemented instruction => exact .inl ⟨instruction, rfl, rfl⟩
  | unimplemented => exact .inr ⟨_, rfl, rfl⟩
  | illegal => exact .inr ⟨_, rfl, rfl⟩

/-- What a call on a running processor can do. -/
theorem Cpu.Running.step_cases {cpu : Cpu δ} (running : cpu.Running) :
    ∃ resumed, cpu.resumption = some resumed ∧
      ((∃ next, resumed.next = .suspended next ∧ Disciplined next ∧
          resumed.transactions.length ≤ 1 ∧
          cpu.step = ⟨resumed.transactions, none,
            .returned ⟨resumed.memory, resumed.state, ⟨.suspended next, none⟩⟩⟩) ∨
        (resumed.next = .returned () ∧ resumed.transactions = [] ∧
          cpu.step = (cpu.completed resumed.toSegment).fetch [])) := by
  obtain ⟨rest, handler, disciplined⟩ := running
  refine ⟨_, resumption_suspended handler, ?_⟩
  rcases disciplined.resumed cpu.registers cpu.bus with
    ⟨next, suspends, kept, single⟩ | ⟨returns, silent⟩
  · exact .inl ⟨next, suspends, kept, single, cpu.step_suspends handler suspends⟩
  · have completes := cpu.step_completes handler returns
    dsimp only at completes
    rw [silent] at completes
    exact .inr ⟨returns, silent, completes⟩

theorem Cpu.Running.returned {cpu next : Cpu δ} (running : cpu.Running)
    (returned : cpu.step.outcome = .returned next) : next.Running := by
  obtain ⟨resumed, -, ⟨rest, -, disciplined, -, stepped⟩ | ⟨-, -, stepped⟩⟩ := running.step_cases
  · rw [stepped] at returned
    cases returned
    exact ⟨rest, rfl, disciplined⟩
  · rw [stepped] at returned
    obtain ⟨-, -, ⟨instruction, -, starts⟩ | ⟨fault, -, throws⟩⟩ :=
      fetch_cases (cpu.completed resumed.toSegment) []
    · rw [starts] at returned
      cases returned
      exact ⟨instruction.handler, rfl, handler_disciplined instruction⟩
    · rw [throws] at returned
      cases returned

theorem Cpu.Running.threw {cpu next : Cpu δ} (running : cpu.Running)
    (threw : cpu.step.outcome = .threw error next) : next.Finished := by
  obtain ⟨resumed, -, ⟨rest, -, disciplined, -, stepped⟩ | ⟨-, -, stepped⟩⟩ := running.step_cases
  · rw [stepped] at threw
    cases threw
  · rw [stepped] at threw
    obtain ⟨-, -, ⟨instruction, -, starts⟩ | ⟨fault, -, throws⟩⟩ :=
      fetch_cases (cpu.completed resumed.toSegment) []
    · rw [starts] at threw
      cases threw
    · rw [throws] at threw
      cases threw
      rfl

theorem Cpu.Reachable.running {cpu : Cpu δ} (reachable : cpu.Reachable) : cpu.Running := by
  induction reachable with
  | construct bus => exact construct_running bus
  | step _ returned running => exact running.returned returned
  | outside _ _ _ running => exact running

theorem Cpu.ReachablePastThrows.position {cpu : Cpu δ} (reachable : cpu.ReachablePastThrows) :
    cpu.Running ∨ cpu.Finished := by
  induction reachable with
  | construct bus => exact .inl (construct_running bus)
  | @call cpu next _ continued position =>
    rcases position with running | finished
    · cases outcome : cpu.step.outcome with
      | returned after =>
        rw [outcome] at continued
        cases continued
        exact .inl (running.returned outcome)
      | threw error after =>
        rw [outcome] at continued
        cases continued
        exact .inr (running.threw outcome)
      | undefinedBehaviour => rw [outcome] at continued; cases continued
    · rw [Cpu.step_finished finished] at continued
      cases continued
  | outside _ _ _ position => exact position

end GbEmulator
