import GbEmulator.Refinement.Completion
import GbEmulator.Verification.Reachability
import GbEmulator.Verification.StubPrograms

/-! One bus transaction a call. The opcode fetch takes the place of the access that
the last segment of a handler never makes, and between two fetches the segments
of the fetched handler are executed one call each. -/
namespace GbEmulator
open CpuRegisters Sm83 Coroutine

variable {δ : Type u} [AddressBusAddressable δ]

/-- The calls that execute a body: one for each segment, and the fetch with the last. -/
theorem run_segments (cpu : Cpu δ) (handler : cpu.handler = ⟨.suspended rest, none⟩)
    (disciplined : Disciplined rest) :
    ∃ before last, cpu.run (rest.segments cpu.registers cpu.bus).length = before ++ [last] ∧
      before.map StepReport.ran =
        (rest.segments cpu.registers cpu.bus).dropLast.map Segment.ran ∧
      last.fetched.isSome := by
  obtain ⟨earlier, last, before, parts, run, ran, -⟩ := run_body handler disciplined
  rw [parts, List.length_append, List.length_singleton, List.dropLast_concat]
  refine ⟨before, _, run, ran, ?_⟩
  rw [(fetch_cases _ _).2.1]
  rfl

/-- A call that completes its handler reads the next opcode at PC and nothing else. -/
theorem bus_discipline {cpu : Cpu δ} (reachable : cpu.Reachable) :
    ∃ resumed, cpu.resumption = some resumed ∧
      cpu.step.transactions.length ≤ 1 ∧
      (cpu.step.fetched.isSome ↔ resumed.next = .returned ()) ∧
      (resumed.next = .returned () → resumed.transactions = []) ∧
      (∀ opcode, cpu.step.fetched = some opcode →
        cpu.step.transactions = [.read resumed.state.visible.pc opcode] ∧
          opcode = resumed.memory.readFromAddress resumed.state.visible.pc) ∧
      ∀ opcode next, cpu.step.fetched = some opcode → cpu.step.outcome = .returned next →
        ∃ instruction, decode opcode = .implemented instruction ∧
          let segments := instruction.handler.segments next.registers next.bus
          ∃ before last, next.run segments.length = before ++ [last] ∧
            before.map StepReport.ran = segments.dropLast.map Segment.ran ∧
            last.fetched.isSome := by
  obtain ⟨resumed, resumption, ⟨rest, suspends, -, single, stepped⟩ | ⟨returns, silent, stepped⟩⟩ :=
    reachable.running.step_cases
  · refine ⟨resumed, resumption, ?_⟩
    rw [stepped]
    refine ⟨single, by simp [suspends], by simp [suspends], ?_, ?_⟩
    · intro opcode fetched
      cases fetched
    · intro opcode next fetched
      cases fetched
  · obtain ⟨transactions, fetched, starts⟩ := fetch_cases (cpu.completed resumed.toSegment) []
    have pc : (cpu.completed resumed.toSegment).registers.visible.pc = resumed.state.visible.pc :=
      (congrArg State.pc (visible_promote _ _)).trans (State.promoted_frame _ _).2.2.2
    refine ⟨resumed, resumption, ?_⟩
    rw [stepped]
    refine ⟨by rw [transactions]; exact Nat.le_refl 1, by simp [fetched, returns], fun _ => silent,
      ?_, ?_⟩
    · intro opcode read
      rw [pc] at transactions fetched
      rw [fetched, Option.some.injEq] at read
      subst read
      exact ⟨transactions, rfl⟩
    · intro opcode next read returned
      rcases starts with ⟨instruction, decoded, starts⟩ | ⟨fault, -, throws⟩
      · rw [starts] at returned
        cases returned
        rw [fetched, Option.some.injEq] at read
        subst read
        exact ⟨instruction, decoded, run_segments _ rfl (handler_disciplined instruction)⟩
      · rw [throws] at returned
        cases returned

/-- `LD (0xC000),A` is fetched in the first call and takes four more. -/
theorem bus_discipline_storeAbsolute :
    let cpu := Cpu.construct (stubBus [0xEA, 0x00, 0xC0])
    cpu.step.transactions = [.read 0x0100 0xEA] ∧
      ∃ next before last, cpu.step.outcome = .returned next ∧ next.run 4 = before ++ [last] ∧
        before.length = 3 ∧ last.fetched.isSome := by
  intro cpu
  have reachable : cpu.Reachable := .construct _
  have fetched : cpu.step.fetched = some 0xEA := by decide +kernel
  obtain ⟨next, returned⟩ := StepOutcome.returns_iff.mp
    (by decide +kernel : cpu.step.outcome.returns = true)
  obtain ⟨resumed, resumes, -, -, -, reads, runs⟩ := bus_discipline reachable
  obtain rfl := Option.some.inj ((construct_resumption _).symm.trans resumes)
  obtain ⟨instruction, decoded, before, last, parts, ran, ends⟩ := runs 0xEA next fetched returned
  have storeAbsolute : decode 0xEA = .implemented .storeAbsolute := by decide
  obtain rfl := Decoded.implemented.inj (storeAbsolute.symm.trans decoded)
  have count := congrArg List.length ran
  rw [List.length_map, List.length_map, List.length_dropLast] at count
  rw [segments_length] at parts count
  exact ⟨(reads 0xEA fetched).1, next, before, last, returned, parts, count, ends⟩

end GbEmulator
