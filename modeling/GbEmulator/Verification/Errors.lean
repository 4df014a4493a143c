import GbEmulator.Verification.Reachability
import GbEmulator.Verification.StubPrograms

/-! The error path. Exactly the opcodes without a handler make a call throw, after
the finished instruction has been promoted and the opcode fetched. The factory
throws, not a coroutine, so no promise stores the error and the next call resumes
the finished handler. -/
namespace GbEmulator
open CpuRegisters Sm83 Coroutine

def illegalOpcodes : List Byte :=
  [0xD3, 0xDB, 0xDD, 0xE3, 0xE4, 0xEB, 0xEC, 0xED, 0xF4, 0xFC, 0xFD]

def unimplementedOpcodes : List Byte :=
  [0x09, 0x10, 0x19, 0x27, 0x29, 0x34, 0x35, 0x37, 0x39, 0x76, 0xCB, 0xE8]

theorem decode_illegal (opcode : Byte) : decode opcode = .illegal ↔ opcode ∈ illegalOpcodes := by
  revert opcode; decide

theorem decode_unimplemented (opcode : Byte) :
    decode opcode = .unimplemented ↔ opcode ∈ unimplementedOpcodes := by
  revert opcode; decide

/-- The texts of the two errors. -/
def opcodeError (opcode : Byte) : RuntimeError :=
  ⟨(if opcode ∈ illegalOpcodes then "Illegal opcode: " else "Unimplemented opcode: ") ++
    formatByte opcode⟩

theorem fault_iff (opcode : Byte) :
    (∃ fault, (decode opcode).fault opcode = some fault) ↔
      opcode ∈ illegalOpcodes ∨ opcode ∈ unimplementedOpcodes := by
  rw [← decode_illegal, ← decode_unimplemented]
  cases decode opcode <;> simp [Decoded.fault]

theorem fault_error {opcode : Byte} {fault : Fault}
    (faulty : (decode opcode).fault opcode = some fault) : fault.error = opcodeError opcode := by
  have illegal := decode_illegal opcode
  unfold opcodeError
  cases decoded : decode opcode with
  | implemented instruction => rw [decoded] at faulty; cases faulty
  | unimplemented =>
    rw [decoded] at faulty illegal
    rw [if_neg (fun member => nomatch illegal.mpr member)]
    cases faulty
    rfl
  | illegal =>
    rw [decoded] at faulty illegal
    rw [if_pos (illegal.mp rfl)]
    cases faulty
    rfl

variable {δ : Type u} [AddressBusAddressable δ]

/-- The byte the next call fetches if the current handler completes in it. -/
def Cpu.nextOpcode (cpu : Cpu δ) (resumed : Segment CpuRegisters (AddressBus δ) Word Byte) : Byte :=
  (cpu.completed resumed).bus.readFromAddress (cpu.completed resumed).registers.visible.pc

theorem fetchedRegisters_backing (opcode : Byte) (registers : CpuRegisters) :
    fetchedRegisters opcode registers = { registers with
      backingInstructionRegister := opcode
      backingProgramCounterRegister := registers.backingProgramCounterRegister + 1 } := by
  rw [fetchedRegisters, Register.assign_full rfl]
  rfl

/-- A fetch throws on exactly the opcodes without a handler. -/
theorem fetch_throws_iff (cpu : Cpu δ) (transactions : List (Transaction Word Byte)) :
    (∃ error next, (cpu.fetch transactions).outcome = .threw error next) ↔
      cpu.bus.readFromAddress cpu.registers.visible.pc ∈ illegalOpcodes ∨
        cpu.bus.readFromAddress cpu.registers.visible.pc ∈ unimplementedOpcodes := by
  rw [← fault_iff]
  obtain ⟨-, -, ⟨instruction, decoded, starts⟩ | ⟨fault, faulty, throws⟩⟩ :=
    fetch_cases cpu transactions
  · rw [starts, decoded]
    constructor
    · rintro ⟨error, next, threw⟩
      cases threw
    · rintro ⟨fault, faulty⟩
      cases faulty
  · exact ⟨fun _ => ⟨fault, faulty⟩, fun _ => ⟨_, _, throws⟩⟩

/-- What a throwing fetch leaves behind. -/
theorem fetch_threw {cpu next : Cpu δ} {transactions : List (Transaction Word Byte)}
    (threw : (cpu.fetch transactions).outcome = .threw error next) :
    let opcode := cpu.bus.readFromAddress cpu.registers.visible.pc
    error = opcodeError opcode ∧
      next = { cpu with registers := fetchedRegisters opcode cpu.registers } := by
  obtain ⟨-, -, ⟨instruction, -, starts⟩ | ⟨fault, faulty, throws⟩⟩ :=
    fetch_cases cpu transactions
  · rw [starts] at threw
    cases threw
  · rw [throws] at threw
    cases threw
    exact ⟨fault_error faulty, rfl⟩

/-- PENDING before an instruction and after it becomes ENABLED. -/
theorem promote_eq (earlier : MasterInterruptState) (registers : CpuRegisters) :
    Cpu.promote (earlier == .pending) registers = { registers with
      masterInterruptState :=
        if earlier = .pending ∧ registers.masterInterruptState = .pending then .enabled
        else registers.masterInterruptState } := by
  simp only [Cpu.promote, Bool.and_eq_true, beq_iff_eq]
  split <;> rfl

/-- A call throws exactly if it completes its handler and fetches an opcode that has none. The
instruction has then been executed and promoted, and the opcode fetched. -/
theorem step_throws {cpu : Cpu δ} (reachable : cpu.Reachable) :
    ∃ resumed, cpu.resumption = some resumed ∧
      let completed := cpu.completed resumed.toSegment
      let opcode := cpu.nextOpcode resumed.toSegment
      (completed.bus = resumed.memory ∧ completed.registers = { resumed.state with
        masterInterruptState :=
          if cpu.registers.masterInterruptState = .pending ∧
              resumed.state.masterInterruptState = .pending then .enabled
          else resumed.state.masterInterruptState }) ∧
      ((∃ error next, cpu.step.outcome = .threw error next) ↔
        resumed.next = .returned () ∧
          (opcode ∈ illegalOpcodes ∨ opcode ∈ unimplementedOpcodes)) ∧
      ∀ error next, cpu.step.outcome = .threw error next →
        error = opcodeError opcode ∧ next.bus = completed.bus ∧
          next.registers = { completed.registers with
            backingInstructionRegister := opcode
            backingProgramCounterRegister :=
              completed.registers.backingProgramCounterRegister + 1 } := by
  obtain ⟨resumed, resumes, ⟨rest, suspends, -, -, stepped⟩ | ⟨returns, -, stepped⟩⟩ :=
    reachable.running.step_cases
  · refine ⟨resumed, resumes, ⟨rfl, promote_eq _ _⟩, ?_⟩
    dsimp only
    rw [stepped, suspends]
    refine ⟨⟨?_, ?_⟩, ?_⟩
    · rintro ⟨error, next, threw⟩
      cases threw
    · rintro ⟨returns, -⟩
      cases returns
    · intro error next threw
      cases threw
  · refine ⟨resumed, resumes, ⟨rfl, promote_eq _ _⟩, ?_⟩
    dsimp only
    rw [stepped, fetch_throws_iff]
    refine ⟨⟨fun faulty => ⟨returns, faulty⟩, fun faulty => faulty.2⟩, ?_⟩
    intro error next threw
    obtain ⟨named, rfl⟩ := fetch_threw threw
    exact ⟨named, rfl, fetchedRegisters_backing _ _⟩

theorem construct_nextOpcode (bus : AddressBus δ) :
    (Cpu.construct bus).nextOpcode ⟨Cpu.powerUp {}, bus, []⟩ = bus.readFromAddress 0x0100 := by
  have pc : (Cpu.promote false (Cpu.powerUp {})).visible.pc = 0x0100 := by decide
  exact congrArg bus.readFromAddress pc

/-- The smallest image, with an illegal opcode at the entry point. -/
def illegalEntryRom (address : Fin 0x8000) : Byte := if address.val = 0x0100 then 0xD3 else 0

def illegalEntry : Cartridge := .ofSmallestRom illegalEntryRom rfl

def illegalEntryBus : AddressBus MainDevice := ⟨(mainOwners illegalEntry).map Prod.fst⟩

theorem illegalEntryBus_read : illegalEntryBus.readFromAddress 0x0100 = 0xD3 :=
  calc illegalEntryBus.readFromAddress 0x0100
    _ = mainRead illegalEntry [] 0x0100 := main_read (.refl _) [] 0x0100
    _ = illegalEntry.readFromAddress 0x0100 := if_pos (by decide)
    _ = illegalEntryRom 0x0100 := Cartridge.ofSmallestRom_read _ _ (by decide)

theorem step_throws_illegalEntry : ∃ next, (Cpu.construct illegalEntryBus).step.outcome =
    .threw ⟨"Illegal opcode: 0xD3"⟩ next := by
  have entry := illegalEntryBus_read
  generalize illegalEntryBus = bus at entry ⊢
  obtain ⟨resumed, resumes, -, throws, named⟩ := step_throws (.construct bus)
  rw [construct_resumption, Option.some.injEq] at resumes
  subst resumes
  rw [construct_nextOpcode, entry] at throws named
  obtain ⟨error, next, threw⟩ := throws.mpr ⟨rfl, by decide⟩
  obtain ⟨rfl, -⟩ := named error next threw
  have text : opcodeError 0xD3 = ⟨"Illegal opcode: 0xD3"⟩ := by decide
  exact ⟨next, text ▸ threw⟩

/-- The state before a call that neither has lost its handler nor is about to fetch
an opcode that has none. -/
def Cpu.Supported (cpu : Cpu δ) : Prop :=
  ∃ resumed, cpu.resumption = some resumed ∧ (resumed.next = .returned () →
    cpu.nextOpcode resumed.toSegment ∉ illegalOpcodes ∧
      cpu.nextOpcode resumed.toSegment ∉ unimplementedOpcodes)

/-- No call resumes a finished coroutine, and after a throw every call throws the same
error and changes nothing. -/
structure Cpu.ErrorSticks (cpu : Cpu δ) (count : Nat) : Prop where
  defined : ∀ report ∈ cpu.run count, report.outcome ≠ .undefinedBehaviour
  rethrown : ∀ (early late : Nat) (report later : StepReport δ), early < late →
    (cpu.run count)[early]? = some report → (cpu.run count)[late]? = some later →
    ∀ error thrown, report.outcome = .threw error thrown →
      ∃ next, later.outcome = .threw error next ∧
        next.registers = thrown.registers ∧ next.bus = thrown.bus

theorem Cpu.Running.supported {cpu : Cpu δ} (running : cpu.Running) (supported : cpu.Supported) :
    ∃ next, cpu.step.outcome = .returned next ∧ next.Running := by
  have kept (next : Cpu δ) (returned : cpu.step.outcome = .returned next) :
      ∃ next, cpu.step.outcome = .returned next ∧ next.Running :=
    ⟨next, returned, running.returned returned⟩
  obtain ⟨resumed, resumes, ⟨rest, -, -, -, stepped⟩ | ⟨returns, -, stepped⟩⟩ := running.step_cases
  · exact kept _ (by rw [stepped])
  · obtain ⟨same, resumesSame, covered⟩ := supported
    obtain rfl := Option.some.inj (resumes.symm.trans resumesSame)
    obtain ⟨noIllegal, noUnimplemented⟩ := covered returns
    obtain ⟨-, -, ⟨instruction, -, starts⟩ | ⟨fault, faulty, -⟩⟩ :=
      fetch_cases (cpu.completed resumed.toSegment) []
    · exact kept _ (by rw [stepped, starts])
    · exact ((fault_iff _).mp ⟨fault, faulty⟩).elim (fun member => absurd member noIllegal)
        fun member => absurd member noUnimplemented

theorem Cpu.Running.unsupported {cpu : Cpu δ} (running : cpu.Running)
    (unsupported : ¬cpu.Supported) :
    ∃ error next, cpu.step.outcome = .threw error next ∧ next.Finished := by
  obtain ⟨resumed, resumes, ⟨rest, suspends, -, -, -⟩ | ⟨returns, -, stepped⟩⟩ := running.step_cases
  · refine absurd ⟨resumed, resumes, fun returns => ?_⟩ unsupported
    rw [suspends] at returns
    cases returns
  · have faulty : cpu.nextOpcode resumed.toSegment ∈ illegalOpcodes ∨
        cpu.nextOpcode resumed.toSegment ∈ unimplementedOpcodes :=
      Decidable.byContradiction fun covered =>
        unsupported ⟨resumed, resumes, fun _ => not_or.mp covered⟩
    obtain ⟨error, next, threw⟩ := (fetch_throws_iff (cpu.completed resumed.toSegment) []).mpr faulty
    rw [← stepped] at threw
    exact ⟨error, next, threw, running.threw threw⟩

theorem Cpu.report_at {cpu before : Cpu δ} (arrived : cpu.after index = some before)
    (inside : index < count) : (cpu.run count)[index]? = some before.step := by
  rw [Cpu.run, Transition.run_getElem?, if_pos inside, ← Cpu.after, arrived]
  rfl

theorem Cpu.report_arrived {cpu : Cpu δ} {report : StepReport δ}
    (reported : (cpu.run count)[index]? = some report) :
    index < count ∧ ∃ before, cpu.after index = some before ∧ report = before.step := by
  rw [Cpu.run, Transition.run_getElem?] at reported
  split at reported
  · obtain ⟨before, arrived, made⟩ := Option.map_eq_some_iff.mp reported
    exact ⟨‹_›, before, arrived, made.symm⟩
  · cases reported

/-- While every call but the last is supported, every call finds a running handler. -/
theorem Cpu.Running.after {cpu before : Cpu δ} (running : cpu.Running)
    (supported : ∀ index, index + 1 < count → ∀ before, cpu.after index = some before →
      before.Supported)
    (inside : index < count) (arrived : cpu.after index = some before) : before.Running := by
  induction index generalizing before with
  | zero => exact Option.some.inj arrived ▸ running
  | succ index ih =>
    rw [Cpu.after_succ] at arrived
    obtain ⟨last, arrivedLast, continued⟩ := Option.bind_eq_some_iff.mp arrived
    have runningLast := ih (by omega) arrivedLast
    obtain ⟨next, returned, runningNext⟩ :=
      runningLast.supported (supported index inside last arrivedLast)
    rw [returned] at continued
    obtain rfl := Option.some.inj continued
    exact runningNext

theorem Cpu.ReachablePastThrows.after {cpu before : Cpu δ} (reachable : cpu.ReachablePastThrows)
    (arrived : cpu.after index = some before) : before.ReachablePastThrows :=
  Transition.after_invariant Cpu.call (fun _ _ reached continued => reached.call continued)
    reachable arrived

/-- Where no call is undefined, none finds a finished handler. -/
theorem Cpu.ErrorSticks.running {cpu before : Cpu δ} (sticks : cpu.ErrorSticks count)
    (reachable : cpu.ReachablePastThrows) (inside : index < count)
    (arrived : cpu.after index = some before) : before.Running := by
  rcases (reachable.after arrived).position with running | finished
  · exact running
  · refine absurd ?_ (sticks.defined before.step (List.mem_of_getElem?
      (Cpu.report_at arrived inside)))
    rw [Cpu.step_finished finished]

theorem errorSticks_iff {cpu : Cpu δ} (reachable : cpu.ReachablePastThrows) (count : Nat) :
    cpu.ErrorSticks count ↔ count = 0 ∨ ¬cpu.Finished ∧
      ∀ index, index + 1 < count → ∀ before, cpu.after index = some before → before.Supported := by
  constructor
  · intro sticks
    refine (Nat.eq_zero_or_pos count).imp id fun calls => ⟨fun finished => ?_, ?_⟩
    · obtain ⟨rest, handler, -⟩ := sticks.running reachable calls rfl
      rw [finished] at handler
      cases handler
    · intro index inside before arrived
      have running := sticks.running reachable (Nat.lt_of_succ_lt inside) arrived
      refine Classical.byContradiction fun unsupported => ?_
      obtain ⟨error, next, threw, finished⟩ := running.unsupported unsupported
      have arrivedNext : cpu.after (index + 1) = some next :=
        Cpu.after_call arrived (by rw [threw]; rfl)
      obtain ⟨rest, handler, -⟩ := sticks.running reachable inside arrivedNext
      rw [finished] at handler
      cases handler
  · rintro (rfl | ⟨unfinished, supported⟩)
    · have empty : cpu.run 0 = [] := Transition.run_zero Cpu.call cpu
      constructor
      · intro report member
        rw [empty] at member
        exact absurd member List.not_mem_nil
      · intro early late report later order reported
        rw [empty] at reported
        cases reported
    · have running := reachable.position.resolve_right unfinished
      constructor
      · intro report member
        obtain ⟨index, reported⟩ := List.getElem?_of_mem member
        obtain ⟨inside, before, arrived, rfl⟩ := Cpu.report_arrived reported
        have runningBefore := running.after supported inside arrived
        by_cases covered : before.Supported
        · obtain ⟨next, returned, -⟩ := runningBefore.supported covered
          rw [returned]
          exact nofun
        · obtain ⟨error, next, threw, -⟩ := runningBefore.unsupported covered
          rw [threw]
          exact nofun
      · -- every call but the last returns, so no call comes after a throw
        intro early late report later order reported reportedLater
        obtain ⟨inside, before, arrived, rfl⟩ := Cpu.report_arrived reported
        have insideLater := (Cpu.report_arrived reportedLater).1
        obtain ⟨next, returned, -⟩ := (running.after supported inside arrived).supported
          (supported early (by omega) before arrived)
        intro error thrown threw
        rw [returned] at threw
        cases threw

/-- `NOP` and an illegal opcode behind it: the second of two calls throws. -/
theorem errorSticks_lastThrows :
    let cpu := Cpu.construct (stubBus [0x00, 0xD3])
    cpu.ErrorSticks 2 ∧ (cpu.run 2).map (fun report => report.outcome.error) =
      [none, some ⟨"Illegal opcode: 0xD3"⟩] := by
  intro cpu
  have first : (stubBus [0x00, 0xD3]).readFromAddress 0x0100 = 0x00 := by decide +kernel
  constructor
  · refine (errorSticks_iff (.construct _) 2).mpr (.inr ⟨nofun, ?_⟩)
    intro index inside before arrived
    obtain rfl : index = 0 := by omega
    obtain rfl := Option.some.inj arrived
    refine ⟨_, construct_resumption _, fun _ => ?_⟩
    rw [construct_nextOpcode, first]
    decide
  · decide +kernel

/-- The second call resumes the handler that the first call ran to its end. -/
theorem errorSticks_illegalEntry :
    (Cpu.construct illegalEntryBus).ReachablePastThrows ∧
      ¬(Cpu.construct illegalEntryBus).ErrorSticks 2 ∧
      ∃ error thrown, (Cpu.construct illegalEntryBus).step.outcome = .threw error thrown ∧
        thrown.step.outcome = .undefinedBehaviour := by
  have entry := illegalEntryBus_read
  generalize illegalEntryBus = bus at entry ⊢
  have unsupported : ¬(Cpu.construct bus).Supported := by
    rintro ⟨resumed, resumes, covered⟩
    rw [construct_resumption, Option.some.injEq] at resumes
    subst resumes
    rw [construct_nextOpcode, entry] at covered
    exact (covered rfl).1 (by decide)
  obtain ⟨error, thrown, threw, finished⟩ := (construct_running bus).unsupported unsupported
  have undefinedNext : thrown.step.outcome = .undefinedBehaviour := by
    rw [Cpu.step_finished finished]
  have arrived : (Cpu.construct bus).after 1 = some thrown :=
    Cpu.after_call rfl (by rw [threw]; rfl)
  refine ⟨.construct bus, fun sticks => ?_, error, thrown, threw, undefinedNext⟩
  exact sticks.defined thrown.step (List.mem_of_getElem? (Cpu.report_at arrived (by decide)))
    undefinedNext

end GbEmulator
