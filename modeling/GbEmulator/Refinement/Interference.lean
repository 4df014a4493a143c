import GbEmulator.Refinement.Duration
import GbEmulator.Verification.Reachability

/-! A processor whose registers and bus somebody else writes between its calls, as
`Registers()` and the devices allow. -/
namespace GbEmulator
open CpuRegisters Sm83 Coroutine

/-- What is found in the registers and on the bus when call number `count` begins,
given how the call before it left them. -/
abbrev Interference (δ : Type u) := Nat → Cpu δ → CpuRegisters × AddressBus δ

section
variable {δ : Type u} [AddressBusAddressable δ]

def Cpu.disturb (outside : Interference δ) (count : Nat) (cpu : Cpu δ) : Cpu δ :=
  let (registers, bus) := outside count cpu
  { cpu with registers := registers, bus := bus }

def disturbedCall (outside : Interference δ) (now : Nat × Cpu δ) :
    StepReport δ × Option (Nat × Cpu δ) :=
  let report := (now.2.disturb outside now.1).step
  (report, report.outcome.cpu.map fun next => (now.1 + 1, next))

def Cpu.runDisturbed (outside : Interference δ) (count : Nat) (cpu : Cpu δ) :
    List (StepReport δ) :=
  Transition.run (disturbedCall outside) count (0, cpu)

end

/-- Calls that keep the pace of the opcodes they fetch, up to the first that throws:
`elapsed` calls of `instruction` have been made. -/
def Paced {δ : Type u} (instruction : Instruction) (elapsed : Nat) : List (StepReport δ) → Prop
  | [] => True
  | report :: later =>
    match report.fetched with
    | none => report.transactions.length ≤ 1 ∧ (∃ next, report.outcome = .returned next) ∧
        (∃ cycles, elapsed + 1 < cycles ∧ instruction.Lasts cycles) ∧
        Paced instruction (elapsed + 1) later
    | some opcode => report.transactions.length = 1 ∧ instruction.Lasts (elapsed + 1) ∧
        match decode opcode with
        | .implemented following => (∃ next, report.outcome = .returned next) ∧
            Paced following 0 later
        | decoded => ∃ fault next, decoded.fault opcode = some fault ∧
            report.outcome = .threw fault.error next

/-- The handler stands `elapsed` calls into the instruction. -/
def Cpu.Runs (instruction : Instruction) (elapsed : Nat) (cpu : Cpu δ) : Prop :=
  ∃ rest, cpu.handler = ⟨.suspended rest, none⟩ ∧ Disciplined rest ∧ Paces instruction elapsed rest

theorem runs_fresh {instruction : Instruction} {cpu : Cpu δ}
    (handler : cpu.handler = ⟨.suspended instruction.handler, none⟩) : cpu.Runs instruction 0 :=
  ⟨_, handler, handler_disciplined instruction, handler_paces instruction⟩

section
variable {δ : Type u} [AddressBusAddressable δ] {instruction : Instruction} {elapsed : Nat}
  {cpu : Cpu δ}

/-- One call of an instruction, in whatever registers and on whatever bus. -/
theorem Cpu.Runs.step_cases (runs : cpu.Runs instruction elapsed) :
    (cpu.step.fetched = none ∧ cpu.step.transactions.length ≤ 1 ∧
      (∃ next, cpu.step.outcome = .returned next ∧ next.Runs instruction (elapsed + 1)) ∧
      ∃ cycles, elapsed + 1 < cycles ∧ instruction.Lasts cycles) ∨
    ∃ opcode, cpu.step.fetched = some opcode ∧ cpu.step.transactions.length = 1 ∧
      instruction.Lasts (elapsed + 1) ∧
      ((∃ following next, decode opcode = .implemented following ∧
          cpu.step.outcome = .returned next ∧ next.Runs following 0) ∨
        ∃ fault next, (decode opcode).fault opcode = some fault ∧
          cpu.step.outcome = .threw fault.error next) := by
  obtain ⟨rest, handler, disciplined, paces⟩ := runs
  have counted := Takes.resume paces cpu.registers cpu.bus
  rcases disciplined.resumed cpu.registers cpu.bus with
    ⟨next, suspends, kept, single⟩ | ⟨returns, silent⟩
  · rw [suspends] at counted
    obtain ⟨-, total, later, lasts⟩ := Takes.completes counted
    left
    rw [cpu.step_suspends handler suspends]
    exact ⟨rfl, single, ⟨_, rfl, next, rfl, kept, counted⟩, total + 1, Nat.lt_succ_of_le later, lasts⟩
  · rw [returns] at counted
    have completes := cpu.step_completes handler returns
    dsimp only at completes
    rw [silent] at completes
    obtain ⟨transactions, fetched, starts⟩ := fetch_cases
      (cpu.completed (rest.resume cpu.registers cpu.bus).toSegment) []
    rw [← completes] at transactions fetched starts
    refine .inr ⟨_, fetched, by rw [transactions]; rfl, counted, ?_⟩
    rcases starts with ⟨following, decoded, returned⟩ | ⟨fault, decoded, threw⟩
    · exact .inl ⟨following, _, decoded, returned, runs_fresh rfl⟩
    · exact .inr ⟨fault, _, decoded, threw⟩

theorem Cpu.Runs.paced (outside : Interference δ) (calls : Nat) (runs : cpu.Runs instruction elapsed)
    (number : Nat) :
    Paced instruction elapsed (Transition.run (disturbedCall outside) calls (number, cpu)) := by
  induction calls generalizing instruction elapsed cpu number with
  | zero => trivial
  | succ calls ih =>
    have shown : (disturbedCall outside (number, cpu)).1 = (cpu.disturb outside number).step := rfl
    have next : (disturbedCall outside (number, cpu)).2 =
      (cpu.disturb outside number).step.outcome.cpu.map fun next => (number + 1, next) := rfl
    have disturbed : (cpu.disturb outside number).Runs instruction elapsed := runs
    rcases disturbed.step_cases with
      ⟨fetched, single, ⟨reached, returned, continued⟩, longer⟩ |
      ⟨opcode, fetched, single, lasts, ⟨following, reached, decoded, returned, continued⟩ |
        ⟨fault, reached, decoded, threw⟩⟩
    · rw [returned] at next
      rw [Transition.run_next _ next, shown]
      simp only [Paced, fetched]
      exact ⟨single, ⟨_, returned⟩, longer, ih continued _⟩
    · rw [returned] at next
      rw [Transition.run_next _ next, shown]
      simp only [Paced, fetched, decoded]
      exact ⟨single, lasts, ⟨_, returned⟩, ih continued _⟩
    · rw [threw] at next
      rw [Transition.run_next _ next, shown]
      simp only [Paced, fetched]
      refine ⟨single, lasts, ?_⟩
      cases kind : decode opcode with
      | implemented following =>
        rw [kind] at decoded
        cases decoded
      | unimplemented => exact ⟨fault, reached, kind ▸ decoded, threw⟩
      | illegal => exact ⟨fault, reached, kind ▸ decoded, threw⟩

end

theorem lasts_le {instruction : Instruction} (lasts : instruction.Lasts cycles) : cycles ≤ 6 := by
  obtain ⟨state, rfl⟩ := lasts
  cases instruction <;> simp only [Instruction.mCycles] <;> (try split) <;> omega

section
variable {δ : Type u} {instruction : Instruction} {elapsed : Nat}
  {quiet later : List (StepReport δ)}

theorem Paced.quiet_bound (paced : Paced instruction elapsed (quiet ++ later))
    (unfetched : ∀ report ∈ quiet, report.fetched = none) (nonempty : quiet ≠ []) :
    elapsed + quiet.length ≤ 5 := by
  induction quiet generalizing elapsed with
  | nil => exact absurd rfl nonempty
  | cons report quiet ih =>
    simp only [List.cons_append, Paced, unfetched report List.mem_cons_self] at paced
    obtain ⟨-, -, ⟨cycles, longer, lasts⟩, continued⟩ := paced
    have bound := lasts_le lasts
    by_cases last : quiet = []
    · subst last
      simp only [List.length_singleton]
      omega
    · have rest := ih continued (fun other member => unfetched other (List.mem_cons_of_mem _ member))
        last
      rw [List.length_cons]
      omega

/-- No six calls in a row go without an opcode fetch. -/
theorem Paced.fetch_bound {earlier : List (StepReport δ)}
    (paced : Paced instruction elapsed (earlier ++ quiet ++ later))
    (returned : ∀ report ∈ earlier, ∃ next, report.outcome = .returned next)
    (unfetched : ∀ report ∈ quiet, report.fetched = none) : quiet.length ≤ 5 := by
  induction earlier generalizing instruction elapsed with
  | nil =>
    by_cases empty : quiet = []
    · simp [empty]
    · exact Nat.le_trans (Nat.le_add_left _ _) (paced.quiet_bound unfetched empty)
  | cons report earlier ih =>
    have rest := fun other member => returned other (List.mem_cons_of_mem report member)
    obtain ⟨next, back⟩ := returned report List.mem_cons_self
    cases fetched : report.fetched with
    | none =>
      simp only [List.cons_append, Paced, fetched] at paced
      exact ih paced.2.2.2 rest
    | some opcode =>
      simp only [List.cons_append, Paced, fetched] at paced
      cases decoded : decode opcode with
      | implemented following =>
        simp only [decoded] at paced
        exact ih paced.2.2.2 rest
      | unimplemented =>
        simp only [decoded, back] at paced
        simp at paced
      | illegal =>
        simp only [decoded, back] at paced
        simp at paced

end
end GbEmulator
