import GbEmulator.Refinement.Interference

/-! Progress against an adversary: whoever holds `Registers()` or a device on the bus may
write anything between two calls. -/
namespace GbEmulator
open Sm83

/-- Each implemented opcode that is fetched takes a number of calls that some flags give
its instruction, one bus access a call at most, and then the next opcode is fetched. Until
an opcode that is not implemented throws, no six calls go without a fetch. -/
theorem paced_under_interference {δ : Type u} [AddressBusAddressable δ] (bus : AddressBus δ)
    (outside : Interference δ) (calls : Nat) :
    Paced .nop 0 ((Cpu.construct bus).runDisturbed outside calls) ∧
      ∀ earlier quiet later,
        (Cpu.construct bus).runDisturbed outside calls = earlier ++ quiet ++ later →
        (∀ report ∈ earlier, ∃ next, report.outcome = .returned next) →
        (∀ report ∈ quiet, report.fetched = none) → quiet.length ≤ 5 := by
  have fresh : (Cpu.construct bus).Runs .nop 0 := runs_fresh rfl
  have paced := fresh.paced outside calls 0
  constructor
  · exact paced
  · intro earlier quiet later parts returned unfetched
    rw [← Cpu.runDisturbed, parts] at paced
    exact paced.fetch_bound returned unfetched

end GbEmulator
