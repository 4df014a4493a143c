import GbEmulator.Bits.WordStack
import GbEmulator.InstructionSet.Frame
import GbEmulator.InstructionSet.Programs
import GbEmulator.InstructionSet.Stack

/-! Programs with a stack. The words that instructions push and pop are followed next to
the memory that holds them, through any other instructions that spare the stack. -/
namespace GbEmulator.Sm83
open WordStack

/-- Where the stack may lie. -/
structure StackRegion where
  low : Nat
  high : Nat
  positive : 2 ≤ low
  bound : high < 65536

def StackRegion.Owns (region : StackRegion) (address : Word) : Prop :=
  Inside region.low region.high address

/-- The bytes of the words on top of a stack. -/
def Occupied (top : Word) (depth : Nat) (address : Word) : Prop :=
  top.toNat ≤ address.toNat ∧ address.toNat < top.toNat + 2 * depth

/-- The instructions that go on at the word they pop. -/
def Instruction.returns (state : State) : Instruction → Bool
  | .ret | .reti => true
  | .retIf condition => state.holds condition
  | _ => false

theorem returns_pops {state : State} {instruction : Instruction}
    (returns : instruction.returns state = true) : instruction.pops state = true := by
  cases instruction with
  | ret => rfl
  | reti => rfl
  | retIf condition => exact returns
  | _ => cases returns

theorem delivered_pc {state : State} {instruction : Instruction}
    (returns : instruction.returns state = true) (word : Word) (before : State) :
    (instruction.delivered word before).pc = word ∧
      ∀ register, (instruction.delivered word before).get register = before.get register := by
  cases instruction with
  | ret => exact ⟨rfl, fun register => by cases register <;> rfl⟩
  | reti => exact ⟨rfl, fun register => by cases register <;> rfl⟩
  | retIf condition => exact ⟨rfl, fun register => by cases register <;> rfl⟩
  | _ => cases returns

section
variable {μ : Type u} [Store μ Word Byte]

/-- Memory that is RAM at some of its addresses. -/
structure RamAt (valid : μ → Prop) (owns : Word → Prop) : Prop where
  store : ∀ {memory}, valid memory → ∀ address data, valid (Store.store memory address data)
  load : ∀ {memory}, valid memory → ∀ {address}, owns address → ∀ data {other}, owns other →
    Store.load (Store.store memory address data) other =
      if other = address then data else Store.load memory other

section Finished
variable {state : State} (memory : μ) {instruction : Instruction}

theorem finished_push {word : Word} (pushes : instruction.pushes state = some word) :
    instruction.finished state memory =
      ({ state with sp := state.sp - 2, pc := instruction.pushTarget state memory },
        pushed state memory word) := by
  have ends := (instruction.finished_last state memory).symm.trans (schedule_push state memory pushes)
  have states := congrArg Segment.state (Option.some.inj ends)
  have memories := congrArg Segment.memory (Option.some.inj ends)
  exact Prod.ext states memories

theorem finished_pop (pops : instruction.pops state = true) :
    instruction.finished state memory =
      (instruction.delivered (stackTop state memory) { state with sp := state.sp + 2 }, memory) := by
  have ends := (instruction.finished_last state memory).symm.trans (schedule_pop state memory pops)
  have states := congrArg Segment.state (Option.some.inj ends)
  have memories := congrArg Segment.memory (Option.some.inj ends)
  exact Prod.ext states memories

theorem finished_memory (silent : instruction.writesBus state = false) :
    (instruction.finished state memory).2 = memory :=
  (schedule_memory state memory silent _
    (List.mem_of_getLast? (instruction.finished_last state memory))).1

end Finished

/-- What every store keeps, every instruction keeps. -/
theorem finished_valid {valid : μ → Prop} {memory : μ}
    (store : ∀ {memory}, valid memory → ∀ address data, valid (Store.store memory address data))
    (start : valid memory) (instruction : Instruction) (state : State) :
    valid (instruction.finished state memory).2 := by
  cases writes : instruction.writesBus state with
  | false =>
    rw [finished_memory memory writes]
    exact start
  | true =>
    cases instruction with
    | storeToHl => exact store start _ _
    | storeImmediateToHl => exact store start _ _
    | storeIndirect => exact store start _ _
    | storeHighImmediate => exact store start _ _
    | storeHighC => exact store start _ _
    | storeAbsolute => exact store start _ _
    | storeSp => exact store (store start _ _) _ _
    | push => exact store (store start _ _) _ _
    | restart => exact store (store start _ _) _ _
    | call condition =>
      have pushes : (Instruction.call condition).pushes state = some (state.pc + 2) :=
        if_pos writes
      rw [finished_push memory pushes]
      exact store (store start _ _) _ _
    | _ => cases writes

section Runs
variable (region : StackRegion)

/-- An instruction that leaves SP and the words on the stack as they are. -/
structure Configuration.Spares (depth : Nat) (before after : Configuration μ) : Prop where
  sp : after.state.sp = before.state.sp
  memory : ∀ address, Occupied before.state.sp depth address →
    Store.load after.memory address = Store.load before.memory address

/-- Instructions one after another, and the words they have left on the stack above `base`,
which they do not pop. All but the pushes and the pops spare the stack. -/
inductive StackedRun (base : List Word) (start : Configuration μ) :
    Nat → Configuration μ → List Word → Prop where
  | start : StackedRun base start 0 start []
  | push (run : StackedRun base start time configuration stack)
      (decoded : configuration.decoded = .implemented instruction)
      (pushes : instruction.pushes configuration.state = some word)
      (high : region.Owns (configuration.state.sp - 1))
      (low : region.Owns (configuration.state.sp - 2)) :
      StackedRun base start (time + instruction.mCycles configuration.state)
        (instruction.execute configuration) (word :: stack)
  | pop (run : StackedRun base start time configuration (word :: stack))
      (decoded : configuration.decoded = .implemented instruction)
      (pops : instruction.pops configuration.state = true) :
      StackedRun base start (time + instruction.mCycles configuration.state)
        (instruction.execute configuration) stack
  | other (run : StackedRun base start time configuration stack)
      (decoded : configuration.decoded = .implemented instruction)
      (spares : configuration.Spares (stack ++ base).length (instruction.execute configuration)) :
      StackedRun base start (time + instruction.mCycles configuration.state)
        (instruction.execute configuration) stack

/-- A configuration whose memory holds the words on the stack. -/
structure Configuration.Holds (valid : μ → Prop) (stack : List Word)
    (configuration : Configuration μ) : Prop where
  valid : valid configuration.memory
  within : Within region.low region.high configuration.state.sp stack.length
  stored : Stored (Store.load configuration.memory) configuration.state.sp stack

/-- What a call finds when the subroutine has returned: SP and the words below are as
before, and the rest is as the subroutine left it. -/
structure Configuration.Returned (valid : μ → Prop) (base : List Word) (back : Word)
    (before last after : Configuration μ) : Prop where
  located : after.At back
  sp : after.state.sp = before.state.sp
  holds : after.Holds region valid base
  registers : ∀ register, after.state.get register = last.state.get register
  memory : after.memory = last.memory

variable {region} {valid : μ → Prop} {configuration : Configuration μ} {instruction : Instruction}
  {word : Word} {stack : List Word} (ram : RamAt valid region.Owns)
include ram

theorem load_pushed {memory : μ} {state : State} (start : valid memory)
    (high : region.Owns (state.sp - 1)) (low : region.Owns (state.sp - 2)) {address : Word}
    (owned : region.Owns address) :
    Store.load (pushed state memory word) address =
      if address = state.sp - 2 then Word.lower word
      else if address = state.sp - 1 then Word.upper word else Store.load memory address := by
  rw [pushed, ram.load (ram.store start _ _) low _ owned, ram.load start high _ owned]

theorem Configuration.Holds.push (holds : configuration.Holds region valid stack)
    (pushes : instruction.pushes configuration.state = some word)
    (high : region.Owns (configuration.state.sp - 1))
    (low : region.Owns (configuration.state.sp - 2)) :
    (instruction.execute configuration).Holds region valid (word :: stack) ∧
      (instruction.execute configuration).state.sp = configuration.state.sp - 2 := by
  have finished := finished_push configuration.memory pushes
  have memory : (instruction.execute configuration).memory = _ := congrArg Prod.snd finished
  have sp : (instruction.execute configuration).state.sp = configuration.state.sp - 2 :=
    (execute_registers instruction configuration).sp.trans (congrArg (·.1.sp) finished)
  obtain ⟨room, bound⟩ := holds.within.room region.bound region.positive high
  have read (address : Word) (owned : region.Owns address) :
      Store.load (pushed configuration.state configuration.memory word) address = _ :=
    load_pushed ram holds.valid high low owned
  have within := holds.within
  have stored := holds.stored
  refine ⟨⟨?_, ?_, ?_⟩, sp⟩
  · exact finished_valid ram.store holds.valid instruction configuration.state
  · rw [sp]
    exact within.push region.bound region.positive high low
  · rw [sp, memory]
    generalize configuration.state.sp = top at *
    refine stored.push bound room ?_ ?_ fun address above below => ?_
    · rw [read _ high, if_neg (by bv_omega), if_pos rfl]
    · rw [read _ low, if_pos rfl]
    · have owned : region.Owns address := by
        unfold Within at within
        unfold StackRegion.Owns WordStack.Inside
        omega
      rw [read _ owned, if_neg (by bv_omega), if_neg (by bv_omega)]

theorem Configuration.Holds.pop (holds : configuration.Holds region valid (word :: stack))
    (pops : instruction.pops configuration.state = true) :
    (instruction.execute configuration).Holds region valid stack ∧
      (instruction.execute configuration).state.sp = configuration.state.sp + 2 ∧
      stackTop configuration.state configuration.memory = word := by
  have finished := finished_pop configuration.memory pops
  have memory : (instruction.execute configuration).memory = _ := congrArg Prod.snd finished
  have sp : (instruction.execute configuration).state.sp = configuration.state.sp + 2 :=
    (execute_registers instruction configuration).sp.trans
      ((congrArg (·.1.sp) finished).trans (delivered_sp _ _ _))
  refine ⟨⟨?_, ?_, ?_⟩, sp, holds.stored.top_word⟩
  · exact finished_valid ram.store holds.valid instruction configuration.state
  · rw [sp]
    exact holds.within.pop region.bound region.positive
  · rw [sp, memory]
    exact holds.stored.pop

theorem Configuration.Holds.other (holds : configuration.Holds region valid stack)
    (spares : configuration.Spares stack.length (instruction.execute configuration)) :
    (instruction.execute configuration).Holds region valid stack := by
  refine ⟨finished_valid ram.store holds.valid instruction configuration.state, ?_, ?_⟩
  · rw [spares.sp]
    exact holds.within
  · rw [spares.sp]
    rcases holds.within with empty | ⟨-, below⟩
    · rw [List.length_eq_zero_iff.mp empty]
      trivial
    · exact holds.stored.congr (Nat.lt_of_le_of_lt below region.bound) fun address first last =>
        spares.memory address ⟨first, last⟩

/-- The words are in memory, and SP points to the last of them. -/
theorem StackedRun.holds {base : List Word} {start : Configuration μ}
    (held : start.Holds region valid base)
    (run : StackedRun region base start time configuration stack) :
    configuration.Holds region valid (stack ++ base) ∧
      configuration.state.sp = start.state.sp - BitVec.ofNat 16 (2 * stack.length) := by
  induction run with
  | start => exact ⟨held, (BitVec.sub_zero _).symm⟩
  | push run decoded pushes high low ih =>
    obtain ⟨holds, sp⟩ := ih.1.push ram pushes high low
    refine ⟨holds, ?_⟩
    rw [sp, ih.2, List.length_cons]
    bv_omega
  | pop run decoded pops ih =>
    obtain ⟨holds, sp, -⟩ := ih.1.pop ram pops
    refine ⟨holds, ?_⟩
    rw [sp, ih.2, List.length_cons]
    bv_omega
  | other run decoded spares ih =>
    exact ⟨ih.1.other ram spares, spares.sp.trans ih.2⟩

omit ram in
theorem StackedRun.executes {base : List Word} {start : Configuration μ}
    (run : StackedRun region base start time configuration stack) :
    start.Executes time configuration := by
  induction run with
  | start => exact .refl _
  | push run decoded pushes high low ih =>
    exact ih.trans (.single (Configuration.next_implemented decoded))
  | pop run decoded pops ih =>
    exact ih.trans (.single (Configuration.next_implemented decoded))
  | other run decoded spares ih =>
    exact ih.trans (.single (Configuration.next_implemented decoded))

omit ram in
/-- A run over the words of another run is one over the same base. -/
theorem StackedRun.append {base above : List Word} {start middle : Configuration μ}
    (first : StackedRun region base start early middle above)
    (second : StackedRun region (above ++ base) middle late configuration stack) :
    StackedRun region base start (early + late) configuration (stack ++ above) := by
  induction second with
  | start => exact first
  | push run decoded pushes high low ih =>
    rw [← Nat.add_assoc]
    exact .push ih decoded pushes high low
  | pop run decoded pops ih =>
    rw [← Nat.add_assoc]
    exact .pop ih decoded pops
  | other run decoded spares ih =>
    rw [← List.append_assoc] at spares
    rw [← Nat.add_assoc]
    exact .other ih decoded spares

/-- A subroutine whose words have all been popped again returns behind its call. -/
theorem StackedRun.returned {base : List Word} {caller last : Configuration μ}
    {call back : Instruction} (held : caller.Holds region valid base)
    (pushes : call.pushes caller.state = some word) (high : region.Owns (caller.state.sp - 1))
    (low : region.Owns (caller.state.sp - 2))
    (run : StackedRun region (word :: base) (call.execute caller) time last [])
    (returns : back.returns last.state = true) :
    Configuration.Returned region valid base word caller last (back.execute last) := by
  obtain ⟨entered, entry⟩ := held.push ram pushes high low
  obtain ⟨holds, sp⟩ := run.holds ram entered
  obtain ⟨popped, after, top⟩ := holds.pop ram (returns_pops returns)
  have finished := finished_pop last.memory (returns_pops returns)
  rw [top] at finished
  obtain ⟨pc, registers⟩ := delivered_pc returns word { last.state with sp := last.state.sp + 2 }
  have restored : last.state.sp + 2 = caller.state.sp := by
    rw [sp, entry]
    exact (congrArg (· + 2) (BitVec.sub_zero _)).trans (BitVec.sub_add_cancel _ _)
  have landed := execute_at back last
  rw [finished, pc] at landed
  refine ⟨landed, after.trans restored, popped, fun register => ?_, congrArg Prod.snd finished⟩
  rw [(execute_registers back last).registers register, finished, registers register]
  cases register <;> rfl

end Runs
end
end GbEmulator.Sm83
