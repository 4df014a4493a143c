import GbEmulator.Bits.WordStack
import GbEmulator.InstructionSet.Stack
import GbEmulator.Refinement.Progress
import GbEmulator.Verification.StubPrograms

/-! The machine stack refines a list of words. Pushes and pops may be mixed in any
order and to any depth as long as the stack stays in the work memory. -/
namespace GbEmulator
open CpuRegisters Sm83

section Memory
variable {δ : Type u} [AddressBusAddressable δ]

/-- Pushing writes two bytes of the work memory and no other. -/
theorem WithRam.read_pushed {bus : AddressBus (δ ⊕ Ram)} (ram : WithRam bus) (state : State)
    (word : Word) (first : Ram.Owns (state.sp - 1)) (second : Ram.Owns (state.sp - 2))
    {address : Word} (owned : Ram.Owns address) :
    (pushed state bus word).readFromAddress address =
      if address = state.sp - 2 then Word.lower word
      else if address = state.sp - 1 then Word.upper word
      else bus.readFromAddress address :=
  calc (pushed state bus word).readFromAddress address
    _ = if address = state.sp - 2 then Word.lower word
        else (bus.writeToAddress (state.sp - 1) (Word.upper word)).readFromAddress address :=
      (ram.write (state.sp - 1) (Word.upper word)).read_write second (Word.lower word) owned
    _ = _ := by rw [ram.read_write first (Word.upper word) owned]

theorem WithRam.pushed {bus : AddressBus (δ ⊕ Ram)} (ram : WithRam bus) (state : State)
    (word : Word) : WithRam (Sm83.pushed state bus word) :=
  (ram.write (state.sp - 1) (Word.upper word)).write (state.sp - 2) (Word.lower word)

end Memory

section Runs
variable {δ : Type u} [AddressBusAddressable δ]

/-- Complete push-type and pop-type instructions one after another. The words on the
abstract stack and the slots that were pushed to are kept along. -/
inductive StackRun (start : Cpu (δ ⊕ Ram)) : Cpu (δ ⊕ Ram) → List Word → List Word → Prop where
  | start : StackRun start start [] []
  | push (run : StackRun start cpu stack slots) (boundary : cpu.AtBoundary)
      (decoded : decode cpu.registers.visible.opcode = .implemented instruction)
      (pushes : instruction.pushes cpu.registers.visible = some word)
      (high : Ram.Owns (cpu.registers.visible.sp - 1))
      (low : Ram.Owns (cpu.registers.visible.sp - 2))
      (completed : cpu.after (instruction.mCycles cpu.registers.visible) = some next) :
      StackRun start next (word :: stack) ((cpu.registers.visible.sp - 2) :: slots)
  | pop (run : StackRun start cpu (word :: stack) slots) (boundary : cpu.AtBoundary)
      (decoded : decode cpu.registers.visible.opcode = .implemented instruction)
      (pops : instruction.pops cpu.registers.visible = true)
      (completed : cpu.after (instruction.mCycles cpu.registers.visible) = some next) :
      StackRun start next stack slots

/-- The processor and its work memory hold the abstract stack. -/
structure HoldsStack (start cpu : Cpu (δ ⊕ Ram)) (stack slots : List Word) : Prop where
  ram : WithRam cpu.bus
  within : WordStack.Within 0xC000 0xE000 cpu.registers.visible.sp stack.length
  sp : cpu.registers.visible.sp =
    start.registers.visible.sp - BitVec.ofNat 16 (2 * stack.length)
  stored : WordStack.Stored cpu.bus.readFromAddress cpu.registers.visible.sp stack
  frame : ∀ address, Ram.Owns address →
    (∀ slot ∈ slots, address ≠ slot ∧ address ≠ slot + 1) →
      cpu.bus.readFromAddress address = start.bus.readFromAddress address

theorem owns_inside : Ram.Owns address ↔ WordStack.Inside 0xC000 0xE000 address := by
  simp only [Ram.Owns, Ram.startAddress, Ram.endAddress, WordStack.Inside]
  omega

theorem HoldsStack.push {start cpu next : Cpu (δ ⊕ Ram)} (holds : HoldsStack start cpu stack slots)
    (high : Ram.Owns (cpu.registers.visible.sp - 1)) (low : Ram.Owns (cpu.registers.visible.sp - 2))
    (sp : next.registers.visible.sp = cpu.registers.visible.sp - 2)
    (bus : next.bus = pushed cpu.registers.visible cpu.bus word) :
    HoldsStack start next (word :: stack) ((cpu.registers.visible.sp - 2) :: slots) := by
  obtain ⟨ram, within, depth, stored, frame⟩ := holds
  obtain ⟨room, bound⟩ := within.room (by decide) (by decide) (owns_inside.mp high)
  have read (address : Word) (owned : Ram.Owns address) := bus ▸ ram.read_pushed _ word high low owned
  generalize cpu.registers.visible.sp = top at *
  refine ⟨bus ▸ ram.pushed _ word, ?_, ?_, ?_, ?_⟩
  · rw [sp]
    exact within.push (by decide) (by decide) (owns_inside.mp high) (owns_inside.mp low)
  · rw [sp, depth, List.length_cons]
    bv_omega
  · rw [sp]
    refine stored.push bound room ?_ ?_ fun address above below => ?_
    · rw [read _ high, if_neg (by bv_omega), if_pos rfl]
    · rw [read _ low, if_pos rfl]
    · have owned : Ram.Owns address := by
        apply owns_inside.mpr
        unfold WordStack.Within at within
        unfold WordStack.Inside
        omega
      rw [read _ owned, if_neg (by bv_omega), if_neg (by bv_omega)]
  · intro address owned untouched
    obtain ⟨other, otherHigh⟩ := untouched (top - 2) List.mem_cons_self
    rw [read _ owned, if_neg other, if_neg (by bv_omega)]
    exact frame address owned fun slot member => untouched slot (List.mem_cons_of_mem _ member)

theorem HoldsStack.pop {start cpu next : Cpu (δ ⊕ Ram)}
    (holds : HoldsStack start cpu (word :: stack) slots)
    (sp : next.registers.visible.sp = cpu.registers.visible.sp + 2) (bus : next.bus = cpu.bus) :
    HoldsStack start next stack slots := by
  obtain ⟨ram, within, depth, stored, frame⟩ := holds
  refine ⟨bus ▸ ram, ?_, ?_, ?_, bus ▸ frame⟩
  · rw [sp]
    exact within.pop (by decide) (by decide)
  · rw [sp, depth, List.length_cons]
    bv_omega
  · rw [sp, bus]
    exact stored.pop

/-- What a push-type instruction pushes and where it continues. -/
def PushesWord (state : State) (bus : AddressBus δ) (word fetchedAt : Word) :
    Instruction → Prop
  | .push source => word = state.getStack source
  | .call _ => word = state.pc - 1 + 3 ∧ fetchedAt = immediateWord state bus
  | .restart vector => word = state.pc - 1 + 1 ∧ fetchedAt = vector.setWidth 16 <<< 3
  | _ => False

/-- Where a pop-type instruction delivers the word. -/
def Delivers (word : Word) (after : State) (fetchedAt : Word) : Instruction → Prop
  | .pop destination => after.getStack destination = destination.popped word
  | .ret | .reti | .retIf _ => fetchedAt = word
  | _ => False

theorem pushes_word (state : State) (bus : AddressBus δ) {instruction : Instruction}
    (pushes : instruction.pushes state = some word) :
    PushesWord state bus word (instruction.pushTarget state bus) instruction := by
  have back (operands : Word) : state.pc + operands = state.pc - 1 + (1 + operands) := by
    rw [← BitVec.add_assoc, BitVec.sub_add_cancel]
  cases instruction with
  | push source => cases pushes; rfl
  | restart vector => cases pushes; exact ⟨(BitVec.sub_add_cancel _ _).symm, rfl⟩
  | call condition =>
    rw [Instruction.pushes] at pushes
    split at pushes
    · cases pushes
      exact ⟨back 2, rfl⟩
    · cases pushes
  | _ => cases pushes

theorem pops_deliver {state : State} {instruction : Instruction} (pops : instruction.pops state = true)
    (word : Word) (before : State) (earlier : MasterInterruptState) (opcode : Byte) :
    Delivers word (((instruction.delivered word before).promoted earlier).fetched opcode)
      (instruction.delivered word before).pc instruction := by
  cases instruction with
  | pop destination => exact (getStack_fetched _ _ _ _).trans (getStack_setStack _ _ _)
  | ret => rfl
  | reti => rfl
  | retIf condition => rfl
  | _ => cases pops

theorem StackRun.holds {start cpu : Cpu (δ ⊕ Ram)} (ram : WithRam start.bus)
    (run : StackRun start cpu stack slots) : HoldsStack start cpu stack slots := by
  induction run with
  | start =>
    exact ⟨ram, .inl rfl, (BitVec.sub_zero _).symm, trivial, fun _ _ _ => rfl⟩
  | push run boundary decoded pushes high low completed ih =>
    obtain ⟨last, next, earlier, -, arrived, -, -, shown, bus⟩ :=
      (boundary.starting decoded).completes (schedule_push _ _ pushes)
    obtain rfl := Option.some.inj (arrived.symm.trans completed)
    refine ih.push high low ?_ bus
    rw [shown]
    exact (State.promoted_frame _ _).2.2.1
  | pop run boundary decoded pops completed ih =>
    obtain ⟨last, next, earlier, -, arrived, -, -, shown, bus⟩ :=
      (boundary.starting decoded).completes (schedule_pop _ _ pops)
    obtain rfl := Option.some.inj (arrived.symm.trans completed)
    refine ih.pop ?_ bus
    rw [shown]
    exact ((State.promoted_frame _ _).2.2.1).trans (delivered_sp _ _ _)

theorem stack_refines {start cpu : Cpu (δ ⊕ Ram)} (ram : WithRam start.bus)
    (run : StackRun start cpu stack slots) :
    HoldsStack start cpu stack slots ∧
      ∀ instruction, cpu.AtBoundary →
        decode cpu.registers.visible.opcode = .implemented instruction →
        ∃ last next fetchedAt opcode,
          cpu.after (instruction.mCycles cpu.registers.visible - 1) = some last ∧
          cpu.after (instruction.mCycles cpu.registers.visible) = some next ∧
          last.step.transactions = [.read fetchedAt opcode] ∧ last.step.fetched = some opcode ∧
          (∀ word, instruction.pushes cpu.registers.visible = some word →
            PushesWord cpu.registers.visible cpu.bus word fetchedAt instruction) ∧
          (∀ word rest, stack = word :: rest → instruction.pops cpu.registers.visible = true →
            Delivers word next.registers.visible fetchedAt instruction) := by
  have holds := run.holds ram
  refine ⟨holds, ?_⟩
  intro instruction boundary decoded
  obtain ⟨final, finalMemory, ends, -⟩ :=
    schedule_last cpu.registers.visible cpu.bus instruction
  obtain ⟨last, next, earlier, arrived, arrivedNext, transactions, fetched, shown, -⟩ :=
    (boundary.starting decoded).completes ends
  refine ⟨last, next, final.pc, _, arrived, arrivedNext, transactions, fetched, ?_, ?_⟩
  · intro word pushes
    rw [idle_state (ends.symm.trans (schedule_push cpu.registers.visible cpu.bus pushes))]
    exact pushes_word cpu.registers.visible cpu.bus pushes
  · intro word rest top pops
    have same := idle_state (ends.symm.trans (schedule_pop cpu.registers.visible cpu.bus pops))
    have delivered : stackTop cpu.registers.visible cpu.bus = word := by
      have stored := holds.stored
      rw [top] at stored
      exact stored.top_word
    rw [delivered] at same
    rw [shown, same]
    exact pops_deliver pops word _ earlier _

/-- `PUSH BC` and `POP AF`, with SP in work memory. -/
def pushingCpu : Cpu StubDevice :=
  stubCpu [0xC5, 0xF1] (.push .bc) { Cpu.powerUp {} with backingStackPointerRegister := 0xD000 }

/-- The word is stored below 0xD000 and delivered again, but for the bits that F does not have. -/
theorem stack_refines_pushPop :
    ∃ pushed popped, pushingCpu.after 4 = some pushed ∧
      WordStack.Stored pushed.bus.readFromAddress 0xCFFE [0x0013] ∧
      pushed.after 3 = some popped ∧ popped.registers.visible.sp = 0xD000 ∧
      popped.registers.visible.getStack .af = 0x0010 := by
  have ram : WithRam pushingCpu.bus := (stubBus_onStub _).withRam (by decide)
  have push : decode pushingCpu.registers.visible.opcode = .implemented (.push .bc) :=
    (by decide : decode 0xC5 = .implemented (.push .bc))
  have boundary : pushingCpu.AtBoundary := stubCpu_boundary _ push
  obtain ⟨pushed, pushes⟩ := boundary.completes push
  have following : decode (pushed.bus.readFromAddress (Instruction.finished
      pushingCpu.registers.visible pushingCpu.bus (.push .bc)).1.pc) = .implemented (.pop .af) := by
    rw [pushes.bus]
    decide +kernel
  have run : StackRun pushingCpu pushed [0x0013] [0xCFFE] :=
    .push .start boundary push rfl (by decide) (by decide) pushes.arrived
  obtain ⟨holds, delivers⟩ := stack_refines ram run
  have sp : pushed.registers.visible.sp = 0xCFFE := holds.sp
  rw [← pushes.opcode] at following
  have boundaryNext := pushes.next_boundary following
  obtain ⟨last, popped, fetchedAt, opcode, -, completed, -, -, -, delivered⟩ :=
    delivers (.pop .af) boundaryNext following
  have emptied := (stack_refines ram (.pop run boundaryNext following rfl completed)).1
  have af : popped.registers.visible.getStack .af = StackRegister.af.popped 0x0013 :=
    delivered 0x0013 [] rfl rfl
  refine ⟨pushed, popped, pushes.arrived, sp ▸ holds.stored, completed, emptied.sp, af.trans ?_⟩
  decide

end Runs
end GbEmulator
