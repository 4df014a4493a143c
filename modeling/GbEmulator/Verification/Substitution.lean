import GbEmulator.Refinement.Substitution
import GbEmulator.Verification.WorkMemory
import Mathlib.Data.List.Perm.Basic

/-! What a processor can tell about its bus. Everything it sees are the answers after
some history of writes: not the number, the classes or the order of the devices. -/
namespace GbEmulator
open Coroutine
open AddressBusAddressable (SilentOutside)

/-- No history of writes tells the two apart. -/
def AddressBus.SameAnswers [AddressBusAddressable δ] [AddressBusAddressable ε] (bus : AddressBus δ)
    (image : AddressBus ε) : Prop :=
  ∀ history address,
    (bus.writeAll history).readFromAddress address = (image.writeAll history).readFromAddress address

variable {δ : Type u} {ε : Type v} [AddressBusAddressable δ] [AddressBusAddressable ε]

theorem sameAnswers_alike :
    Store.Alike (fun _ => True) (AddressBus.SameAnswers (δ := δ) (ε := ε)) where
  load same address _ := same [] address
  store same address data history := same ((address, data) :: history)

theorem run_everywhere {related : AddressBus δ → AddressBus ε → Prop}
    (alike : Store.Alike (fun _ => True) related) {cpu : Cpu δ} {image : Cpu ε}
    (same : cpu.Alike related image) (count : Nat) :
    (cpu.run count).map StepReport.face = (image.run count).map StepReport.face ∧
      Option.Rel (Cpu.Alike related) (cpu.after count) (image.after count) :=
  run_alike alike same count fun _ _ access _ => readsWithin_everywhere access

/-- A handler that makes some writes and one read before it suspends. No opcode has it. -/
def probe (history : History) (address : Word) : Handler Unit :=
  history.foldr (fun write rest => .write write.1 write.2 rest)
    (.read address fun _ => .yield (.ret ()))

theorem probe_resume (bus : AddressBus δ) (registers : CpuRegisters) (history : History)
    (address : Word) (done : List (Transaction Word Byte)) :
    ((probe history address).resumeFrom registers bus done).transactions =
      done ++ history.map (fun write => .write write.1 write.2) ++
        [.read address ((bus.writeAll history).readFromAddress address)] ∧
      ((probe history address).resumeFrom registers bus done).next = .suspended (.ret ()) := by
  induction history generalizing bus done with
  | nil => exact ⟨by rw [List.map_nil, List.append_nil]; rfl, rfl⟩
  | cons write history ih =>
    obtain ⟨transactions, suspends⟩ :=
      ih (bus.writeToAddress write.1 write.2) (done ++ [.write write.1 write.2])
    refine ⟨transactions.trans ?_, suspends⟩
    rw [List.map_cons, List.append_assoc done, List.singleton_append]
    rfl

theorem probe_face (bus : AddressBus δ) (registers : CpuRegisters) (history : History)
    (address : Word) :
    (Cpu.mk bus registers ⟨.suspended (probe history address), none⟩).step.transactions =
      history.map (fun write => .write write.1 write.2) ++
        [.read address ((bus.writeAll history).readFromAddress address)] := by
  obtain ⟨transactions, suspends⟩ := probe_resume bus registers history address []
  let cpu : Cpu δ := ⟨bus, registers, ⟨.suspended (probe history address), none⟩⟩
  have running : cpu.handler = ⟨.suspended (probe history address), none⟩ := rfl
  rw [show cpu.step = _ from Cpu.step_suspends running suspends]
  exact transactions

/-- Two buses give processors in any handler the same runs exactly if no history of writes
tells them apart. What brings a difference out is `probe`, a handler of no opcode: for the
handlers of a program it is the other direction that holds. -/
theorem bus_interchangeable (bus : AddressBus δ) (image : AddressBus ε) :
    (∀ registers handler count,
      ((Cpu.mk bus registers handler).run count).map StepReport.face =
        ((Cpu.mk image registers handler).run count).map StepReport.face) ↔
      bus.SameAnswers image := by
  constructor
  · intro same history address
    have once := same {} ⟨.suspended (probe history address), none⟩ 1
    rw [Cpu.run, Cpu.run, Transition.run_one, Transition.run_one, List.map_singleton,
      List.map_singleton, List.singleton_inj] at once
    have transactions := congrArg StepReport.Face.transactions once
    change (Cpu.step _).transactions = (Cpu.step _).transactions at transactions
    rw [probe_face, probe_face, List.append_cancel_left_eq, List.singleton_inj,
      Transaction.read.injEq] at transactions
    exact transactions.2
  · intro same registers handler count
    have start : (Cpu.mk bus registers handler).Alike AddressBus.SameAnswers
        (Cpu.mk image registers handler) := ⟨same, rfl, rfl⟩
    exact (run_everywhere sameAnswers_alike start count).1

/-- `order` registers `devices` in any order, and others that never answer. -/
def Registers (order devices : AddressBus δ) : Prop :=
  ∃ silent, (∀ device ∈ silent, SilentOutside (fun _ => False) device) ∧
    order.devices.Perm (devices.devices ++ silent)

theorem read_perm {devices order : List δ} (permuted : order.Perm devices) (address : Word) :
    (AddressBus.mk order).readFromAddress address =
      (AddressBus.mk devices).readFromAddress address := by
  refine permuted.foldl_eq' (fun first _ second _ data => ?_) 0
  rw [BitVec.or_assoc, BitVec.or_assoc, BitVec.or_comm (AddressBusAddressable.readFromAddress _ _)]

theorem registers_alike : Store.Alike (fun _ => True) (Registers (δ := δ)) where
  load := by
    rintro ⟨order⟩ ⟨devices⟩ ⟨silent, silence, permuted⟩ address -
    refine (read_perm permuted address).trans ?_
    exact List.foldl_append.trans (or_silent silent address _ fun device member =>
      silence device member [] address not_false)
  store := by
    rintro ⟨order⟩ ⟨devices⟩ ⟨silent, silence, permuted⟩ address data
    refine ⟨silent.map (AddressBusAddressable.writeToAddress · address data), ?_, ?_⟩
    · rw [List.forall_mem_map]
      intro device member
      exact silent_write (silence device member) address data
    · have kept := permuted.map (AddressBusAddressable.writeToAddress · address data)
      rwa [List.map_append] at kept

/-- Neither the order of registration nor a device that never answers makes a difference
to any run, also when devices share addresses. -/
theorem registration_irrelevant (devices silent order : List δ)
    (silence : ∀ device ∈ silent, SilentOutside (fun _ => False) device)
    (permuted : order.Perm (devices ++ silent)) (registers : CpuRegisters)
    (handler : InstructionHandler) (count : Nat) :
    ((Cpu.mk ⟨order⟩ registers handler).run count).map StepReport.face =
      ((Cpu.mk ⟨devices⟩ registers handler).run count).map StepReport.face := by
  have start : (Cpu.mk ⟨order⟩ registers handler).Alike Registers
      (Cpu.mk ⟨devices⟩ registers handler) := ⟨⟨silent, silence, permuted⟩, rfl, rfl⟩
  exact (run_everywhere registers_alike start count).1

/-- A ROM of zeros never answers. -/
theorem emptyRom_silent : SilentOutside (fun _ => False)
    (.inl (Cartridge.ofSmallestRom emptyRom rfl) : MainDevice) := by
  intro history address outside
  rw [writeAll_cartridge]
  by_cases beyond : address.toNat > Cartridge.romEndAddress
  · exact dif_pos beyond
  · have inside : address.toNat < 0x8000 := by
      simp only [Cartridge.romEndAddress] at beyond
      omega
    exact Cartridge.ofSmallestRom_read emptyRom rfl inside

theorem registration_irrelevant_emptyRom :
    ((Cpu.construct ⟨[(.inl (Cartridge.ofSmallestRom emptyRom rfl) : MainDevice), .inr {}]⟩).run
      3).map StepReport.face =
        ((Cpu.construct ⟨[(.inr {} : MainDevice)]⟩).run 3).map StepReport.face := by
  have silence := emptyRom_silent
  generalize (.inl (Cartridge.ofSmallestRom emptyRom rfl) : MainDevice) = rom at silence ⊢
  refine registration_irrelevant [.inr {}] [rom] _ ?_ (List.Perm.swap _ _ _) _ _ 3
  intro device member
  exact List.mem_singleton.mp member ▸ silence

end GbEmulator
