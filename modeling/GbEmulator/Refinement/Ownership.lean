import GbEmulator.Emulator.OwningCpu
import GbEmulator.Refinement.Substitution

/-! Ownership of coroutine frames: by any objects a program may name, and by the one
object of a processor. -/
namespace GbEmulator
open Ownership

/-- A result that satisfies `kept`, or a failure other than the use of a destroyed frame. -/
def Undangled (kept : γ → Prop) : Except HandleMisuse γ → Prop
  | .ok value => kept value
  | .error misuse => misuse ≠ .dangling

section
variable {kept : γ → Prop}

theorem Undangled.bind {γ β : Type u} {kept : γ → Prop} {ensured : β → Prop}
    {result : Except HandleMisuse β} {next : β → Except HandleMisuse γ}
    (first : Undangled ensured result) (rest : ∀ value, ensured value → Undangled kept (next value)) :
    Undangled kept (result >>= next) := by
  cases result with
  | error misuse => exact first
  | ok value => exact rest value first

theorem Undangled.map {ensured : β → Prop} {result : Except HandleMisuse β} {f : β → γ}
    (first : Undangled ensured result) (rest : ∀ value, ensured value → kept (f value)) :
    Undangled kept (result.map f) := by
  cases result with
  | error misuse => exact first
  | ok value => exact rest value first

end

namespace HandlerObjects
variable {ν : Type} {objects : HandlerObjects ν}

/-- The frames and the objects of the class stay in bijection. -/
abbrev Owned (objects : HandlerObjects ν) : Prop := Ownership.Owned objects.heap objects.handles

theorem handle_undangled (name : ν) :
    Undangled (fun id => objects.handles name = some id) (objects.handle name) := by
  unfold handle
  cases held : objects.handles name with
  | none => exact HandleMisuse.noConfusion
  | some id => rfl

theorem frame_undangled (owned : objects.Owned) (name : ν) :
    Undangled (fun held => objects.handles name = some (some held.1) ∧
      objects.heap.frame held.1 = some held.2) (objects.frame name) := by
  have held : Undangled _ (objects.handle name) := handle_undangled name
  unfold frame
  cases handled : objects.handle name with
  | error misuse => rwa [handled] at held
  | ok id =>
    rw [handled] at held
    cases id with
    | none => exact HandleMisuse.noConfusion
    | some id =>
      obtain ⟨frame, present⟩ := (owned.live id).mpr ⟨name, held⟩
      dsimp only
      rw [present]
      exact ⟨held, present⟩

theorem hasException_undangled (owned : objects.Owned) (name : ν) :
    Undangled (fun _ => True) (objects.hasException name) := by
  refine (handle_undangled name).bind fun id _ => ?_
  cases id with
  | none => trivial
  | some id => exact (frame_undangled owned name).bind fun _ _ => trivial

theorem exception_undangled (owned : objects.Owned) (name : ν) :
    Undangled (fun _ => True) (objects.exception name) :=
  (frame_undangled owned name).bind fun _ _ => trivial

theorem isDone_undangled (owned : objects.Owned) (name : ν) :
    Undangled (fun _ => True) (objects.isDone name) := by
  refine (frame_undangled owned name).bind fun held _ => ?_
  cases held.2.handle <;> trivial

theorem resume_undangled {δ : Type u} [AddressBusAddressable δ] (owned : objects.Owned) (name : ν)
    (registers : CpuRegisters) (bus : AddressBus δ) :
    Undangled (fun resumed => resumed.2.Owned) (objects.resume name registers bus) := by
  have held := frame_undangled owned name
  unfold resume
  cases framed : objects.frame name with
  | error misuse => rwa [framed] at held
  | ok found =>
    rw [framed] at held
    obtain ⟨id, frame⟩ := found
    dsimp only
    cases frame.handle with
    | done => exact HandleMisuse.noConfusion
    | suspended rest => exact owned.update ⟨frame, held.2⟩ _

variable [DecidableEq ν]

theorem begin_undangled (owned : objects.Owned) (name : ν) :
    Undangled Owned (objects.begin name none) := by
  unfold begin
  cases held : objects.handles name with
  | some id => exact HandleMisuse.noConfusion
  | none => exact owned.idle (by simp [held]) (by simp)

theorem swap_undangled (owned : objects.Owned) (name other : ν) :
    Undangled Owned (objects.swap name other) :=
  (handle_undangled name).bind fun _ _ => (handle_undangled other).bind fun _ _ =>
    owned.permute (Equiv.swap name other)

theorem moveConstruct_undangled (owned : objects.Owned) (name other : ν) :
    Undangled Owned (objects.moveConstruct name other) :=
  (handle_undangled other).bind fun _ _ => (begin_undangled owned name).bind fun _ began =>
    swap_undangled began name other

theorem destruct_undangled (owned : objects.Owned) (name : ν) :
    Undangled Owned (objects.destruct name) := by
  refine (handle_undangled name).bind fun id held => ?_
  cases id with
  | none => exact owned.idle (by simp [held]) (by simp)
  | some id =>
    refine (frame_undangled owned name).bind fun found framed => ?_
    exact owned.destroy framed.1

/-- The new frame has no owner until the temporary takes it. -/
theorem call_undangled (owned : objects.Owned) (returned temporary : ν)
    (frame : InstructionHandler) : Undangled Owned (objects.call returned temporary frame) := by
  have promised : Undangled Owned (fromPromise temporary objects.heap.fresh
      ⟨objects.heap.create frame, objects.handles⟩) := by
    unfold fromPromise begin
    dsimp only
    cases held : objects.handles temporary with
    | some id => exact HandleMisuse.noConfusion
    | none => exact owned.create (by simp [held]) frame
  exact promised.bind fun _ owned => (moveConstruct_undangled owned returned temporary).bind
    fun _ owned => destruct_undangled owned temporary

end HandlerObjects

section
variable {ν : Type} {δ : Type u} [AddressBusAddressable δ] [DecidableEq ν]
  {objects : HandlerObjects ν}

theorem perform_undangled (owned : objects.Owned) (operation : HandlerOperation ν δ) :
    Undangled HandlerObjects.Owned (operation.perform objects) := by
  cases operation with
  | construct name => exact HandlerObjects.begin_undangled owned name
  | call returned temporary frame => exact HandlerObjects.call_undangled owned _ _ frame
  | moveConstruct name other => exact HandlerObjects.moveConstruct_undangled owned name other
  | moveAssign name other => exact HandlerObjects.swap_undangled owned name other
  | hasException name => exact (HandlerObjects.hasException_undangled owned name).map fun _ _ => owned
  | exception name => exact (HandlerObjects.exception_undangled owned name).map fun _ _ => owned
  | isDone name => exact (HandlerObjects.isDone_undangled owned name).map fun _ _ => owned
  | resume name registers bus =>
    exact (HandlerObjects.resume_undangled owned name registers bus).map fun _ kept => kept
  | destruct name => exact HandlerObjects.destruct_undangled owned name

theorem run_undangled (owned : objects.Owned) (operations : List (HandlerOperation ν δ)) :
    Undangled HandlerObjects.Owned (objects.perform operations) := by
  induction operations generalizing objects with
  | nil => exact owned
  | cons operation operations ih =>
    exact (perform_undangled owned operation).bind fun _ kept => ih kept

end

section Processor
open CpuRegisters

/-- The objects of a processor, each within its lifetime or not. -/
def HandlerObjects.among (heap : FrameHeap InstructionHandler)
    (handler returned temporary : Option (Option FrameId)) : HandlerObjects CpuObject :=
  ⟨heap, fun
    | .handler => handler
    | .returned => returned
    | .temporary => temporary⟩

/-- Every frame but the last is destroyed, and `m_handler` holds the last. -/
def HandlerObjects.holding (retired : Nat) (frame : InstructionHandler) :
    HandlerObjects CpuObject :=
  among ⟨List.replicate retired none ++ [some frame]⟩ (some (some retired)) none none

theorem bind_ok {γ β : Type u} {result : Except HandleMisuse β} {value : β}
    (first : result = .ok value) (next : β → Except HandleMisuse γ) :
    (result >>= next) = next value := by
  rw [first]
  rfl

namespace HandlerObjects

section Held
variable {objects : HandlerObjects CpuObject} {name : CpuObject} {id : FrameId}
  {held : InstructionHandler} (holds : objects.handles name = some (some id))
  (live : objects.heap.frame id = some held)

include holds in
theorem handle_held : objects.handle name = .ok (some id) := by
  unfold handle
  rw [holds]

include holds live

theorem frame_held : objects.frame name = .ok (id, held) := by
  unfold frame
  rw [handle_held holds]
  dsimp only
  rw [live]

theorem hasException_held : objects.hasException name = .ok held.exception.isSome :=
  (bind_ok (handle_held holds) _).trans (bind_ok (frame_held holds live) _)

theorem exception_held : objects.exception name = .ok held.exception :=
  bind_ok (frame_held holds live) _

theorem isDone_held : objects.isDone name = .ok (match held.handle with
    | .suspended _ => false
    | .done => true) := by
  refine (bind_ok (frame_held holds live) _).trans ?_
  dsimp only
  cases held.handle <;> rfl

theorem resume_held {δ : Type u} [AddressBusAddressable δ] (registers : CpuRegisters)
    (bus : AddressBus δ) : objects.resume name registers bus = match held.handle with
      | .done => .error .finished
      | .suspended rest => .ok ((rest.resume registers bus).toSegment,
          ⟨objects.heap.set id (some (held.suspendedAt (rest.resume registers bus).next)),
            objects.handles⟩) := by
  have found := frame_held holds live
  cases position : held.handle with
  | suspended rest => simp only [resume, found, position]
  | done => simp only [resume, found, position]

theorem destruct_held : objects.destruct name =
    .ok ⟨objects.heap.set id none, Function.update objects.handles name none⟩ :=
  (bind_ok (handle_held holds) _).trans (bind_ok (frame_held holds live) _)

end Held

section Members
variable (heap : FrameHeap InstructionHandler) (handler : Option (Option FrameId))
  (first second : Option FrameId)

theorem ok_ext {objects others : HandlerObjects CpuObject} (heap : objects.heap = others.heap)
    (handles : ∀ name, objects.handles name = others.handles name) :
    (Except.ok objects : Except HandleMisuse _) = .ok others := by
  cases objects
  cases others
  obtain rfl := heap
  obtain rfl := funext handles
  rfl

theorem moveConstruct_returned :
    (among heap handler none (some first)).moveConstruct .returned .temporary =
      .ok (among heap handler (some first) (some none)) :=
  ok_ext rfl fun name => by cases name <;> rfl

theorem moveAssign_handler :
    (among heap (some first) (some second) none).moveAssign .handler .returned =
      .ok (among heap (some second) (some first) none) :=
  ok_ext rfl fun name => by cases name <;> rfl

theorem fromPromise_temporary (id : FrameId) :
    (among heap handler none none).fromPromise .temporary id =
      .ok (among heap handler none (some (some id))) :=
  ok_ext rfl fun name => by cases name <;> rfl

theorem destruct_temporary (returned : Option (Option FrameId)) :
    (among heap handler returned (some none)).destruct .temporary =
      .ok (among heap handler returned none) :=
  ok_ext rfl fun name => by cases name <;> rfl

theorem call_returned (frame : InstructionHandler) :
    (among heap handler none none).call .returned .temporary frame =
      .ok (among (heap.create frame) handler (some (some heap.fresh)) none) :=
  (bind_ok (fromPromise_temporary (heap.create frame) handler heap.fresh) _).trans
    ((bind_ok (moveConstruct_returned (heap.create frame) handler (some heap.fresh)) _).trans
      (destruct_temporary (heap.create frame) handler (some (some heap.fresh))))

end Members

section Holding
variable (retired : Nat) (held next : InstructionHandler)

theorem frame_holding : (holding retired held).heap.frame retired = some held := by
  unfold FrameHeap.frame holding among
  simp

theorem live_holding (id : FrameId) : (holding retired held).heap.Live id ↔ id = retired := by
  constructor
  · rintro ⟨frame, live⟩
    unfold FrameHeap.frame holding among at live
    dsimp only at live
    by_contra other
    by_cases before : id < retired
    · rw [List.getElem?_append_left (by rwa [List.length_replicate])] at live
      simp [before] at live
    · have beyond : retired + 1 ≤ id :=
        Nat.lt_of_le_of_ne (Nat.le_of_not_lt before) (Ne.symm other)
      rw [List.getElem?_eq_none (by simpa using beyond)] at live
      cases live
  · rintro rfl
    exact ⟨held, frame_holding id held⟩

theorem handles_holding : (holding retired held).handles .handler = some (some retired) := rfl

theorem hasException_holding :
    (holding retired held).hasException .handler = .ok held.exception.isSome :=
  hasException_held (handles_holding retired held) (frame_holding retired held)

theorem exception_holding : (holding retired held).exception .handler = .ok held.exception :=
  exception_held (handles_holding retired held) (frame_holding retired held)

theorem isDone_holding : (holding retired held).isDone .handler = .ok (match held.handle with
    | .suspended _ => false
    | .done => true) :=
  isDone_held (handles_holding retired held) (frame_holding retired held)

theorem call_empty : call .handler .temporary held {} = .ok (holding 0 held) :=
  ok_ext rfl fun name => by cases name <;> rfl

/-- The heap when the new frame is there and the old one has been destroyed. -/
theorem set_create : ((holding retired held).heap.create next).set retired none =
    (holding (retired + 1) next).heap := by
  unfold FrameHeap.create FrameHeap.set holding among
  simp [List.replicate_succ']

theorem fresh_holding : (holding retired held).heap.fresh = retired + 1 := by
  unfold FrameHeap.fresh holding among
  simp

theorem assignCall_holding :
    (holding retired held).assignCall next = .ok (holding (retired + 1) next) := by
  have fresh := fresh_holding retired held
  have called := call_returned (holding retired held).heap (some (some retired)) next
  rw [fresh] at called
  have live : ((holding retired held).heap.create next).frame retired = some held := by
    rw [FrameHeap.frame_create, fresh, if_neg (Nat.ne_of_lt (Nat.lt_succ_self retired)),
      frame_holding]
  let swapped := among ((holding retired held).heap.create next) (some (some (retired + 1)))
    (some (some retired)) none
  have holds : swapped.handles .returned = some (some retired) := rfl
  have ended := destruct_held holds live
  refine (bind_ok called _).trans ((bind_ok (moveAssign_handler _ _ _) _).trans (ended.trans ?_))
  exact ok_ext (set_create retired held next) fun name => by cases name <;> rfl

theorem set_holding : (holding retired held).heap.set retired (some next) =
    (holding retired next).heap := by
  unfold FrameHeap.set holding among
  simp

theorem resume_holding {δ : Type u} [AddressBusAddressable δ] (registers : CpuRegisters)
    (bus : AddressBus δ) : (holding retired held).resume .handler registers bus =
      match held.handle with
      | .done => .error .finished
      | .suspended rest => .ok ((rest.resume registers bus).toSegment,
          holding retired (held.suspendedAt (rest.resume registers bus).next)) := by
  rw [resume_held rfl (frame_holding retired held)]
  cases held.handle with
  | done => rfl
  | suspended rest =>
    dsimp only
    rw [set_holding]
    rfl

/-- `~Cpu()` leaves the frames of its handlers as dead as the objects. -/
theorem destruct_holding : ∃ ended, (holding retired held).destruct .handler = .ok ended ∧
    ∀ frame ∈ ended.heap.frames, frame = none := by
  refine ⟨_, destruct_held rfl (frame_holding retired held), fun frame member => ?_⟩
  unfold FrameHeap.set holding among at member
  simp at member
  tauto

end Holding
end HandlerObjects

section Calls
variable {δ : Type u}

def OwningOutcome.error : OwningOutcome δ → Option RuntimeError
  | .returned _ => none
  | .threw error _ => some error
  | .undefinedBehaviour _ => none

def OwningReport.face (report : OwningReport δ) : StepReport.Face :=
  ⟨report.transactions, report.fetched, report.outcome.cpu.map OwningCpu.registers,
    report.outcome.error⟩

/-- The call put another coroutine in the place of a finished one. -/
def StepReport.Face.replaces (face : StepReport.Face) : Bool :=
  face.fetched.isSome && face.error.isNone

def Cpu.owning (retired : Nat) (cpu : Cpu δ) : OwningCpu δ :=
  ⟨cpu.bus, cpu.registers, .holding retired cpu.handler⟩

def StepReport.owning (retired : Nat) (report : StepReport δ) : OwningReport δ :=
  ⟨report.transactions, report.fetched, match report.outcome with
    | .returned cpu => .returned (cpu.owning (retired + report.face.replaces.toNat))
    | .threw error cpu => .threw error (cpu.owning retired)
    | .undefinedBehaviour => .undefinedBehaviour .finished⟩

variable (retired : Nat) (cpu : Cpu δ)

theorem face_owning (report : StepReport δ) : (report.owning retired).face = report.face := by
  obtain ⟨transactions, fetched, outcome⟩ := report
  cases outcome <;> rfl

/-- Only a call that returns can replace the coroutine. -/
theorem cpu_owning (report : StepReport δ) : (report.owning retired).outcome.cpu =
    report.outcome.cpu.map (Cpu.owning (retired + report.face.replaces.toNat)) := by
  obtain ⟨transactions, fetched, outcome⟩ := report
  cases outcome with
  | returned cpu => rfl
  | undefinedBehaviour => rfl
  | threw error cpu =>
    have kept : (StepReport.mk transactions fetched (.threw error cpu)).face.replaces = false :=
      Bool.and_false _
    rw [kept]
    rfl

theorem misuse_owning {misuse : HandleMisuse} (report : StepReport δ)
    (misused : (report.owning retired).outcome = .undefinedBehaviour misuse) :
    misuse = .finished := by
  obtain ⟨transactions, fetched, outcome⟩ := report
  cases outcome with
  | returned cpu => cases misused
  | threw error cpu => cases misused
  | undefinedBehaviour =>
    cases misused
    rfl

theorem rethrow_owning {error : RuntimeError} (raised : cpu.handler.exception = some error) :
    (cpu.owning retired).rethrow = .threw error (cpu.owning retired) := by
  have thrown := HandlerObjects.exception_holding retired cpu.handler
  rw [raised] at thrown
  simp only [OwningCpu.rethrow, Cpu.owning, thrown]

variable [AddressBusAddressable δ]

theorem fetch_owning (transactions : List (Transaction Word Byte)) :
    (cpu.owning retired).fetch transactions = (cpu.fetch transactions).owning retired := by
  unfold OwningCpu.fetch Cpu.fetch Cpu.owning
  dsimp only
  split
  · next error created =>
    rw [created]
    rfl
  · next frame created =>
    rw [created, HandlerObjects.assignCall_holding]
    rfl

theorem step_owning : (cpu.owning retired).step = cpu.step.owning retired := by
  obtain ⟨bus, registers, ⟨handle, exception⟩⟩ := cpu
  have raised := HandlerObjects.hasException_holding retired ⟨handle, exception⟩
  have resumed := HandlerObjects.resume_holding retired ⟨handle, exception⟩ registers bus
  cases exception with
  | some error =>
    have thrown : _ = OwningOutcome.threw error _ :=
      rethrow_owning retired ⟨bus, registers, ⟨handle, some error⟩⟩ rfl
    simp only [OwningCpu.step, Cpu.step, Cpu.owning, raised, Option.isSome]
    exact congrArg _ thrown
  | none =>
    cases handle with
    | done =>
      simp only [OwningCpu.step, Cpu.step, Cpu.owning, raised, resumed, Option.isSome]
      rfl
    | suspended rest =>
      simp only [OwningCpu.step, Cpu.step, Cpu.owning, raised, resumed, Option.isSome,
        HandlerObjects.isDone_holding]
      cases (rest.resume registers bus).next with
      | suspended next => rfl
      | returned value =>
        dsimp only [InstructionHandler.suspendedAt]
        exact fetch_owning retired ⟨_, _, ⟨.done, none⟩⟩ _
      | threw error =>
        dsimp only [InstructionHandler.suspendedAt]
        exact fetch_owning retired ⟨_, _, ⟨.done, some error⟩⟩ _

theorem call_owning : (cpu.owning retired).call.2 =
    cpu.call.2.map (Cpu.owning (retired + cpu.call.1.face.replaces.toNat)) := by
  change (cpu.owning retired).step.outcome.cpu = _
  rw [step_owning, cpu_owning]
  rfl

/-- The two processors run side by side; the number of frames that have been destroyed
is the number of calls that replaced a coroutine. -/
theorem run_owning (count : Nat) :
    ((cpu.owning retired).run count).map OwningReport.face = (cpu.run count).map StepReport.face ∧
    (cpu.owning retired).after count = (cpu.after count).map (Cpu.owning
      (retired + ((cpu.run count).map StepReport.face).countP StepReport.Face.replaces)) := by
  induction count generalizing retired cpu with
  | zero => exact ⟨rfl, rfl⟩
  | succ count ih =>
    have called := call_owning retired cpu
    have shown : (cpu.owning retired).call.1.face = cpu.call.1.face := by
      change (cpu.owning retired).step.face = _
      rw [step_owning, face_owning]
      rfl
    unfold OwningCpu.run OwningCpu.after Cpu.run Cpu.after
    cases next : cpu.call.2 with
    | none =>
      rw [next] at called
      rw [Transition.run_last _ next, Transition.run_last _ called, Transition.after_succ,
        Transition.after_succ, next, called]
      exact ⟨congrArg (fun face => [face]) shown, rfl⟩
    | some reached =>
      rw [next] at called
      obtain ⟨runs, arrives⟩ := ih (retired + cpu.call.1.face.replaces.toNat) reached
      rw [Transition.run_next _ next, Transition.run_next _ called, Transition.after_succ,
        Transition.after_succ, next, called, List.map_cons, List.map_cons, List.countP_cons, shown]
      refine ⟨congrArg _ runs, arrives.trans ?_⟩
      have total (others : Nat) (replaced : Bool) :
          retired + replaced.toNat + others = retired + (others + if replaced then 1 else 0) := by
        cases replaced with
        | false => simp
        | true =>
          simp
          omega
      rw [total]
      rfl

end Calls
end Processor
end GbEmulator
