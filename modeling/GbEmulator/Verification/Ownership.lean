import GbEmulator.Refinement.Ownership

/-! Ownership of coroutine frames: by any objects a program may name, and by the one
object of a processor. -/
namespace GbEmulator
open Ownership

/-- What a program holds is live, what is live has one holder, and a program that has
ended all its objects has destroyed all their frames. -/
theorem handlers_owned {ν : Type} {δ : Type u} [AddressBusAddressable δ] [DecidableEq ν]
    (operations : List (HandlerOperation ν δ)) :
    match HandlerObjects.perform operations {} with
    | .error misuse => misuse ≠ .dangling
    | .ok objects =>
      (∀ name id, objects.handles name = some (some id) → objects.heap.Live id) ∧
      (∀ id, objects.heap.Live id → ∃! name, objects.handles name = some (some id)) ∧
      ((∀ name, objects.handles name = none) → ∀ frame ∈ objects.heap.frames, frame = none) := by
  have kept : Undangled HandlerObjects.Owned (HandlerObjects.perform operations {}) :=
    run_undangled Owned.empty operations
  cases performed : HandlerObjects.perform operations {} with
  | error misuse => rwa [performed] at kept
  | ok objects =>
    rw [performed] at kept
    refine ⟨fun name id held => ?_, fun id => kept.existsUnique, fun ended => ?_⟩
    · exact (kept.live id).mpr ⟨name, held⟩
    · exact objects.heap.dead_frames (kept.nothing_live ended)

/-- Between two calls one frame is live, and `m_handler` owns it. Each call that fetches an
opcode and returns has replaced a frame, a factory that throws leaves none behind, and
the destructor destroys the last. Nothing is misused but a finished coroutine. -/
theorem cpu_owns_frame {δ : Type u} [AddressBusAddressable δ] (bus : AddressBus δ) (count : Nat) :
    ∃ start, OwningCpu.construct bus = .ok start ∧
      (start.run count).map OwningReport.face =
        ((Cpu.construct bus).run count).map StepReport.face ∧
      ∀ cpu, start.after count = some cpu →
        (∃ id frame, cpu.objects.handles .handler = some (some id) ∧
          cpu.objects.heap.frame id = some frame ∧
          (∀ other, cpu.objects.heap.Live other ↔ other = id) ∧
          cpu.objects.heap.frames.length = 1 + ((start.run count).map OwningReport.face).countP
            StepReport.Face.replaces) ∧
        (∀ misuse, cpu.step.outcome = .undefinedBehaviour misuse → misuse = .finished) ∧
        ∃ ended, cpu.destruct = .ok ended ∧ ∀ frame ∈ ended.heap.frames, frame = none := by
  have constructed : OwningCpu.construct bus = .ok ((Cpu.construct bus).owning 0) := by
    unfold OwningCpu.construct
    rw [HandlerObjects.call_empty]
    rfl
  obtain ⟨shown, reaches⟩ := run_owning 0 (Cpu.construct bus) count
  refine ⟨_, constructed, shown, fun cpu arrived => ?_⟩
  rw [reaches, Nat.zero_add, ← shown] at arrived
  generalize ((((Cpu.construct bus).owning 0).run count).map OwningReport.face).countP
    StepReport.Face.replaces = retired at arrived ⊢
  obtain ⟨plain, -, rfl⟩ := Option.map_eq_some_iff.mp arrived
  refine ⟨⟨retired, plain.handler, rfl, HandlerObjects.frame_holding .., fun other => ?_, ?_⟩,
    fun misuse misused => ?_, HandlerObjects.destruct_holding retired plain.handler⟩
  · exact HandlerObjects.live_holding retired plain.handler other
  · exact (HandlerObjects.fresh_holding retired plain.handler).trans (Nat.add_comm retired 1)
  · rw [step_owning] at misused
    exact misuse_owning retired plain.step misused

end GbEmulator
