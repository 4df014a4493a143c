import GbEmulator.Coroutine.Execution
import Mathlib.Data.List.Forall2

/-! Coroutines over two stores that answer alike. The stores may differ wherever a
body never reads, so what it leaves behind depends on its footprint alone. -/
namespace GbEmulator

/-- Reads are confined to `inside`; writes may go anywhere. -/
def Transaction.ReadsWithin (inside : α → Prop) : Transaction α β → Prop
  | .read address _ => inside address
  | .write _ _ => True

/-- Related stores answer alike inside and stay related whatever both are told. -/
structure Store.Alike [Store μ α β] [Store ν α β] (inside : α → Prop) (related : μ → ν → Prop) :
    Prop where
  load : ∀ {memory image}, related memory image → ∀ address, inside address →
    Store.load memory address = Store.load image address
  store : ∀ {memory image}, related memory image → ∀ address data,
    related (Store.store memory address data) (Store.store image address data)

structure Segment.Alike (related : μ → ν → Prop) (segment : Segment σ μ α β)
    (image : Segment σ ν α β) : Prop where
  state : segment.state = image.state
  memory : related segment.memory image.memory
  transactions : segment.transactions = image.transactions

theorem Segment.Alike.map {related : μ → ν → Prop} {segment : Segment σ μ α β}
    {image : Segment σ ν α β} (alike : segment.Alike related image) (view : σ → τ) :
    (segment.map view).Alike related (image.map view) :=
  ⟨congrArg view alike.state, alike.memory, alike.transactions⟩

structure Resumption.Alike (related : μ → ν → Prop) (resumed : Resumption σ μ α β ε γ)
    (image : Resumption σ ν α β ε γ) : Prop
    extends Segment.Alike related resumed.toSegment image.toSegment where
  next : resumed.next = image.next

namespace Coroutine
variable {σ α β ε γ : Type} {μ : Type u} {ν : Type v} [Store μ α β] [Store ν α β]
  {inside : α → Prop} {related : μ → ν → Prop} {memory : μ} {image : ν}

/-- What has been accessed already stays in front of what a resumption reports. -/
theorem resumeFrom_appends (body : Coroutine σ α β ε γ) (state : σ) (memory : μ)
    (done : List (Transaction α β)) :
    done <+: (body.resumeFrom state memory done).transactions := by
  induction body generalizing state memory done with
  | ret value => exact List.prefix_rfl
  | throw error => exact List.prefix_rfl
  | getState next ih => exact ih state state memory done
  | setState next body ih => exact ih next memory done
  | read address next ih => exact (List.prefix_append done _).trans (ih _ state memory _)
  | write address data next ih => exact (List.prefix_append done _).trans (ih state _ _)
  | yield next ih => exact List.prefix_rfl

theorem resumeFrom_alike (alike : Store.Alike inside related) (body : Coroutine σ α β ε γ)
    (state : σ) (start : related memory image) (done : List (Transaction α β))
    (within : ∀ access ∈ (body.resumeFrom state memory done).transactions,
      access.ReadsWithin inside) :
    (body.resumeFrom state memory done).Alike related (body.resumeFrom state image done) := by
  induction body generalizing state memory image done with
  | ret value => exact ⟨⟨rfl, start, rfl⟩, rfl⟩
  | throw error => exact ⟨⟨rfl, start, rfl⟩, rfl⟩
  | getState next ih => exact ih state state start done within
  | setState next body ih => exact ih next start done within
  | read address next ih =>
    have reported : Transaction.read address (Store.load memory address) ∈
        ((next (Store.load memory address)).resumeFrom state memory
          (done ++ [.read address (Store.load memory address)])).transactions :=
      (resumeFrom_appends _ state memory _).subset (List.mem_append_right _ List.mem_cons_self)
    have same := alike.load start address (within _ reported)
    have continued := ih _ state start _ within
    rw [same] at continued
    simpa only [resumeFrom, same] using continued
  | write address data next ih => exact ih state (alike.store start address data) _ within
  | yield next ih => exact ⟨⟨rfl, start, rfl⟩, rfl⟩

theorem resume_alike (alike : Store.Alike inside related) (body : Coroutine σ α β ε γ) (state : σ)
    (start : related memory image)
    (within : ∀ access ∈ (body.resume state memory).transactions, access.ReadsWithin inside) :
    (body.resume state memory).Alike related (body.resume state image) :=
  resumeFrom_alike alike body state start [] within

theorem readsWithin_everywhere (access : Transaction α β) :
    access.ReadsWithin fun _ => True := by
  cases access <;> trivial

/-- Over stores that answer alike everywhere the whole runs are alike. -/
theorem segments_alike (alike : Store.Alike (fun _ => True) related) (body : Coroutine σ α β ε γ)
    (state : σ) (start : related memory image) :
    List.Forall₂ (Segment.Alike related) (body.segments state memory)
      (body.segments state image) := by
  generalize count : (body.segments state memory).length = length
  induction length generalizing body state memory image with
  | zero => exact absurd (List.length_eq_zero_iff.mp count) (segments_ne_nil body state memory)
  | succ length ih =>
    have resumed := resume_alike alike body state start fun access _ => readsWithin_everywhere access
    have peeled := body.segments_resume state memory
    have peeledImage := body.segments_resume state image
    dsimp only at peeled peeledImage
    rw [← resumed.next] at peeledImage
    cases position : (body.resume state memory).next with
    | suspended next =>
      rw [position] at peeled peeledImage
      rw [peeled, List.length_cons, Nat.succ_inj] at count
      have continued := ih next _ resumed.memory count
      rw [resumed.state] at continued
      rw [peeled, peeledImage, resumed.state]
      exact .cons resumed.toAlike continued
    | returned value =>
      rw [position] at peeled peeledImage
      rw [peeled, peeledImage]
      exact .cons resumed.toAlike .nil
    | threw error =>
      rw [position] at peeled peeledImage
      rw [peeled, peeledImage]
      exact .cons resumed.toAlike .nil

end Coroutine
end GbEmulator
