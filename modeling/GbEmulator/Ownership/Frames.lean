import Mathlib.Logic.Equiv.Basic

/-! Heap frames behind unique owners. A name is outside its lifetime, holds nothing, or
holds one frame; ownership is a bijection between the live frames and the names that
hold one, and moving a frame permutes the names. -/
namespace GbEmulator.Ownership

/-- In the order of their creation, so that no frame ever gets the identity of another. -/
abbrev FrameId := Nat

/-- `none` is a frame that has been destroyed. -/
structure FrameHeap (φ : Type u) where
  frames : List (Option φ) := []

namespace FrameHeap
variable {φ : Type u} (heap : FrameHeap φ)

def frame (id : FrameId) : Option φ := (heap.frames[id]?).join

def fresh : FrameId := heap.frames.length

def create (frame : φ) : FrameHeap φ := ⟨heap.frames ++ [some frame]⟩

def set (id : FrameId) (frame : Option φ) : FrameHeap φ := ⟨heap.frames.set id frame⟩

def Live (id : FrameId) : Prop := ∃ frame, heap.frame id = some frame

theorem Live.bound {heap : FrameHeap φ} {id : FrameId} (live : heap.Live id) :
    id < heap.frames.length := by
  obtain ⟨frame, held⟩ := live
  by_contra beyond
  rw [FrameHeap.frame, List.getElem?_eq_none (Nat.le_of_not_lt beyond)] at held
  cases held

theorem frame_create (frame : φ) (id : FrameId) :
    (heap.create frame).frame id = if id = heap.fresh then some frame else heap.frame id := by
  unfold FrameHeap.frame create fresh
  by_cases here : id = heap.frames.length
  · rw [if_pos here, here, List.getElem?_concat_length]
    rfl
  · rw [if_neg here]
    by_cases bound : id < heap.frames.length
    · rw [List.getElem?_append_left bound]
    · have beyond : heap.frames.length + 1 ≤ id :=
        Nat.lt_of_le_of_ne (Nat.le_of_not_lt bound) (Ne.symm here)
      rw [List.getElem?_eq_none (List.length_append ▸ beyond),
        List.getElem?_eq_none (Nat.le_of_not_lt bound)]

theorem frame_set {id : FrameId} (live : heap.Live id) (frame : Option φ) (other : FrameId) :
    (heap.set id frame).frame other = if other = id then frame else heap.frame other := by
  unfold FrameHeap.frame set
  by_cases here : other = id
  · rw [if_pos here, here, List.getElem?_set_self live.bound, Option.join_some]
  · rw [if_neg here, List.getElem?_set_ne (Ne.symm here)]

theorem fresh_dead : ¬heap.Live heap.fresh := fun live => Nat.lt_irrefl _ live.bound

theorem dead_frames (dead : ∀ id, ¬heap.Live id) : ∀ frame ∈ heap.frames, frame = none := by
  intro frame member
  obtain ⟨id, bound, rfl⟩ := List.mem_iff_getElem.mp member
  cases held : heap.frames[id] with
  | none => rfl
  | some frame =>
    have live : heap.frame id = some frame := by
      rw [FrameHeap.frame, List.getElem?_eq_getElem bound, held, Option.join_some]
    exact absurd ⟨frame, live⟩ (dead id)

theorem live_create (frame : φ) (id : FrameId) :
    (heap.create frame).Live id ↔ id = heap.fresh ∨ heap.Live id := by
  unfold Live
  rw [frame_create]
  by_cases here : id = heap.fresh
  · simp [here]
  · simp [here]

theorem live_destroy {id : FrameId} (live : heap.Live id) (other : FrameId) :
    (heap.set id none).Live other ↔ other ≠ id ∧ heap.Live other := by
  unfold Live
  rw [frame_set heap live]
  by_cases here : other = id
  · simp [here]
  · simp [here]

theorem live_update {id : FrameId} (live : heap.Live id) (frame : φ) (other : FrameId) :
    (heap.set id (some frame)).Live other ↔ heap.Live other := by
  have held := live
  unfold Live at held ⊢
  rw [frame_set heap live]
  by_cases here : other = id
  · simp [here, held]
  · simp [here]

end FrameHeap

/-- Names of objects: `none` outside the lifetime, `some none` for a null handle. -/
abbrev Handles (ν : Type u) := ν → Option (Option FrameId)

/-- Each live frame has exactly one owner, and nobody holds any other frame. -/
structure Owned {ν : Type u} {φ : Type v} (heap : FrameHeap φ) (handles : Handles ν) : Prop where
  live : ∀ id, heap.Live id ↔ ∃ name, handles name = some (some id)
  unique : ∀ {name other id}, handles name = some (some id) → handles other = some (some id) →
    name = other

namespace Owned
variable {ν : Type u} {φ : Type v} {heap : FrameHeap φ} {handles : Handles ν}

theorem empty : Owned (ν := ν) (φ := φ) {} fun _ => none where
  live id := by
    constructor
    · rintro ⟨frame, held⟩
      cases held
    · rintro ⟨name, held⟩
      cases held
  unique held := by cases held

theorem existsUnique (owned : Owned heap handles) {id : FrameId} (live : heap.Live id) :
    ∃! name, handles name = some (some id) := by
  obtain ⟨name, held⟩ := (owned.live id).mp live
  exact ⟨name, held, fun other holds => owned.unique holds held⟩

/-- Nothing is live when nobody is. -/
theorem nothing_live (owned : Owned heap handles) (ended : ∀ name, handles name = none)
    (id : FrameId) : ¬heap.Live id := by
  rw [owned.live]
  rintro ⟨name, held⟩
  rw [ended] at held
  cases held

/-- Handles may be passed around among the names in any way. -/
theorem permute (owned : Owned heap handles) (moved : ν ≃ ν) : Owned heap (handles ∘ moved) where
  live id := by
    rw [owned.live]
    constructor
    · rintro ⟨name, held⟩
      exact ⟨moved.symm name, by rw [Function.comp_apply, moved.apply_symm_apply, held]⟩
    · rintro ⟨name, held⟩
      exact ⟨moved name, held⟩
  unique held holds := moved.injective (owned.unique held holds)

/-- A change of the frames themselves. -/
theorem update (owned : Owned heap handles) {id : FrameId} (live : heap.Live id) (frame : φ) :
    Owned (heap.set id (some frame)) handles :=
  ⟨fun other => (heap.live_update live frame other).trans (owned.live other), owned.unique⟩

variable [DecidableEq ν]

/-- A name that holds no frame begins or ends its lifetime. -/
theorem idle (owned : Owned heap handles) {name : ν} (empty : ∀ id, handles name ≠ some (some id))
    {handle : Option (Option FrameId)} (none : ∀ id, handle ≠ some (some id)) :
    Owned heap (Function.update handles name handle) := by
  have same (other : ν) (id : FrameId) : Function.update handles name handle other = some (some id) ↔
      handles other = some (some id) := by
    by_cases here : other = name
    · subst here
      rw [Function.update_self]
      exact ⟨fun held => absurd held (none id), fun held => absurd held (empty id)⟩
    · rw [Function.update_of_ne here]
  constructor
  · intro id
    rw [owned.live]
    exact exists_congr fun other => (same other id).symm
  · intro first second id held holds
    exact owned.unique ((same _ _).mp held) ((same _ _).mp holds)

theorem create (owned : Owned heap handles) {name : ν} (empty : ∀ id, handles name ≠ some (some id))
    (frame : φ) :
    Owned (heap.create frame) (Function.update handles name (some (some heap.fresh))) := by
  have unheld (other : ν) : handles other ≠ some (some heap.fresh) := fun held =>
    heap.fresh_dead ((owned.live _).mpr ⟨other, held⟩)
  have owners (other : ν) (id : FrameId) :
      Function.update handles name (some (some heap.fresh)) other = some (some id) ↔
        (other = name ∧ id = heap.fresh) ∨ handles other = some (some id) := by
    by_cases here : other = name
    · subst here
      rw [Function.update_self, Option.some_inj, Option.some_inj]
      simp [empty, eq_comm]
    · rw [Function.update_of_ne here]
      simp [here]
  constructor
  · intro id
    rw [heap.live_create, owned.live]
    constructor
    · rintro (rfl | ⟨other, held⟩)
      · exact ⟨name, Function.update_self ..⟩
      · exact ⟨other, (owners other id).mpr (.inr held)⟩
    · rintro ⟨other, held⟩
      rcases (owners other id).mp held with ⟨-, rfl⟩ | held
      · exact .inl rfl
      · exact .inr ⟨other, held⟩
  · intro first second id held holds
    rcases (owners _ _).mp held with ⟨rfl, rfl⟩ | held
    · rcases (owners _ _).mp holds with ⟨rfl, -⟩ | holds
      · rfl
      · exact absurd holds (unheld second)
    · rcases (owners _ _).mp holds with ⟨-, rfl⟩ | holds
      · exact absurd held (unheld first)
      · exact owned.unique held holds

theorem destroy (owned : Owned heap handles) {name : ν} {id : FrameId}
    (held : handles name = some (some id)) :
    Owned (heap.set id none) (Function.update handles name none) := by
  have live : heap.Live id := (owned.live id).mpr ⟨name, held⟩
  have owners (other : ν) (kept : FrameId) :
      Function.update handles name none other = some (some kept) ↔
        other ≠ name ∧ handles other = some (some kept) := by
    by_cases here : other = name
    · subst here
      rw [Function.update_self]
      simp
    · rw [Function.update_of_ne here]
      simp [here]
  constructor
  · intro kept
    rw [heap.live_destroy live, owned.live]
    constructor
    · rintro ⟨distinct, other, holds⟩
      refine ⟨other, (owners other kept).mpr ⟨?_, holds⟩⟩
      rintro rfl
      exact distinct (Option.some.inj (Option.some.inj (holds.symm.trans held)))
    · rintro ⟨other, holds⟩
      obtain ⟨distinct, holds⟩ := (owners other kept).mp holds
      refine ⟨?_, other, holds⟩
      rintro rfl
      exact distinct (owned.unique holds held)
  · intro first second kept held holds
    exact owned.unique ((owners _ _).mp held).2 ((owners _ _).mp holds).2

end Owned
end GbEmulator.Ownership
