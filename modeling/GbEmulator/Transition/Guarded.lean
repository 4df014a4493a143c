import GbEmulator.Transition.Runs

/-! Lockstep for as long as a condition on the observations holds, as one direction
of a simulation between systems that agree only on part of what they could do. -/
namespace GbEmulator.Transition

variable {σ : Type u} {τ : Type v} {ω : Type w} {π : Type x} {ν : Type y}

structure GuardedLockstep (step : σ → ω × Option σ) (view : ω → ν) (other : τ → π × Option τ)
    (otherView : π → ν) (related : σ → τ → Prop) (allowed : ω → Prop) : Prop where
  shown : ∀ {state image}, related state image → allowed (step state).1 →
    view (step state).1 = otherView (other image).1
  next : ∀ {state image}, related state image → allowed (step state).1 →
    Option.Rel related (step state).2 (other image).2

variable {step : σ → ω × Option σ} {view : ω → ν} {other : τ → π × Option τ}
  {otherView : π → ν} {related : σ → τ → Prop} {allowed : ω → Prop}

theorem GuardedLockstep.run_after
    (lockstep : GuardedLockstep step view other otherView related allowed) {state : σ} {image : τ}
    (start : related state image) (count : Nat)
    (guarded : ∀ seen ∈ run step count state, allowed seen) :
    (run step count state).map view = (Transition.run other count image).map otherView ∧
      Option.Rel related (after step count state) (Transition.after other count image) := by
  induction count generalizing state image with
  | zero => exact ⟨rfl, .some start⟩
  | succ count ih =>
    have here : allowed (step state).1 := guarded _ (List.mem_cons_self)
    have continued := lockstep.next start here
    have shown := lockstep.shown start here
    cases stepped : (step state).2 with
    | none =>
      rw [stepped] at continued
      cases steppedImage : (other image).2 with
      | some nextImage => rw [steppedImage] at continued; cases continued
      | none =>
        rw [run_last step stepped, run_last other steppedImage, after_succ, after_succ, stepped,
          steppedImage]
        exact ⟨congrArg (fun seen => [seen]) shown, .none⟩
    | some next =>
      rw [stepped] at continued
      cases steppedImage : (other image).2 with
      | none => rw [steppedImage] at continued; cases continued
      | some nextImage =>
        rw [steppedImage] at continued
        obtain ⟨kept⟩ := continued
        rw [run_next step stepped] at guarded
        obtain ⟨runs, arrived⟩ := ih kept fun seen member =>
          guarded seen (List.mem_cons_of_mem _ member)
        rw [run_next step stepped, run_next other steppedImage, after_succ, after_succ, stepped,
          steppedImage, List.map_cons, List.map_cons, shown, runs]
        exact ⟨rfl, arrived⟩

end GbEmulator.Transition
