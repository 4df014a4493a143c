import Mathlib.Logic.Basic

/-! Runs of deterministic systems that show one observation for each step and may
stop: the trace and the state after a number of steps, invariants, and lockstep
simulation. -/
namespace GbEmulator.Transition

variable {σ : Type u} {τ : Type v} {ω : Type w} {π : Type x} {ν : Type y}

/-- The observations of at most `count` steps. -/
def run (step : σ → ω × Option σ) : Nat → σ → List ω
  | 0, _ => []
  | count + 1, state =>
      let (observation, next) := step state
      observation :: match next with
        | some next => run step count next
        | none => []

/-- The state from which step number `count` is taken, if the system gets there. -/
def after (step : σ → ω × Option σ) : Nat → σ → Option σ
  | 0, state => some state
  | count + 1, state => (step state).2.bind (after step count)

section
variable (step : σ → ω × Option σ)

theorem run_zero (state : σ) : run step 0 state = [] := rfl

theorem run_next {state next : σ} (stepped : (step state).2 = some next) :
    run step (count + 1) state = (step state).1 :: run step count next := by
  simp only [run, stepped]

theorem run_last {state : σ} (stopped : (step state).2 = none) :
    run step (count + 1) state = [(step state).1] := by
  simp only [run, stopped]

theorem run_one (state : σ) : run step 1 state = [(step state).1] := by
  cases stepped : (step state).2 with
  | none => exact run_last step stepped
  | some next => exact run_next step stepped

@[simp] theorem after_zero (state : σ) : after step 0 state = some state := rfl

theorem after_succ (state : σ) :
    after step (count + 1) state = (step state).2.bind (after step count) := rfl

theorem after_add (first second : Nat) (state : σ) :
    after step (first + second) state = (after step first state).bind (after step second) := by
  induction first generalizing state with
  | zero => rw [Nat.zero_add, after_zero, Option.bind_some]
  | succ count ih =>
    rw [Nat.add_right_comm, after_succ, after_succ, Option.bind_assoc]
    exact congrArg _ (funext fun next => ih next)

theorem after_next (count : Nat) (state : σ) :
    after step (count + 1) state = (after step count state).bind fun last => (step last).2 := by
  rw [after_add]
  refine congrArg _ (funext fun last => ?_)
  rw [after_succ]
  cases (step last).2 <;> rfl

/-- Observation number `index` of a run is made by the state after `index` steps. -/
theorem run_getElem? (count index : Nat) (state : σ) :
    (run step count state)[index]? =
      if index < count then (after step index state).map fun reached => (step reached).1
      else none := by
  induction count generalizing index state with
  | zero => rfl
  | succ count ih =>
    cases stepped : (step state).2 with
    | none =>
      rw [run_last step stepped]
      cases index with
      | zero => simp
      | succ index => simp [after_succ, stepped]
    | some next =>
      rw [run_next step stepped]
      cases index with
      | zero => simp
      | succ index => simp [after_succ, stepped, ih]

theorem run_append {state reached : σ} (first second : Nat)
    (arrived : after step first state = some reached) :
    run step (first + second) state = run step first state ++ run step second reached := by
  induction first generalizing state with
  | zero =>
    obtain rfl := Option.some.inj arrived
    rw [Nat.zero_add]
    rfl
  | succ count ih =>
    obtain ⟨next, stepped, continued⟩ := Option.bind_eq_some_iff.mp arrived
    rw [Nat.add_right_comm, run_next step stepped, run_next step stepped, ih continued,
      List.cons_append]

/-- What one step preserves, every run preserves. -/
theorem after_invariant {invariant : σ → Prop}
    (preserved : ∀ state next, invariant state → (step state).2 = some next → invariant next)
    {state reached : σ} (start : invariant state) (arrived : after step count state = some reached) :
    invariant reached := by
  induction count generalizing state with
  | zero => exact Option.some.inj arrived ▸ start
  | succ count ih =>
    obtain ⟨next, stepped, continued⟩ := Option.bind_eq_some_iff.mp arrived
    exact ih (preserved state next start stepped) continued

end

/-- Two systems that stay related step by step, and whose related steps look the
same, have traces that look the same. -/
structure Lockstep (step : σ → ω × Option σ) (view : ω → ν) (other : τ → π × Option τ)
    (otherView : π → ν) (related : σ → τ → Prop) : Prop where
  shown : ∀ {state image}, related state image → view (step state).1 = otherView (other image).1
  next : ∀ {state image}, related state image → Option.Rel related (step state).2 (other image).2

section
variable {step : σ → ω × Option σ} {view : ω → ν} {other : τ → π × Option τ}
  {otherView : π → ν} {related : σ → τ → Prop}

theorem Lockstep.run (lockstep : Lockstep step view other otherView related)
    {state : σ} {image : τ} (start : related state image) (count : Nat) :
    (run step count state).map view = (Transition.run other count image).map otherView := by
  induction count generalizing state image with
  | zero => rfl
  | succ count ih =>
    have continued := lockstep.next start
    simp only [Transition.run, List.map_cons, lockstep.shown start]
    generalize (step state).2 = next at continued ⊢
    generalize (other image).2 = nextImage at continued ⊢
    cases continued with
    | none => rfl
    | some kept => exact congrArg _ (ih kept)

theorem Lockstep.after (lockstep : Lockstep step view other otherView related)
    {state : σ} {image : τ} (start : related state image) (count : Nat) :
    Option.Rel related (after step count state) (Transition.after other count image) := by
  induction count generalizing state image with
  | zero => exact .some start
  | succ count ih =>
    rw [after_succ, after_succ]
    have continued := lockstep.next start
    generalize (step state).2 = next at continued ⊢
    generalize (other image).2 = nextImage at continued ⊢
    cases continued with
    | none => exact .none
    | some kept => exact ih kept

end
end GbEmulator.Transition
