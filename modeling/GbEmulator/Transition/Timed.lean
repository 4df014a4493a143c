import Mathlib.Logic.Basic

/-! Deterministic systems whose steps take time, and total correctness over them. A
loop is a family of assertions that counts down. -/
namespace GbEmulator.Transition

variable {σ : Type u}

/-- Steps that take `time` together. -/
inductive Timed (next : σ → Option (Nat × σ)) : σ → Nat → σ → Prop where
  | refl (state) : Timed next state 0 state
  | step (taken : next state = some (time, following)) (rest : Timed next following more last) :
      Timed next state (time + more) last

namespace Timed
variable {next : σ → Option (Nat × σ)} {state middle last : σ}

theorem single (taken : next state = some (time, last)) : Timed next state time last :=
  .step taken (.refl last)

theorem trans (first : Timed next state time middle) (second : Timed next middle more last) :
    Timed next state (time + more) last := by
  induction first with
  | refl => rwa [Nat.zero_add]
  | step taken rest ih =>
    rw [Nat.add_assoc]
    exact .step taken (ih second)

/-- What steps keep unless they are taken from a broken state holds up to such a state. -/
theorem invariant_until {holds broken : σ → Prop}
    (kept : ∀ {state time following}, holds state → next state = some (time, following) →
      0 < time ∧ (holds following ∨ broken state))
    (run : Timed next state time last) (start : holds state) :
    holds last ∨ ∃ earlier before, earlier < time ∧ Timed next state earlier before ∧
      holds before ∧ broken before := by
  induction run with
  | refl => exact .inl start
  | @step state time following more last taken rest ih =>
    obtain ⟨positive, stays | breaks⟩ := kept start taken
    · rcases ih stays with ends | ⟨earlier, before, early, run, held, breaks⟩
      · exact .inl ends
      · exact .inr ⟨_, before, Nat.add_lt_add_left early time, .step taken run, held, breaks⟩
    · exact .inr ⟨0, state, Nat.add_pos_left positive more, .refl state, start, breaks⟩

theorem stuck (run : Timed next state time last) (halted : next state = none) :
    time = 0 ∧ last = state := by
  cases run with
  | refl => exact ⟨rfl, rfl⟩
  | step taken rest =>
    rw [halted] at taken
    cases taken

end Timed

/-- From every state that meets `before` a run of that time leads to one that meets
`after`. -/
def Triple (next : σ → Option (Nat × σ)) (before : σ → Prop) (time : Nat) (after : σ → Prop) : Prop :=
  ∀ state, before state → ∃ last, Timed next state time last ∧ after last

namespace Triple
variable {next : σ → Option (Nat × σ)} {before middle after : σ → Prop}

theorem skip (before : σ → Prop) : Triple next before 0 before :=
  fun state start => ⟨state, .refl state, start⟩

theorem seq (first : Triple next before time middle) (second : Triple next middle more after) :
    Triple next before (time + more) after := by
  intro state start
  obtain ⟨reached, run, held⟩ := first state start
  obtain ⟨last, continued, done⟩ := second reached held
  exact ⟨last, run.trans continued, done⟩

/-- A body that counts `invariant` down, repeated until the count is at zero. -/
theorem loop {invariant : Nat → σ → Prop} {body : Nat}
    (iteration : ∀ remaining, Triple next (invariant (remaining + 1)) body (invariant remaining))
    (count : Nat) : Triple next (invariant count) (count * body) (invariant 0) := by
  induction count with
  | zero =>
    rw [Nat.zero_mul]
    exact skip _
  | succ count ih =>
    rw [Nat.succ_mul, Nat.add_comm (count * body)]
    exact (iteration count).seq ih

end Triple
end GbEmulator.Transition
