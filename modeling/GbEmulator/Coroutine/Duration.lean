import GbEmulator.Coroutine.Execution

/-! How many resumptions a coroutine takes on every path. As in a contract over its
accesses, the state and the store may be anything whenever they are inspected, so a
bound survives any interference between two resumptions. -/
namespace GbEmulator.Coroutine
variable {σ α β ε γ δ : Type} {μ : Type u} [Store μ α β]

/-- No path throws, and every path returns a value after a number of suspensions that
`returns` admits; `count` of them have been made. -/
def Takes (body : Coroutine σ α β ε γ) (returns : γ → Nat → Prop) (count : Nat) : Prop :=
  match body with
  | .ret value => returns value count
  | .throw _ => False
  | .getState next => ∀ state, (next state).Takes returns count
  | .setState _ next => next.Takes returns count
  | .read _ next => ∀ data, (next data).Takes returns count
  | .write _ _ next => next.Takes returns count
  | .yield next => next.Takes returns (count + 1)

section Rules
variable {returns : γ → Nat → Prop} {count : Nat}

@[simp] theorem takes_pure (value : γ) :
    Takes (pure value : Coroutine σ α β ε γ) returns count ↔ returns value count := Iff.rfl

@[simp] theorem takes_bind (body : Coroutine σ α β ε δ) (next : δ → Coroutine σ α β ε γ) :
    Takes (body >>= next) returns count ↔
      Takes body (fun value => (next value).Takes returns) count := by
  change Takes (body.bind next) returns count ↔ _
  induction body generalizing count with
  | ret value => rfl
  | throw error => rfl
  | getState next ih => exact forall_congr' fun state => ih state
  | setState next body ih => exact ih
  | read address next ih => exact forall_congr' fun data => ih data
  | write address data next ih => exact ih
  | yield next ih => exact ih

@[simp] theorem takes_get {returns : σ → Nat → Prop} :
    Takes (get : Coroutine σ α β ε σ) returns count ↔ ∀ state, returns state count := Iff.rfl

@[simp] theorem takes_modify (f : σ → σ) {returns : PUnit → Nat → Prop} :
    Takes (modify f : Coroutine σ α β ε PUnit) returns count ↔ ∀ _ : σ, returns ⟨⟩ count := Iff.rfl

@[simp] theorem takes_modifyGet (f : σ → γ × σ) :
    Takes (modifyGet f : Coroutine σ α β ε γ) returns count ↔
      ∀ state, returns (f state).1 count := Iff.rfl

@[simp] theorem takes_readFrom (address : α) {returns : β → Nat → Prop} :
    Takes (readFrom address : Coroutine σ α β ε β) returns count ↔
      ∀ data, returns data count := Iff.rfl

@[simp] theorem takes_writeTo (address : α) (data : β) {returns : Unit → Nat → Prop} :
    Takes (writeTo address data : Coroutine σ α β ε Unit) returns count ↔
      returns () count := Iff.rfl

@[simp] theorem takes_coYield {returns : Unit → Nat → Prop} :
    Takes (coYield : Coroutine σ α β ε Unit) returns count ↔ returns () (count + 1) := Iff.rfl

@[simp] theorem takes_ite (condition : Prop) [Decidable condition]
    (left right : Coroutine σ α β ε γ) :
    Takes (if condition then left else right) returns count ↔
      if condition then Takes left returns count else Takes right returns count := by
  split <;> rfl

end Rules

theorem Takes.resumeFrom {returns : γ → Nat → Prop} {body : Coroutine σ α β ε γ}
    (takes : body.Takes returns count) (state : σ) (memory : μ) (done : List (Transaction α β)) :
    match (body.resumeFrom state memory done).next with
    | .suspended rest => rest.Takes returns (count + 1)
    | .returned value => returns value count
    | .threw _ => False := by
  induction body generalizing state memory done with
  | ret value => exact takes
  | throw error => exact takes
  | getState next ih => exact ih state (takes state) state memory done
  | setState next body ih => exact ih takes next memory done
  | read address next ih => exact ih _ (takes _) state memory _
  | write address data next ih => exact ih takes state _ _
  | yield next ih => exact takes

theorem Takes.resume {returns : γ → Nat → Prop} {body : Coroutine σ α β ε γ}
    (takes : body.Takes returns count) (state : σ) (memory : μ) :
    match (body.resume state memory).next with
    | .suspended rest => rest.Takes returns (count + 1)
    | .returned value => returns value count
    | .threw _ => False :=
  takes.resumeFrom state memory []

/-- Wherever a body stands, some path leads it to its end. -/
theorem Takes.completes [Nonempty σ] [Nonempty β] {returns : γ → Nat → Prop}
    {body : Coroutine σ α β ε γ} (takes : body.Takes returns count) :
    ∃ value total, count ≤ total ∧ returns value total := by
  induction body generalizing count with
  | ret value => exact ⟨value, count, Nat.le_refl _, takes⟩
  | throw error => exact takes.elim
  | getState next ih =>
    obtain ⟨state⟩ := ‹Nonempty σ›
    exact ih state (takes state)
  | setState next body ih => exact ih takes
  | read address next ih =>
    obtain ⟨data⟩ := ‹Nonempty β›
    exact ih data (takes data)
  | write address data next ih => exact ih takes
  | yield next ih =>
    obtain ⟨value, total, later, returned⟩ := ih takes
    exact ⟨value, total, Nat.le_of_succ_le later, returned⟩

end GbEmulator.Coroutine
