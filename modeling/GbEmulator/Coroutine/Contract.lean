import GbEmulator.Coroutine.Execution

/-! Contracts over every path of a coroutine. The state may be anything whenever
it is inspected and the store may answer anything, so a contract survives any
interference between two resumptions, and it never speaks about values. -/
namespace GbEmulator.Coroutine
variable {σ α β ε γ δ : Type} {μ : Type u} [Store μ α β]

/-- No path throws; the accesses made since the last resumption satisfy `yields`
at every suspension and `returns` at the end. -/
def Meets (yields : List (Transaction α β) → Prop) (body : Coroutine σ α β ε γ)
    (returns : γ → List (Transaction α β) → Prop) (done : List (Transaction α β)) : Prop :=
  match body with
  | .ret value => returns value done
  | .throw _ => False
  | .getState next => ∀ state, (next state).Meets yields returns done
  | .setState _ next => next.Meets yields returns done
  | .read address next => ∀ data, (next data).Meets yields returns (done ++ [.read address data])
  | .write address data next => next.Meets yields returns (done ++ [.write address data])
  | .yield next => yields done ∧ next.Meets yields returns []

section Rules
variable {yields : List (Transaction α β) → Prop} {returns : γ → List (Transaction α β) → Prop}
  {done : List (Transaction α β)}

@[simp] theorem meets_pure (value : γ) :
    Meets yields (pure value : Coroutine σ α β ε γ) returns done ↔ returns value done := Iff.rfl

@[simp] theorem meets_bind (body : Coroutine σ α β ε δ) (next : δ → Coroutine σ α β ε γ) :
    Meets yields (body >>= next) returns done ↔
      Meets yields body (fun value => (next value).Meets yields returns) done := by
  change Meets yields (body.bind next) returns done ↔ _
  induction body generalizing done with
  | ret value => rfl
  | throw error => rfl
  | getState next ih => exact forall_congr' fun state => ih state
  | setState next body ih => exact ih
  | read address next ih => exact forall_congr' fun data => ih data
  | write address data next ih => exact ih
  | yield next ih => exact and_congr_right fun _ => ih

@[simp] theorem meets_get {returns : σ → List (Transaction α β) → Prop} :
    Meets yields (get : Coroutine σ α β ε σ) returns done ↔ ∀ state, returns state done := Iff.rfl

@[simp] theorem meets_modify (f : σ → σ) {returns : PUnit → List (Transaction α β) → Prop} :
    Meets yields (modify f : Coroutine σ α β ε PUnit) returns done ↔
      ∀ _ : σ, returns ⟨⟩ done := Iff.rfl

@[simp] theorem meets_modifyGet (f : σ → γ × σ) :
    Meets yields (modifyGet f : Coroutine σ α β ε γ) returns done ↔
      ∀ state, returns (f state).1 done := Iff.rfl

@[simp] theorem meets_readFrom (address : α) {returns : β → List (Transaction α β) → Prop} :
    Meets yields (readFrom address : Coroutine σ α β ε β) returns done ↔
      ∀ data, returns data (done ++ [.read address data]) := Iff.rfl

@[simp] theorem meets_writeTo (address : α) (data : β)
    {returns : Unit → List (Transaction α β) → Prop} :
    Meets yields (writeTo address data : Coroutine σ α β ε Unit) returns done ↔
      returns () (done ++ [.write address data]) := Iff.rfl

@[simp] theorem meets_coYield {returns : Unit → List (Transaction α β) → Prop} :
    Meets yields (coYield : Coroutine σ α β ε Unit) returns done ↔
      yields done ∧ returns () [] := Iff.rfl

@[simp] theorem meets_ite (condition : Prop) [Decidable condition]
    (left right : Coroutine σ α β ε γ) :
    Meets yields (if condition then left else right) returns done ↔
      if condition then Meets yields left returns done else Meets yields right returns done := by
  split <;> rfl

end Rules

/-- What a contract says of one resumption, whatever state and store it runs in. -/
theorem Meets.resumeFrom {yields : List (Transaction α β) → Prop}
    {returns : γ → List (Transaction α β) → Prop} {body : Coroutine σ α β ε γ}
    (met : body.Meets yields returns done) (state : σ) (memory : μ) :
    let resumed := body.resumeFrom state memory done
    match resumed.next with
    | .suspended rest => yields resumed.transactions ∧ rest.Meets yields returns []
    | .returned value => returns value resumed.transactions
    | .threw _ => False := by
  induction body generalizing state memory done with
  | ret value => exact met
  | throw error => exact met
  | getState next ih => exact ih state (met state) state memory
  | setState next body ih => exact ih met next memory
  | read address next ih => exact ih _ (met _) state memory
  | write address data next ih => exact ih met state _
  | yield next ih => exact met

theorem Meets.resume {yields : List (Transaction α β) → Prop}
    {returns : γ → List (Transaction α β) → Prop} {body : Coroutine σ α β ε γ}
    (met : body.Meets yields returns []) (state : σ) (memory : μ) :
    let resumed := body.resume state memory
    match resumed.next with
    | .suspended rest => yields resumed.transactions ∧ rest.Meets yields returns []
    | .returned value => returns value resumed.transactions
    | .threw _ => False :=
  met.resumeFrom state memory

end GbEmulator.Coroutine
