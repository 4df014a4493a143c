import GbEmulator.Coroutine.Syntax

/-! Execution of coroutines over any store. `resume` runs a body to its next
suspension; `segments` is the whole run, one entry for each resumption. The two
are related by `segments_resume`, so a property of the remaining run is an
invariant of every scheduler that only ever resumes the body. -/
namespace GbEmulator

class Store (μ : Type u) (α β : outParam Type) where
  load : μ → α → β
  store : μ → α → β → μ

inductive Transaction (α β : Type) where
  | read (address : α) (data : β)
  | write (address : α) (data : β)
  deriving DecidableEq, Repr

/-- What an access makes of the store. -/
def Transaction.perform [Store μ α β] (memory : μ) : Transaction α β → μ
  | .read _ _ => memory
  | .write address data => Store.store memory address data

def Transaction.isWrite : Transaction α β → Bool
  | .read _ _ => false
  | .write _ _ => true

/-- What one resumption leaves behind, with the store accesses it made in order. -/
@[ext] structure Segment (σ : Type) (μ : Type u) (α β : Type) where
  state : σ
  memory : μ
  transactions : List (Transaction α β)

def Segment.map (view : σ → τ) (segment : Segment σ μ α β) : Segment τ μ α β :=
  ⟨view segment.state, segment.memory, segment.transactions⟩

/-- The position in which a resumption leaves its body. -/
inductive Suspension (σ α β ε γ : Type) where
  | suspended (rest : Coroutine σ α β ε γ)
  | returned (value : γ)
  | threw (error : ε)

structure Resumption (σ : Type) (μ : Type u) (α β ε γ : Type) extends Segment σ μ α β where
  next : Suspension σ α β ε γ

namespace Coroutine
variable {σ τ α β ε γ δ : Type} {μ : Type u} [Store μ α β]

def resumeFrom (body : Coroutine σ α β ε γ) (state : σ) (memory : μ)
    (done : List (Transaction α β)) : Resumption σ μ α β ε γ :=
  match body with
  | .ret value => ⟨⟨state, memory, done⟩, .returned value⟩
  | .throw error => ⟨⟨state, memory, done⟩, .threw error⟩
  | .getState next => (next state).resumeFrom state memory done
  | .setState state next => next.resumeFrom state memory done
  | .read address next =>
      let data := Store.load memory address
      (next data).resumeFrom state memory (done ++ [.read address data])
  | .write address data next =>
      next.resumeFrom state (Store.store memory address data) (done ++ [.write address data])
  | .yield next => ⟨⟨state, memory, done⟩, .suspended next⟩

def resume (body : Coroutine σ α β ε γ) (state : σ) (memory : μ) : Resumption σ μ α β ε γ :=
  body.resumeFrom state memory []

/-- Every resumption of `body` up to its end, then whatever `rest` produces from
the returned value. A thrown error ends the run. -/
def segmentsThen (body : Coroutine σ α β ε γ)
    (rest : γ → σ → μ → List (Transaction α β) → List (Segment σ μ α β))
    (state : σ) (memory : μ) (done : List (Transaction α β)) : List (Segment σ μ α β) :=
  match body with
  | .ret value => rest value state memory done
  | .throw _ => [⟨state, memory, done⟩]
  | .getState next => (next state).segmentsThen rest state memory done
  | .setState state next => next.segmentsThen rest state memory done
  | .read address next =>
      let data := Store.load memory address
      (next data).segmentsThen rest state memory (done ++ [.read address data])
  | .write address data next =>
      next.segmentsThen rest state (Store.store memory address data) (done ++ [.write address data])
  | .yield next => ⟨state, memory, done⟩ :: next.segmentsThen rest state memory []

def segments (body : Coroutine σ α β ε γ) (state : σ) (memory : μ) : List (Segment σ μ α β) :=
  body.segmentsThen (fun _ state memory done => [⟨state, memory, done⟩]) state memory []

section Rules
variable (rest : γ → σ → μ → List (Transaction α β) → List (Segment σ μ α β))
  (state : σ) (memory : μ) (done : List (Transaction α β))

@[simp] theorem segmentsThen_pure (value : γ) :
    segmentsThen (pure value : Coroutine σ α β ε γ) rest state memory done =
      rest value state memory done := rfl

@[simp] theorem segmentsThen_bind (body : Coroutine σ α β ε δ) (next : δ → Coroutine σ α β ε γ) :
    segmentsThen (body >>= next) rest state memory done =
      segmentsThen body (fun value => (next value).segmentsThen rest) state memory done := by
  change segmentsThen (body.bind next) rest state memory done = _
  induction body generalizing state memory done with
  | ret value => rfl
  | throw error => rfl
  | getState next ih => exact ih state state memory done
  | setState next body ih => exact ih next memory done
  | read address next ih => exact ih _ state memory _
  | write address data next ih => exact ih state _ _
  | yield next ih => exact congrArg _ (ih state memory [])

@[simp] theorem segmentsThen_map (body : Coroutine σ α β ε δ) (f : δ → γ) :
    segmentsThen (f <$> body) rest state memory done =
      segmentsThen body (fun value => rest (f value)) state memory done :=
  segmentsThen_bind rest state memory done body (fun value => .ret (f value))

@[simp] theorem segmentsThen_get
    (rest : σ → σ → μ → List (Transaction α β) → List (Segment σ μ α β)) :
    segmentsThen (get : Coroutine σ α β ε σ) rest state memory done =
      rest state state memory done := rfl

@[simp] theorem segmentsThen_set (next : σ)
    (rest : PUnit → σ → μ → List (Transaction α β) → List (Segment σ μ α β)) :
    segmentsThen (set next : Coroutine σ α β ε PUnit) rest state memory done =
      rest ⟨⟩ next memory done := rfl

@[simp] theorem segmentsThen_modify (f : σ → σ)
    (rest : PUnit → σ → μ → List (Transaction α β) → List (Segment σ μ α β)) :
    segmentsThen (modify f : Coroutine σ α β ε PUnit) rest state memory done =
      rest ⟨⟩ (f state) memory done := rfl

@[simp] theorem segmentsThen_modifyGet (f : σ → γ × σ) :
    segmentsThen (modifyGet f : Coroutine σ α β ε γ) rest state memory done =
      rest (f state).1 (f state).2 memory done := rfl

@[simp] theorem segmentsThen_readFrom (address : α)
    (rest : β → σ → μ → List (Transaction α β) → List (Segment σ μ α β)) :
    segmentsThen (readFrom address : Coroutine σ α β ε β) rest state memory done =
      rest (Store.load memory address) state memory
        (done ++ [.read address (Store.load memory address)]) := rfl

@[simp] theorem segmentsThen_writeTo (address : α) (data : β)
    (rest : Unit → σ → μ → List (Transaction α β) → List (Segment σ μ α β)) :
    segmentsThen (writeTo address data : Coroutine σ α β ε Unit) rest state memory done =
      rest () state (Store.store memory address data) (done ++ [.write address data]) := rfl

@[simp] theorem segmentsThen_coYield
    (rest : Unit → σ → μ → List (Transaction α β) → List (Segment σ μ α β)) :
    segmentsThen (coYield : Coroutine σ α β ε Unit) rest state memory done =
      ⟨state, memory, done⟩ :: rest () state memory [] := rfl

@[simp] theorem segmentsThen_ite (condition : Prop) [Decidable condition]
    (left right : Coroutine σ α β ε γ) :
    segmentsThen (if condition then left else right) rest state memory done =
      if condition then segmentsThen left rest state memory done
      else segmentsThen right rest state memory done := by
  split <;> rfl

end Rules

theorem segmentsThen_resumeFrom (body : Coroutine σ α β ε γ)
    (rest : γ → σ → μ → List (Transaction α β) → List (Segment σ μ α β))
    (state : σ) (memory : μ) (done : List (Transaction α β)) :
    body.segmentsThen rest state memory done =
      let resumed := body.resumeFrom state memory done
      match resumed.next with
      | .suspended next =>
          resumed.toSegment :: next.segmentsThen rest resumed.state resumed.memory []
      | .returned value => rest value resumed.state resumed.memory resumed.transactions
      | .threw _ => [resumed.toSegment] := by
  induction body generalizing state memory done with
  | ret value => rfl
  | throw error => rfl
  | getState next ih => exact ih state state memory done
  | setState next body ih => exact ih next memory done
  | read address next ih => exact ih _ state memory _
  | write address data next ih => exact ih state _ _
  | yield next ih => rfl

/-- One resumption peels the first segment off the run. -/
theorem segments_resume (body : Coroutine σ α β ε γ) (state : σ) (memory : μ) :
    body.segments state memory =
      let resumed := body.resume state memory
      match resumed.next with
      | .suspended next => resumed.toSegment :: next.segments resumed.state resumed.memory
      | .returned _ => [resumed.toSegment]
      | .threw _ => [resumed.toSegment] :=
  segmentsThen_resumeFrom body _ state memory []

/-- The store changes by the accesses a resumption reports and by nothing else. -/
theorem resumeFrom_memory (body : Coroutine σ α β ε γ) (state : σ) (memory start : μ)
    (done : List (Transaction α β)) (performed : memory = done.foldl Transaction.perform start) :
    let resumed := body.resumeFrom state memory done
    resumed.memory = resumed.transactions.foldl Transaction.perform start := by
  induction body generalizing state memory done with
  | ret value => exact performed
  | throw error => exact performed
  | getState next ih => exact ih state state memory done performed
  | setState next body ih => exact ih next memory done performed
  | read address next ih =>
    refine ih _ state memory _ ?_
    rw [List.foldl_append, ← performed]
    rfl
  | write address data next ih =>
    refine ih state _ _ ?_
    rw [List.foldl_append, ← performed]
    rfl
  | yield next ih => exact performed

theorem resume_memory (body : Coroutine σ α β ε γ) (state : σ) (memory : μ) :
    (body.resume state memory).memory =
      (body.resume state memory).transactions.foldl Transaction.perform memory :=
  resumeFrom_memory body state memory memory [] rfl

theorem segments_ne_nil (body : Coroutine σ α β ε γ) (state : σ) (memory : μ) :
    body.segments state memory ≠ [] := by
  rw [segments_resume]
  dsimp only
  split <;> exact List.cons_ne_nil _ _

theorem segments_last (body : Coroutine σ α β ε γ) (state : σ) (memory : μ) :
    ∃ earlier last, body.segments state memory = earlier ++ [last] := by
  rcases List.eq_nil_or_concat (body.segments state memory) with empty | ⟨earlier, last, parts⟩
  · exact absurd empty (segments_ne_nil body state memory)
  · exact ⟨earlier, last, by rw [parts, List.concat_eq_append]⟩

end Coroutine
end GbEmulator
