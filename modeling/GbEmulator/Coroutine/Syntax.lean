import Mathlib.Logic.Basic

/-! Resumable programs over a private state and a shared store. A coroutine is
the tree of its effects; it stops at every `yield` and may be resumed there.
The tree is inductive, so every body finishes after finitely many resumptions. -/
namespace GbEmulator

/-- State of type `σ`, store addresses `α`, store data `β`, errors `ε`. -/
inductive Coroutine (σ α β ε γ : Type) : Type where
  | ret (value : γ)
  | throw (error : ε)
  | getState (next : σ → Coroutine σ α β ε γ)
  | setState (state : σ) (next : Coroutine σ α β ε γ)
  | read (address : α) (next : β → Coroutine σ α β ε γ)
  | write (address : α) (data : β) (next : Coroutine σ α β ε γ)
  | yield (next : Coroutine σ α β ε γ)

namespace Coroutine
variable {σ α β ε γ δ : Type}

def bind (body : Coroutine σ α β ε γ) (rest : γ → Coroutine σ α β ε δ) : Coroutine σ α β ε δ :=
  match body with
  | .ret value => rest value
  | .throw error => .throw error
  | .getState next => .getState fun state => (next state).bind rest
  | .setState state next => .setState state (next.bind rest)
  | .read address next => .read address fun data => (next data).bind rest
  | .write address data next => .write address data (next.bind rest)
  | .yield next => .yield (next.bind rest)

instance : Monad (Coroutine σ α β ε) where
  pure := .ret
  bind := .bind

instance : MonadStateOf σ (Coroutine σ α β ε) where
  get := .getState .ret
  set state := .setState state (.ret ())
  modifyGet f := .getState fun state => .setState (f state).2 (.ret (f state).1)

def readFrom (address : α) : Coroutine σ α β ε β := .read address .ret

def writeTo (address : α) (data : β) : Coroutine σ α β ε Unit := .write address data (.ret ())

/-- `co_yield`: suspend until the next resumption. -/
def coYield : Coroutine σ α β ε Unit := .yield (.ret ())

end Coroutine
end GbEmulator
