import GbEmulator.Emulator.Cpu
import GbEmulator.Ownership.Frames

/-! `instruction_handler.h` with its handles: the objects of the class under any names,
and the coroutine frames they own. Each member function fails where the source has no
defined behaviour. -/
namespace GbEmulator
open Ownership

inductive HandleMisuse where
  | outsideLifetime
  | nullHandle
  | dangling
  | finished
  | nullException
  deriving DecidableEq, Repr

/-- A frame is what `Cpu` keeps as its `InstructionHandler`: the position of the
coroutine and its promise. -/
structure HandlerObjects (ν : Type) where
  heap : FrameHeap InstructionHandler := {}
  handles : Handles ν := fun _ => none

namespace HandlerObjects
variable {ν : Type} {δ : Type u} [AddressBusAddressable δ]

/-- `m_handle` of an object within its lifetime. -/
def handle (name : ν) (objects : HandlerObjects ν) : Except HandleMisuse (Option FrameId) :=
  match objects.handles name with
  | some id => .ok id
  | none => .error .outsideLifetime

/-- The frame behind `m_handle`. -/
def frame (name : ν) (objects : HandlerObjects ν) :
    Except HandleMisuse (FrameId × InstructionHandler) :=
  match objects.handle name with
  | .error misuse => .error misuse
  | .ok none => .error .nullHandle
  | .ok (some id) =>
    match objects.heap.frame id with
    | none => .error .dangling
    | some frame => .ok (id, frame)

def hasException (name : ν) (objects : HandlerObjects ν) : Except HandleMisuse Bool := do
  match ← objects.handle name with
  | none => return false
  | some _ => return (← objects.frame name).2.exception.isSome

def exception (name : ν) (objects : HandlerObjects ν) :
    Except HandleMisuse (Option RuntimeError) := do
  return (← objects.frame name).2.exception

/-- `m_handle.done()`. -/
def isDone (name : ν) (objects : HandlerObjects ν) : Except HandleMisuse Bool := do
  match (← objects.frame name).2.handle with
  | .suspended _ => return false
  | .done => return true

/-- `m_handle.resume()`. -/
def resume (name : ν) (registers : CpuRegisters) (bus : AddressBus δ)
    (objects : HandlerObjects ν) :
    Except HandleMisuse (Segment CpuRegisters (AddressBus δ) Word Byte × HandlerObjects ν) :=
  match objects.frame name with
  | .error misuse => .error misuse
  | .ok (id, frame) =>
    match frame.handle with
    | .done => .error .finished
    | .suspended rest =>
        let resumed := rest.resume registers bus
        let heap := objects.heap.set id (some (frame.suspendedAt resumed.next))
        .ok (resumed.toSegment, { objects with heap := heap })

section Lifetimes
variable [DecidableEq ν]

/-- The storage of `name` becomes an object that holds `id`. -/
def begin (name : ν) (id : Option FrameId) (objects : HandlerObjects ν) :
    Except HandleMisuse (HandlerObjects ν) :=
  match objects.handles name with
  | some _ => .error .outsideLifetime
  | none => .ok { objects with handles := Function.update objects.handles name (some id) }

/-- `InstructionHandler() = default`. -/
def construct (name : ν) (objects : HandlerObjects ν) : Except HandleMisuse (HandlerObjects ν) :=
  objects.begin name none

/-- `InstructionHandler(promise_type * promise)`. -/
def fromPromise (name : ν) (id : FrameId) (objects : HandlerObjects ν) :
    Except HandleMisuse (HandlerObjects ν) :=
  objects.begin name (some id)

/-- `std::swap(m_handle, other.m_handle)`. -/
def swap (name other : ν) (objects : HandlerObjects ν) :
    Except HandleMisuse (HandlerObjects ν) := do
  let _ ← objects.handle name
  let _ ← objects.handle other
  return { objects with handles := objects.handles ∘ Equiv.swap name other }

/-- `InstructionHandler(InstructionHandler&& other)`. -/
def moveConstruct (name other : ν) (objects : HandlerObjects ν) :
    Except HandleMisuse (HandlerObjects ν) := do
  let _ ← objects.handle other
  let objects ← objects.begin name none
  objects.swap name other

/-- `operator=(InstructionHandler&& other)`, also where both are one object. -/
def moveAssign (name other : ν) (objects : HandlerObjects ν) :
    Except HandleMisuse (HandlerObjects ν) :=
  objects.swap name other

/-- `~InstructionHandler()`. -/
def destruct (name : ν) (objects : HandlerObjects ν) : Except HandleMisuse (HandlerObjects ν) := do
  let ended := Function.update objects.handles name none
  match ← objects.handle name with
  | none => return ⟨objects.heap, ended⟩
  | some _ => return ⟨objects.heap.set (← objects.frame name).1 none, ended⟩

/-- A call of a coroutine up to `initial_suspend`: the frame, and `get_return_object`,
which moves its temporary into the object that the call returns. -/
def call (returned temporary : ν) (frame : InstructionHandler) (objects : HandlerObjects ν) :
    Except HandleMisuse (HandlerObjects ν) := do
  let allocated : HandlerObjects ν := ⟨objects.heap.create frame, objects.handles⟩
  let objects ← allocated.fromPromise temporary objects.heap.fresh
  let objects ← objects.moveConstruct returned temporary
  objects.destruct temporary

end Lifetimes
end HandlerObjects

/-- What a program can do to the handlers it names. The class deletes its copies. -/
inductive HandlerOperation (ν : Type) (δ : Type u) where
  | construct (name : ν)
  | call (returned temporary : ν) (frame : InstructionHandler)
  | moveConstruct (name other : ν)
  | moveAssign (name other : ν)
  | hasException (name : ν)
  | exception (name : ν)
  | isDone (name : ν)
  | resume (name : ν) (registers : CpuRegisters) (bus : AddressBus δ)
  | destruct (name : ν)

section
variable {ν : Type} {δ : Type u} [AddressBusAddressable δ] [DecidableEq ν]

def HandlerOperation.perform (objects : HandlerObjects ν) :
    HandlerOperation ν δ → Except HandleMisuse (HandlerObjects ν)
  | .construct name => objects.construct name
  | .call returned temporary frame => objects.call returned temporary frame
  | .moveConstruct name other => objects.moveConstruct name other
  | .moveAssign name other => objects.moveAssign name other
  | .hasException name => (objects.hasException name).map fun _ => objects
  | .exception name => (objects.exception name).map fun _ => objects
  | .isDone name => (objects.isDone name).map fun _ => objects
  | .resume name registers bus => (objects.resume name registers bus).map Prod.snd
  | .destruct name => objects.destruct name

def HandlerObjects.perform (operations : List (HandlerOperation ν δ)) (objects : HandlerObjects ν) :
    Except HandleMisuse (HandlerObjects ν) :=
  operations.foldlM HandlerOperation.perform objects

end
end GbEmulator
