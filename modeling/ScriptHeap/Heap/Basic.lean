import ScriptHeap.Collector.Collect
import ScriptHeap.Heap.Fault

/-!
The heap: a space of records, the roots of what is in use, and the state of memory pressure.

An operation that changes the heap is a computation in `HeapM`. When it is refused the reason is
kept as the last fault of the heap; questions that fail leave no trace.
-/

namespace ScriptHeap

/-- The activation record of a running function. Everything it holds is in use. -/
structure Frame where
  function : Slot
  this : Slot
  /-- Arguments, locals and temporaries. -/
  locals : List Slot
  result : Slot
deriving DecidableEq, Repr

namespace Frame

def references (f : Frame) : List RecordId :=
  (f.function :: f.this :: f.locals ++ [f.result]).filterMap id

/-- A frame with `n` null locals, overwritten and extended by the given ones. -/
def enter (function this : Slot) (n : Nat) (locals : List Slot) : Frame :=
  ⟨function, this, locals ++ List.replicate (n - locals.length) none, none⟩

/-- Changes a local variable that exists. -/
def setLocal? (f : Frame) (i : Nat) (v : Slot) : Option Frame :=
  if i < f.locals.length then some { f with locals := f.locals.set i v } else none

end Frame

structure Heap extends Space where
  options : HeapOptions
  global : RecordId
  /-- The frames of the running functions, the innermost first. -/
  frames : List Frame
  result : Slot
  exception : Slot
  /-- Module initializers that have not run yet. -/
  initializers : List RecordId
  /-- The namespaces in which a bare name is looked up. -/
  standardSpaces : List String
  /-- Memory was exhausted and has not recovered since. -/
  degraded : Bool
  fault : Option Fault
deriving DecidableEq, Repr

abbrev HeapM := EStateM Failure Heap

namespace Heap

/-- Refuses an operation and keeps the reason. -/
def refuse {α : Type} (f : Fault) : HeapM α := do
  modify ({ · with fault := some f })
  throw f.failure

def modifySpace (f : Space → Space) : HeapM Unit :=
  modify fun h => { h with toSpace := f h.toSpace }

@[simp] theorem refuse_apply {α : Type} (f : Fault) (h : Heap) :
    (refuse f : HeapM α) h = .error f.failure { h with fault := some f } := rfl

@[simp] theorem modifySpace_apply (f : Space → Space) (h : Heap) :
    modifySpace f h = .ok () { h with toSpace := f h.toSpace } := rfl

/-- The message of the last fault. -/
def message (h : Heap) : String := (h.fault.map Fault.message).getD ""

def object (h : Heap) (id : RecordId) : Except Failure Object :=
  match h.arena.live? id with
  | none => .error .referenceError
  | some r =>
    match r.body with
    | .object o => .ok o
    | _ => .error .typeError

def string? (h : Heap) (id : RecordId) : Option String :=
  (h.arena.live? id).bind fun r => match r.body with
    | .string text => some text
    | _ => none

def number? (h : Heap) (id : RecordId) : Option UInt64 :=
  (h.arena.live? id).bind fun r => match r.body with
    | .number bits => some bits
    | _ => none

def boolean? (h : Heap) (id : RecordId) : Option Bool :=
  (h.arena.live? id).bind fun r => match r.body with
    | .boolean b => some b
    | _ => none

def payload? (h : Heap) (id : RecordId) (kind : PayloadKind) : Option Payload :=
  ((h.arena.live? id).bind (·.body.payload?)).filter (·.kind = kind)

def typeOf? (h : Heap) (id : RecordId) : Option TypeInfo :=
  (h.arena.live? id).bind fun r => h.types.get? r.type

/-- The object still has the name table of its type. -/
def sharesNames? (h : Heap) (id : RecordId) : Option Bool := (h.arena.object? id).map (·.shared)

def frameReferences (h : Heap) : List RecordId := h.frames.flatMap Frame.references

/-- The records in use that a collection starts from: the global object and what it refers to, the
frames, the result, the exception, and the initializers that wait. -/
def roots (h : Heap) : List RecordId :=
  h.global :: ((h.arena.object? h.global).map Object.references).getD [] ++ h.frameReferences
    ++ h.result.toList ++ h.exception.toList ++ h.initializers

/-- The events since the last call, in order. -/
def takeEvents (h : Heap) : List Event × Heap := (h.journal.reverse, { h with journal := [] })

variable [Environment]

/-- A heap with the global object alone, which is eternal and permanent. -/
def fresh (o : HeapOptions) : Heap :=
  let s := Space.fresh o
  let s := { s with collector := { s.collector with allocGeneration := .eternal } }
  let type := TypeInfo.make TypeId.object TypeRegistry.objectDef
  let (a, s) := s.allocate type 0 (.object (.empty true))
  let s := s.modifyHeader a.id ({ · with permanent := true })
  { toSpace := { s with
      collector := { s.collector with
        allocGeneration := .new
        workDone := 0
        required := false } }
    options := o
    global := a.id
    frames := []
    result := none
    exception := none
    initializers := []
    standardSpaces := [""]
    degraded := false
    fault := none }

end Heap

end ScriptHeap
