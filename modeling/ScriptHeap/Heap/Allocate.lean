import ScriptHeap.Heap.Basic

/-!
Allocation on the heap. A record that no pool provides is admitted if it fits under the hard limit
and the heap is not throttled.
-/

namespace ScriptHeap.Heap

variable [Environment]

/-- A degraded heap takes no new places while it is above the redline. -/
def throttled (h : Heap) : Bool := h.degraded && h.options.redline ≤ h.usedMemory

/-- A record of the type that takes this many bytes may be allocated. -/
def admits (h : Heap) (type : TypeId) (bytes : Nat) : Bool :=
  h.pools.hasFree type ||
    (min (h.usedMemory + bytes) HeapOptions.unlimited ≤ h.options.maxMemory && !h.throttled)

/-- Allocates a record with the given body. The bytes asked for are assumed to sum up to less than
`2 ^ 64`. -/
def allocateBody (type : TypeId) (extra : Nat) (body : Body) : HeapM RecordId := do
  let h ← get
  match h.types.get? type with
  | none => refuse (.unknownType type)
  | some info =>
    let bytes := info.instanceSize + extra + body.storageBytes
    if h.admits type bytes then
      let (a, s) := h.toSpace.allocate info extra body
      set { h with toSpace := s }
      return a.id
    else refuse (.allocationRefused bytes info.name)

/-- The body that a plain allocation of the type starts with. -/
def initialBody (info : TypeInfo) : Body :=
  match info.kind with
  | .object => .object (.empty info.dynamic)
  | kind => .initial kind

/-- Allocates a record of the type with `extra` bytes more than its instance size. -/
def allocateRecord (type : TypeId) (extra : Nat) : HeapM RecordId := do
  match (← get).types.get? type with
  | none => refuse (.unknownType type)
  | some info => allocateBody type extra (initialBody info)

def createString (text : String) : HeapM RecordId := allocateBody .string 0 (.string text)

def createNumber (bits : UInt64) : HeapM RecordId := allocateBody .number 0 (.number bits)

def createBoolean (b : Bool) : HeapM RecordId := allocateBody .boolean 0 (.boolean b)

/-- Creates an instance of an object type with `extra` unnamed slots. -/
def createObject (type : TypeId) (extra : Nat) : HeapM RecordId := do
  match ((← get).types.get? type).filter (·.kind = .object) with
  | none => refuse (.notObjectType type)
  | some info => allocateBody type 0 (.object (info.instantiate extra))

/-- Creates an empty dynamic object. -/
def createPlainObject : HeapM RecordId := createObject .object 0

/-- Creates a native record; what its payload refers to is noted. -/
def createNative (type : TypeId) (payload : Payload) : HeapM RecordId := do
  match ((← get).types.get? type).filter (·.kind = .native) with
  | none => refuse (.notNativeType type)
  | some _ =>
    let id ← allocateBody type 0 (.native payload)
    modifySpace (·.recordReferences id)
    return id

/-- Installs or replaces the payload of a native record. -/
def setNative (id : RecordId) (payload : Payload) : HeapM Unit := do
  let h ← get
  let isNative := (h.arena.live? id).any fun r => match r.body with
    | .empty | .native _ => true
    | _ => false
  if isNative then
    modifySpace fun s =>
      ({ s with arena := s.arena.setBody id (.native payload) } : Space).recordReferences id
  else refuse (.notNative id)

/-- Edits a payload in place, if the edit applies to it, and tells the payload afterwards. -/
def editNative (id : RecordId) (edit : Payload → Option Payload) : HeapM (Option Payload) := do
  let h ← get
  match ((h.arena.live? id).bind (·.body.payload?)).bind edit with
  | none => return none
  | some payload =>
    modifySpace fun s =>
      ({ s with arena := s.arena.setBody id (.native payload) } : Space).recordReferences id
    return some payload

end ScriptHeap.Heap
