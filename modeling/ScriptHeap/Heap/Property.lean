import ScriptHeap.Heap.Basic

/-!
Properties of heap objects. Every store of a reference is noted by the write barrier, growth is
charged, and growth that would take the heap past its limit is refused before anything changes.
-/

namespace ScriptHeap.Heap

def getProperty (h : Heap) (id : RecordId) (slot : Nat) : Except Failure Slot :=
  (h.object id).bind (·.get slot)

def propertyCount (h : Heap) (id : RecordId) : Except Failure Nat := (h.object id).map (·.count)

def propertyNameAt (h : Heap) (id : RecordId) (slot : Nat) : Except Failure QName :=
  (h.object id).bind (·.nameAt slot)

/-- Runs an operation on an object and charges the change of its storage. -/
def editObject {α : Type} (id : RecordId) (f : Object → Except Failure (α × Object)) :
    HeapM α := do
  let h ← get
  match h.object id with
  | .error .typeError => refuse (.notObject id)
  | .error _ => refuse (.deadRecord id)
  | .ok o =>
    match f o with
    | .error e => refuse (.ofObjectFailure id e)
    | .ok (a, o') =>
      let s : Space := { h.toSpace with arena := h.arena.setBody id (.object o') }
      set { h with toSpace := s.track ((o'.storageBytes : Int) - o.storageBytes) }
      return a

/-- The object may take this many slots: they fit under the limit, or its shape is fixed and the
operation will be refused for that. -/
def canReserve (h : Heap) (id : RecordId) (count : Nat) : Bool :=
  match h.object id with
  | .error _ => true
  | .ok o =>
    (!o.dynamic && !h.options.compilerMode) ||
      ((o.growthBytes? count).bind fun extra => word? (h.usedMemory + extra)).any
        (· ≤ h.options.maxMemory)

/-- Refuses growth that does not fit. -/
def reserve (id : RecordId) (count : Nat) : HeapM Unit := do
  if !(← get).canReserve id count then refuse (.growthRefused id count)

/-- The number of slots that a store needs. -/
def storeCount (h : Heap) (id : RecordId) (slot : Int) : Nat :=
  match h.object id with
  | .error _ => 0
  | .ok o => if slot < 0 then o.count + 1 else slot.toNat + 1

/-- Refuses a value that is not live. -/
def requireLive (v : Slot) : HeapM Unit := do
  match v with
  | some id => if !(← get).arena.isLive id then refuse (.deadValue id)
  | none => return

/-- A slot found by name as the slot of a store, a signed number of 32 bits. Slots from 2^31 on turn
negative. -/
def slotArgument (slot : Nat) : Int := (Int32.ofNat slot).toInt

variable [Environment]

/-- Stores a value and tells the slot written. A negative slot appends. -/
def setProperty (id : RecordId) (slot : Int) (v : Slot) : HeapM Nat := do
  requireLive v
  let h ← get
  reserve id (h.storeCount id slot)
  let written ← editObject id (·.setValue slot v h.options.compilerMode)
  modifySpace (·.recordReference id v)
  return written

/-- Names a slot and tells which. -/
def setPropertyName (id : RecordId) (slot : Int) (q : QName) : HeapM Nat := do
  let h ← get
  reserve id (h.storeCount id slot)
  editObject id (·.setName slot q h.options.compilerMode)

/-- Appends an unnamed slot and gives it a name. -/
def appendNamed (id : RecordId) (q : QName) : HeapM Nat := do
  let h ← get
  reserve id (h.storeCount id (-1))
  let slot ← editObject id (·.checkSlot (-1) h.options.compilerMode)
  let _ ← setPropertyName id (slotArgument slot) q
  return slot

/-- Stores a value under a name. A name that is not there is appended. -/
def setPropertyByName (id : RecordId) (q : QName) (v : Slot) : HeapM Nat := do
  match (← get).object id with
  | .error e => throw e
  | .ok o =>
    match o.lookup? q with
    | some slot => setProperty id (slotArgument slot) v
    | none =>
      let slot ← appendNamed id q
      setProperty id (slotArgument slot) v

/-- The slot with the name. -/
def lookupProperty (h : Heap) (id : RecordId) (q : QName) : Except Failure Nat := do
  match (← h.object id).lookup? q with
  | some slot => .ok slot
  | none => .error .notFound

def getPropertyByName (h : Heap) (id : RecordId) (q : QName) : Except Failure Slot := do
  h.getProperty id (← h.lookupProperty id q)

/-- Resolves a bare name: exactly one property has it, and that in a standard namespace. Tells the
slot and the namespace. -/
def lookupSingle (h : Heap) (id : RecordId) (name : String) : Except Failure (Nat × String) := do
  let o ← h.object id
  match o.lookupSingle name with
  | .absent => .error .notFound
  | .multiple => .error .ambiguous
  | .unique slot =>
    let q ← o.nameAt slot
    if h.standardSpaces.contains q.space then .ok (slot, q.space) else .error .ambiguous

def deleteProperty (id : RecordId) (slot : Nat) : HeapM Unit := do
  let h ← get
  editObject id fun o => (o.delete slot h.options.compilerMode).map ((), ·)

def deletePropertyByName (id : RecordId) (q : QName) : HeapM Unit := do
  match (← get).object id with
  | .error e => throw e
  | .ok o =>
    match o.lookup? q with
    | none => refuse (.noProperty q)
    | some slot => deleteProperty id slot

/-- Makes room for at least `count` slots and takes them into use. -/
def growObject (id : RecordId) (count : Nat) : HeapM Unit := do
  let h ← get
  reserve id count
  editObject id fun o =>
    if o.count < count && !o.dynamic && !h.options.compilerMode then .error .typeError
    else (o.grow count).map ((), ·)

/-- Opens `n` null slots in front of `offset`. -/
def insertSlots (id : RecordId) (n offset : Nat) : HeapM Unit := do
  let h ← get
  let count := match h.object id with
    | .ok o => min (o.count + n) (wordLimit - 1)
    | .error _ => 0
  reserve id count
  editObject id fun o =>
    if !o.dynamic && !h.options.compilerMode then .error .typeError
    else (o.insert n offset).map ((), ·)

/-- Takes a slot out, in compiler mode only. -/
def removeSlot (id : RecordId) (slot : Nat) (compact : Bool) : HeapM Unit := do
  let h ← get
  editObject id fun o => (o.remove slot compact h.options.compilerMode).map ((), ·)

end ScriptHeap.Heap
