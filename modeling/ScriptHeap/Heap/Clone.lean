import ScriptHeap.Heap.Allocate

/-!
Clones of objects. A shallow clone refers to the same records as the object. A deep clone also
copies every object that can be reached through slots, permanent ones excepted, and keeps cycles:
each object is copied once, and the copies refer to copies.
-/

namespace ScriptHeap.Heap

variable [Environment]

/-- Copies one object, names and references included. -/
def copyRecord (id : RecordId) : HeapM RecordId := do
  match (← get).arena.live? id with
  | none => refuse (.deadRecord id)
  | some r =>
    match r.body with
    | .object o =>
      let copy ← allocateBody r.type 0 (.object o)
      modifySpace (·.modifyHeader copy ({ · with refLinks := r.header.refLinks }))
      return copy
    | _ => refuse (.notObject id)

/-- A deep clone under way. -/
structure Cloning where
  /-- The objects copied so far with their copies, the latest first. -/
  copies : List (RecordId × RecordId)
  /-- The copies that still refer to objects of the source. -/
  pending : List RecordId

/-- A deep clone copies what the record at `id` holds: it is an object and not permanent. -/
def isCloned (h : Heap) (id : RecordId) : Bool :=
  (h.arena.live? id).any fun r => r.body.object?.isSome && !r.header.permanent

/-- Puts a reference into a slot of a copy. The barrier comes later. -/
def redirect (copy : RecordId) (slot : Nat) (target : RecordId) : HeapM Unit :=
  modifySpace fun s =>
    match s.arena.object? copy with
    | some o => { s with arena := s.arena.setBody copy (.object (o.write slot (some target))) }
    | none => s

/-- Replaces what one slot of a copy refers to by its copy, which is made if there is none yet. -/
def cloneSlot (copy : RecordId) (c : Cloning) (slot : Nat) (child : RecordId) : HeapM Cloning := do
  if !(← get).isCloned child then return c
  match c.copies.lookup child with
  | some target =>
    redirect copy slot target
    return c
  | none =>
    let target ← copyRecord child
    redirect copy slot target
    return ⟨(child, target) :: c.copies, target :: c.pending⟩

/-- Replaces what the slots of a copy refer to. -/
def cloneSlots (copy : RecordId) (values : List Slot) (c : Cloning) : HeapM Cloning :=
  values.zipIdx.foldlM (fun c (v, slot) => match v with
    | some child => cloneSlot copy c slot child
    | none => return c) c

/-- Settles the pending copies, `fuel` at most. -/
def settleCopies : Nat → Cloning → HeapM Cloning
  | 0, c => return c
  | fuel + 1, c =>
    match c.pending with
    | [] => return c
    | copy :: rest => do
      match (← get).object copy with
      | .error e => throw e
      | .ok o => settleCopies fuel (← cloneSlots copy o.values { c with pending := rest })

/-- More copies than records that exist and records that can be addressed. -/
def cloneFuel (h : Heap) : Nat := h.arena.cells.size + 4294967296

/-- Clones an object and tells the clone. -/
def cloneObject (id : RecordId) (deep : Bool) : HeapM RecordId := do
  let fuel := (← get).cloneFuel
  let copy ← copyRecord id
  if deep then
    let c ← settleCopies fuel ⟨[(id, copy)], [copy]⟩
    modifySpace fun s =>
      (Environment.arrange s.collector.stats.totalAllocated c.copies).foldl Space.recordReferences s
  else modifySpace (·.recordReferences copy)
  return copy

end ScriptHeap.Heap
