import ScriptHeap.Failure
import ScriptHeap.Identifier
import ScriptHeap.Object.Capacity
import ScriptHeap.Object.NameTable

/-!
Objects: an array of slots, the names of the slots, and the number of slots in use.

A fixed object refuses to gain or lose slots; a dynamic one, and any object in compiler mode,
allows it. An instance shares the name table of its type until one of its own names changes.
An operation that fails leaves the object as it was.
-/

namespace ScriptHeap

structure Object where
  /-- As many slots as there is room for. Those from `count` on are not in use. -/
  slots : Array Slot
  names : NameTable
  count : Nat
  dynamic : Bool
  /-- The name table is still the one of the type. -/
  shared : Bool
deriving DecidableEq, Repr

namespace Object

def empty (dynamic : Bool) : Object := ⟨#[], .empty, 0, dynamic, false⟩

def capacity (o : Object) : Nat := o.slots.size

def storageBytes (o : Object) : Nat := o.capacity * Capacity.slotBytes

def value? (o : Object) (slot : Nat) : Option Slot :=
  if slot < o.count then o.slots[slot]? else none

/-- The slots in use, from the first on. -/
def values (o : Object) : List Slot := (o.slots.extract 0 o.count).toList

/-- The records that the slots in use refer to, in slot order. -/
def references (o : Object) : List RecordId := o.values.filterMap id

def get (o : Object) (slot : Nat) : Except Failure Slot :=
  match o.value? slot with
  | some v => .ok v
  | none => .error .outOfBounds

def nameAt (o : Object) (slot : Nat) : Except Failure QName :=
  match if slot < o.count then o.names.nameAt? slot else none with
  | some q => .ok q
  | none => .error .outOfBounds

/-- Slot, name and value of every slot in use. -/
def properties (o : Object) : List (Nat × Option QName × Slot) :=
  o.values.zipIdx.map fun (v, slot) => (slot, o.names.nameAt? slot, v)

/-- A bare write to a slot that exists. -/
def write (o : Object) (slot : Nat) (v : Slot) : Object :=
  { o with slots := o.slots.setIfInBounds slot v }

def withDynamic (o : Object) (dynamic : Bool) : Object := { o with dynamic }

/-- The bytes that growing to `count` slots would add. -/
def growthBytes? (o : Object) (count : Nat) : Option Nat :=
  Capacity.growthBytes? o.capacity count

variable [NameHash]

def lookup? (o : Object) (q : QName) : Option Nat := o.names.lookup? q o.count

def lookupSingle (o : Object) (name : String) : SingleMatch := o.names.lookupSingle name o.count

/-- An instance laid out after the name table of its type, with `extra` unnamed slots behind it.
It keeps the table of the type unless it is dynamic, separate or has such slots. The number of slots
is assumed to be less than `2 ^ 64`. -/
def ofTemplate (template : NameTable) (extra : Nat) (dynamic separate : Bool) : Object :=
  let count := template.size + extra
  let own := separate || dynamic || 0 < extra
  let names := if own then template.ensureSize count else template
  { slots := Array.replicate (Capacity.roundUp count) none
    names := if 0 < extra then names.reindex count else names
    count, dynamic
    shared := !own }

/-- Makes at least `n` slots usable. New slots are null and unnamed, and room only ever grows. -/
def grow (o : Object) (n : Nat) : Except Failure Object :=
  if n ≤ o.capacity then
    .ok { o with
      names := o.names.ensureSize n
      count := max o.count n
      shared := o.shared && n ≤ o.names.size }
  else
    match Capacity.reserve? o.capacity n with
    | none => .error .outOfMemory
    | some capacity =>
      let names := o.names.ensureSize n
      .ok { o with
        slots := o.slots ++ Array.replicate (capacity - o.capacity) none
        names := if 0 < o.count then names.reindex (max n o.count) else names
        count := max o.count n
        shared := false }

/-- The slot that a store goes to. A negative one appends; one past the end grows the object, which
needs a dynamic object or compiler mode. -/
def checkSlot (o : Object) (slot : Int) (compiler : Bool) : Except Failure (Nat × Object) :=
  let slot := if slot < 0 then o.count else slot.toNat
  if slot < o.count then .ok (slot, o)
  else if !o.dynamic && !compiler then .error .typeError
  else (o.grow (slot + 1)).map (slot, ·)

/-- Stores a value and tells the slot written. -/
def setValue (o : Object) (slot : Int) (v : Slot) (compiler : Bool) :
    Except Failure (Nat × Object) :=
  (o.checkSlot slot compiler).map fun (slot, o) => (slot, o.write slot v)

/-- Names a slot, or renames it, and tells which. -/
def setName (o : Object) (slot : Int) (q : QName) (compiler : Bool) :
    Except Failure (Nat × Object) :=
  (o.checkSlot slot compiler).map fun (slot, o) =>
    if o.names.nameAt? slot = some q then (slot, o)
    else (slot, { o with names := o.names.rename slot q o.count, shared := false })

/-- An object with the given values in unnamed slots. -/
def ofValues (dynamic : Bool) (values : List Slot) : Object :=
  values.foldl (fun o v => match o.setValue (-1) v true with | .ok (_, o) => o | .error _ => o)
    (empty dynamic)

/-- Blanks a slot. The last one is given up, the others stay in place. -/
def delete (o : Object) (slot : Nat) (compiler : Bool) : Except Failure Object :=
  if !o.dynamic && !compiler then .error .typeError
  else if o.count ≤ slot then .error .outOfBounds
  else
    let o := o.write slot none
    let o :=
      if (o.names.nameAt? slot).any (!·.isUnnamed) then
        { o with names := o.names.clear slot, shared := false }
      else o
    .ok (if slot + 1 = o.count then { o with count := slot } else o)

/-- Opens `n` null and unnamed slots in front of `offset`; the later ones move up. -/
def insert (o : Object) (n offset : Nat) : Except Failure Object :=
  if o.count < offset then .error .outOfBounds
  else if n = 0 then .ok o
  else if wordLimit ≤ o.count + n then .error .outOfBounds
  else
    (o.grow (o.count + n)).map fun grown =>
      { grown with
        slots := grown.slots.extract 0 offset ++ Array.replicate n none
          ++ grown.slots.extract offset o.count ++ grown.slots.extract (o.count + n) grown.capacity
        names := (grown.names.insertEntries offset n).reindex grown.count
        shared := false }

/-- Takes a slot out, in compiler mode only: the later ones move down if `compact`, otherwise the
slot is blanked. -/
def remove (o : Object) (slot : Nat) (compact compiler : Bool) : Except Failure Object :=
  if !compiler then .error .typeError
  else if o.count ≤ slot then .error .outOfBounds
  else if compact then
    .ok { o with
      slots := o.slots.extract 0 slot ++ o.slots.extract (slot + 1) o.count ++ #[none]
        ++ o.slots.extract o.count o.capacity
      names := (o.names.removeEntry slot).reindex (o.count - 1)
      count := o.count - 1
      shared := false }
  else .ok { o.write slot none with names := o.names.clear slot, shared := false }

theorem count_grow {o o' : Object} {n : Nat} (h : o.grow n = .ok o') :
    o'.count = max o.count n := by
  unfold grow at h
  split at h
  · obtain rfl := Except.ok.inj h
    rfl
  · split at h
    · simp at h
    · obtain rfl := Except.ok.inj h
      rfl

end Object

end ScriptHeap
