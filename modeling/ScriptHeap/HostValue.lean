import ScriptHeap.Identifier

/-!
Host values as the marker sees them: references to records, nested in containers of any depth, with
parts that the marker skips. The marker visits the parts of a container in order, except that a map
has none.
-/

namespace ScriptHeap

inductive HostValue where
  | reference (id : RecordId)
  /-- A value without references. -/
  | leaf
  /-- Parts that are visited one after the other. -/
  | group (parts : List HostValue)
  /-- The values of a map. -/
  | table (parts : List HostValue)
  /-- A part that the marker skips. -/
  | skipped (part : HostValue)
deriving Inhabited

namespace HostValue

def ofSlot : Slot → HostValue
  | some id => reference id
  | none => leaf

def ofOption : Option HostValue → HostValue
  | some v => v
  | none => leaf

/-- A queue that the items enter by turns at the back and at the front. -/
def queue (items : List HostValue) : HostValue :=
  group (items.zipIdx.foldl (fun q (v, i) => if i % 2 = 0 then q ++ [v] else v :: q) [])

/-- An array of at most three items. -/
def triple (items : List HostValue) : HostValue := group (items.take 3)

/-- A scope: its parent, its variables, and slots that the marker skips. -/
def scope (parent : Slot) (vars hidden : List Slot) : HostValue :=
  group [ofSlot parent, group (vars.map ofSlot), skipped (group (hidden.map ofSlot))]

/-- A pair whose second part is skipped. -/
def couple (shown hidden : HostValue) : HostValue := group [shown, skipped hidden]

/-- A thrown value; its handler is skipped. -/
def thrown (value : RecordId) (handler : Slot) : HostValue :=
  group [reference value, skipped (ofSlot handler)]

mutual

/-- The references that the marker collects, in visiting order. -/
def references : HostValue → List RecordId
  | reference id => [id]
  | leaf => []
  | group parts => referencesOfAll parts
  | table parts => referencesOfAll parts
  | skipped _ => []

def referencesOfAll : List HostValue → List RecordId
  | [] => []
  | v :: vs => references v ++ referencesOfAll vs

end

mutual

/-- There is no map anywhere, so that the visiting order is determined. -/
def isOrdered : HostValue → Bool
  | reference _ => true
  | leaf => true
  | group parts => areOrdered parts
  | table _ => false
  | skipped part => isOrdered part

def areOrdered : List HostValue → Bool
  | [] => true
  | v :: vs => isOrdered v && areOrdered vs

end

/-- The references in a determined order: visiting order, or ascending order if there is a map. -/
def listing (v : HostValue) : List RecordId :=
  if v.isOrdered then v.references else v.references.mergeSort

end HostValue

end ScriptHeap
