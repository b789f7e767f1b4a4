import ScriptHeap.Environment
import ScriptHeap.Generation
import ScriptHeap.Record.Payload
import ScriptHeap.Record.TypeRegistry

/-!
Records: a header with the state of the collector, a type, and a body that depends on the kind.

A record that is reclaimed into a pool keeps only its type, sequence number and size. Seen from
outside it is filled with a pattern that no live record has.
-/

namespace ScriptHeap

inductive Body where
  | object (o : Object)
  | string (text : String)
  /-- A number, by the bits of its binary64 form. -/
  | number (bits : UInt64)
  | boolean (b : Bool)
  | native (p : Payload)
  /-- A native record that waits for its payload. -/
  | empty
  /-- Nothing: the body of a reclaimed record. -/
  | free
deriving DecidableEq, Repr

namespace Body

/-- What a record of the kind starts with. -/
def initial : Kind → Body
  | .object => object (.empty false)
  | .string => string ""
  | .number => number 0
  | .boolean => boolean false
  | .native => empty

/-- The records that the body refers to. -/
def references : Body → List RecordId
  | object o => o.references
  | native p => p.references
  | _ => []

/-- Bytes of storage that the body owns outside its record. -/
def storageBytes [Environment] : Body → Nat
  | object o => o.storageBytes
  | string text => if Environment.storesText text then text.utf8ByteSize else 0
  | _ => 0

def object? : Body → Option Object
  | object o => some o
  | _ => none

def payload? : Body → Option Payload
  | native p => some p
  | _ => none

/-- The body can belong to a record of the kind. -/
def fits : Kind → Body → Bool
  | .object, object _ => true
  | .string, string _ => true
  | .number, number _ => true
  | .boolean, boolean _ => true
  | .native, native _ => true
  | .native, empty => true
  | _, _ => false

end Body

structure Header where
  generation : Gen
  marked : Bool
  /-- Survived a collection of its generation; the next survival promotes. -/
  survived : Bool
  /-- Never reclaimed. -/
  permanent : Bool
  /-- The generations whose root tables list this record. -/
  rootLinks : GenSet
  /-- The younger generations that this record was last seen to refer to. -/
  refLinks : GenSet
  /-- Counts allocations, and stays when the record is reused. -/
  seq : UInt32
  /-- Bytes charged for the record, its body not counted. -/
  size : UInt32
deriving DecidableEq, Repr

def Header.fresh (seq size : UInt32) : Header :=
  ⟨.new, false, false, false, ∅, ∅, seq, size⟩

structure Record where
  header : Header
  type : TypeId
  body : Body
deriving DecidableEq, Repr

/-- What is left of a record in a pool. -/
structure Husk where
  type : TypeId
  seq : UInt32
  size : UInt32
deriving DecidableEq, Repr

def Record.husk (r : Record) : Husk := ⟨r.type, r.header.seq, r.header.size⟩

/-- The bytes charged for a record. -/
def Record.bytes [Environment] (r : Record) : Nat := r.header.size.toNat + r.body.storageBytes

/-- The content of an occupied place of the arena. -/
inductive Cell where
  | live (r : Record)
  | pooled (h : Husk)
deriving DecidableEq, Repr

namespace Cell

def live? : Cell → Option Record
  | live r => some r
  | pooled _ => none

def isLive (c : Cell) : Bool := c.live?.isSome

def body : Cell → Body
  | live r => r.body
  | pooled _ => .free

def size : Cell → UInt32
  | live r => r.header.size
  | pooled h => h.size

/-- The bytes charged for a cell. -/
def bytes [Environment] : Cell → Nat
  | live r => r.bytes
  | pooled h => h.size.toNat

/-- A live record that no mark phase has reached. -/
def isUnmarked : Cell → Bool
  | live r => !r.header.marked
  | pooled _ => false

end Cell

/-- A cell as it looks from outside. -/
structure Snapshot where
  type : TypeId
  generation : Nat
  marked : Bool
  survived : Bool
  permanent : Bool
  rootLinks : Nat
  refLinks : Nat
  seq : UInt32
  size : UInt32
  magic : UInt32
  body : Body
deriving DecidableEq, Repr

namespace Snapshot

def liveMagic : UInt32 := 0xe1eea5a5

def pooledMagic : UInt32 := 0xdeadbeef

def ofRecord (r : Record) : Snapshot where
  type := r.type
  generation := r.header.generation.val
  marked := r.header.marked
  survived := r.header.survived
  permanent := r.header.permanent
  rootLinks := r.header.rootLinks.toMask
  refLinks := r.header.refLinks.toMask
  seq := r.header.seq
  size := r.header.size
  magic := liveMagic
  body := r.body

/-- Every field of a pooled record but those it keeps has a fixed value. -/
def ofHusk (h : Husk) : Snapshot where
  type := h.type
  generation := 255
  marked := true
  survived := true
  permanent := false
  rootLinks := 255
  refLinks := 255
  seq := h.seq
  size := h.size
  magic := pooledMagic
  body := .free

end Snapshot

def Cell.snapshot : Cell → Snapshot
  | live r => .ofRecord r
  | pooled h => .ofHusk h

end ScriptHeap
