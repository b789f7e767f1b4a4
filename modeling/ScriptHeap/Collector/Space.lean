import ScriptHeap.Collector.Event
import ScriptHeap.Record.Pools

/-!
The space in which records live: the store, the types, the collector, what finalizers left behind,
and a journal of events. A record that is allocated here joins the bucket that the collector
allocates into.
-/

namespace ScriptHeap

structure Space extends Store where
  types : TypeRegistry
  collector : Collector
  /-- The tags of finalized payloads, in order of reclamation. -/
  finalized : List String
  /-- The events since the journal was last read, the latest one first. -/
  journal : List Event
deriving DecidableEq, Repr

namespace Space

def fresh [Environment] (o : HeapOptions) : Space where
  toStore := .empty o.maxTypes
  types := .withBuiltins
  collector := .fresh o
  finalized := []
  journal := []

def bucket (s : Space) (g : Gen) : Bucket := s.collector.bucket g

def updateBucket (s : Space) (g : Gen) (f : Bucket → Bucket) : Space :=
  { s with collector := s.collector.updateBucket g f }

def usedMemory (s : Space) : Nat := s.collector.stats.usedMemory

def emit (s : Space) (e : Event) : Space := { s with journal := e :: s.journal }

def modifyHeader (s : Space) (id : RecordId) (f : Header → Header) : Space :=
  { s with arena := s.arena.modifyHeader id f }

def modifyHeaders (s : Space) (ids : List RecordId) (f : Header → Header) : Space :=
  { s with arena := s.arena.modifyHeaders ids f }

/-- Charges or refunds bytes. -/
def track (s : Space) (delta : Int) : Space := { s with collector := s.collector.track delta }

/-- A fresh record joins the bucket that is allocated into. The work it stands for may make a
collection due. -/
def addRecord (s : Space) (id : RecordId) : Space :=
  let c := s.collector
  let s := s.modifyHeader id ({ · with generation := c.allocGeneration })
  let c := c.updateBucket c.allocGeneration (·.link id)
  { s with
    collector := { c with
      stats := c.stats.countBirth
      workDone := c.workDone + 1
      required := c.required || (c.enabled && c.workQuota ≤ c.workDone + 1) } }

/-- Allocates a record, charges it and puts it into its bucket. -/
def allocate [Environment] (s : Space) (type : TypeInfo) (extra : Nat) (body : Body) :
    Allocation × Space :=
  let (a, store) := s.toStore.allocate type extra body
  (a, (({ s with toStore := store }).track a.delta).addRecord a.id)

/-- What the finalizer of a record leaves behind: something only if its type has one and the record
carries a payload that does. -/
def epitaph? (s : Space) (r : Record) : Option String :=
  if (s.types.get? r.type).any (·.finalizer) then r.body.payload?.bind Payload.epitaph? else none

/-- Finalizes a record, reclaims it and refunds what it was charged. -/
def reclaim [Environment] (s : Space) (id : RecordId) : Space :=
  let epitaph := ((s.arena.live? id).bind s.epitaph?).toList
  let (released, store) := s.toStore.reclaim id
  ({ s with toStore := store, finalized := s.finalized ++ epitaph }).track (-(released : Int))

/-- Gives the pooled records back to the arena. Tells the bytes refunded. -/
def prune (s : Space) : Nat × Space :=
  let (released, store) := s.toStore.prune
  (released, ({ s with toStore := store }).track (-(released : Int)))

end Space

end ScriptHeap
