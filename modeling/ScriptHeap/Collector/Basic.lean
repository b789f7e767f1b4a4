import ScriptHeap.Generation
import ScriptHeap.Identifier
import ScriptHeap.Options

/-!
The state of the collector: a bucket per generation, the flags that ask for a collection, and the
counters.

A bucket lists the live records of its generation, and in its root table elder records that may
refer into it.
-/

namespace ScriptHeap

/-- What a request collects. -/
inductive Mode where
  /-- The youngest generation. -/
  | quick
  /-- The generations that the numbers of new records suggest. -/
  | smart
  /-- Every generation that can be collected. -/
  | full
deriving DecidableEq, Repr

def Mode.name : Mode → String
  | quick => "Quick"
  | smart => "Smart"
  | full => "Full"

inductive Phase where
  | idle
  | marking
  | sweeping
deriving DecidableEq, Repr

def Phase.name : Phase → String
  | idle => "Idle"
  | marking => "Marking"
  | sweeping => "Sweeping"

structure Bucket where
  /-- The live records of the generation, the latest arrival first. -/
  arrivals : List RecordId
  /-- The root table: elder records that may refer into the generation. -/
  roots : List RecordId
  /-- Arrivals since the last sweep. -/
  newlyCreated : Nat
  totalReclaimed : Nat
  totalSweeps : Nat
deriving DecidableEq, Repr

namespace Bucket

def empty : Bucket := ⟨[], [], 0, 0, 0⟩

instance : Inhabited Bucket := ⟨empty⟩

/-- The live records of the generation, in order of arrival. -/
def live (b : Bucket) : List RecordId := b.arrivals.reverse

/-- A record arrives. -/
def link (b : Bucket) (id : RecordId) : Bucket :=
  { b with arrivals := id :: b.arrivals, newlyCreated := b.newlyCreated + 1 }

/-- A sweep leaves the records `kept`. -/
def swept (b : Bucket) (kept : List RecordId) (reclaimed : Nat) : Bucket :=
  { b with
    arrivals := kept.reverse
    newlyCreated := 0
    totalReclaimed := b.totalReclaimed + reclaimed
    totalSweeps := b.totalSweeps + 1 }

@[simp] theorem live_empty : empty.live = [] := rfl

@[simp] theorem live_link (b : Bucket) (id : RecordId) : (b.link id).live = b.live ++ [id] := by
  simp [live, link]

@[simp] theorem live_swept (b : Bucket) (kept : List RecordId) (n : Nat) :
    (b.swept kept n).live = kept := by
  simp [live, swept]

end Bucket

/-- The counters of one generation. -/
structure BucketStats where
  live : Nat
  roots : Nat
  newlyCreated : Nat
  totalReclaimed : Nat
  totalSweeps : Nat
deriving DecidableEq, Repr

def Bucket.stats (b : Bucket) : BucketStats :=
  ⟨b.arrivals.length, b.roots.length, b.newlyCreated, b.totalReclaimed, b.totalSweeps⟩

structure Stats where
  collections : Nat := 0
  quickCollections : Nat := 0
  smartCollections : Nat := 0
  fullCollections : Nat := 0
  /-- Records that are live now. -/
  allocatedObjects : Nat := 0
  peakAllocated : Nat := 0
  totalAllocated : Nat := 0
  totalReclaimed : Nat := 0
  totalMarked : Nat := 0
  totalPromoted : Nat := 0
  totalOverflows : Nat := 0
  totalRedlines : Nat := 0
  /-- Bytes charged now. -/
  usedMemory : Nat := 0
  peakMemory : Nat := 0
  /-- Every charge and refund so far, the latest one first. -/
  charges : List Int := []
deriving DecidableEq, Repr, Inhabited

namespace Stats

/-- Charges or refunds bytes. -/
def track (s : Stats) (delta : Int) : Stats :=
  let used := ((s.usedMemory : Int) + delta).toNat
  { s with
    usedMemory := used
    peakMemory := max s.peakMemory used
    charges := delta :: s.charges }

def countBirth (s : Stats) : Stats :=
  { s with
    totalAllocated := s.totalAllocated + 1
    allocatedObjects := s.allocatedObjects + 1
    peakAllocated := max s.peakAllocated (s.allocatedObjects + 1) }

def countSweep (s : Stats) (reclaimed promoted : Nat) : Stats :=
  { s with
    allocatedObjects := s.allocatedObjects - reclaimed
    totalReclaimed := s.totalReclaimed + reclaimed
    totalPromoted := s.totalPromoted + promoted }

def countCollection (s : Stats) : Mode → Stats
  | .quick =>
    { s with collections := s.collections + 1, quickCollections := s.quickCollections + 1 }
  | .smart =>
    { s with collections := s.collections + 1, smartCollections := s.smartCollections + 1 }
  | .full => { s with collections := s.collections + 1, fullCollections := s.fullCollections + 1 }

end Stats

/-- The summary of one request. -/
structure CollectInfo where
  /-- The mode that was run, which is full if the root tables needed repair. -/
  mode : Mode
  /-- The eldest generation that the last pass collected. -/
  target : Option Gen
  passes : Nat
  marked : Nat
  reclaimed : Nat
  promoted : Nat
deriving DecidableEq, Repr

def CollectInfo.start (mode : Mode) : CollectInfo := ⟨mode, none, 0, 0, 0, 0⟩

/-- Adds one pass to the summary. -/
def CollectInfo.addPass (i : CollectInfo) (target : Gen) (marked reclaimed promoted : Nat) :
    CollectInfo :=
  { i with
    target := some target
    passes := i.passes + 1
    marked := i.marked + marked
    reclaimed := i.reclaimed + reclaimed
    promoted := i.promoted + promoted }

structure Collector where
  buckets : Vector Bucket 4
  /-- Where new records go. -/
  allocGeneration : Gen
  phase : Phase
  enabled : Bool
  /-- The quota is reached and a collection is due. -/
  required : Bool
  /-- A root table was full, so the next request repairs the tables. -/
  overflow : Bool
  /-- The root tables are incomplete for another reason. -/
  pendingFull : Bool
  /-- Allocations since the last request. -/
  workDone : Nat
  workQuota : Nat
  rootCapacity : Nat
  stats : Stats
  /-- Records that the mark phase has still to visit. -/
  worklist : List RecordId
deriving DecidableEq, Repr

namespace Collector

/-- The collector of a heap without records. A quota of zero counts as one. -/
def fresh (o : HeapOptions) : Collector where
  buckets := Vector.replicate 4 .empty
  allocGeneration := .new
  phase := .idle
  enabled := !o.compilerMode
  required := false
  overflow := false
  pendingFull := false
  workDone := 0
  workQuota := max o.workQuota 1
  rootCapacity := o.rootCapacity
  stats := {}
  worklist := []

def bucket (c : Collector) (g : Gen) : Bucket := c.buckets.get g

def updateBucket (c : Collector) (g : Gen) (f : Bucket → Bucket) : Collector :=
  { c with buckets := c.buckets.set g.val (f (c.buckets.get g)) g.isLt }

def track (c : Collector) (delta : Int) : Collector := { c with stats := c.stats.track delta }

/-- There is idle time enough and enough to do. -/
def isTime (c : Collector) (o : HeapOptions) (idle : Nat) : Bool :=
  o.idleTime ≤ idle && c.enabled && c.phase = .idle && c.workQuota - o.idleSlack ≤ c.workDone

theorem bucket_updateBucket (c : Collector) (g : Gen) (f : Bucket → Bucket) (h : Gen) :
    (c.updateBucket g f).bucket h = if h = g then f (c.bucket g) else c.bucket h := by
  refine (Vector.getElem_set g.isLt h.isLt).trans ?_
  by_cases hg : h = g
  · simp [hg, bucket]
  · have : g.val ≠ h.val := fun e => hg (Fin.ext e.symm)
    simp [hg, this, bucket, Vector.get]

end Collector

end ScriptHeap
