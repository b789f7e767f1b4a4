import ScriptHeap.Heap.Basic

/-!
The allocation report: the counters of the heap, of its generations and of the pools in use, and the
text form of the report.
-/

namespace ScriptHeap

structure PoolReport where
  typeName : String
  instanceSize : Nat
  stats : PoolStats

structure AllocReport where
  stats : Stats
  generations : List BucketStats
  pools : List PoolReport
  pooledRecords : Nat
  degraded : Bool

namespace AllocReport

/-- A comma stands after every third digit from the right. -/
def groupDigits (n : Nat) : String :=
  let digits := n.repr.toList
  .ofList <| digits.zipIdx.flatMap fun (c, i) =>
    if 0 < i && (digits.length - i) % 3 = 0 then [',', c] else [c]

/-- Text at the right end of a column. -/
def right (width : Nat) (text : String) : String :=
  .ofList (List.replicate (width - text.length) ' ') ++ text

/-- Text at the left end of a column. -/
def left (width : Nat) (text : String) : String :=
  text ++ .ofList (List.replicate (width - text.length) ' ')

def totalLine (label : String) (n : Nat) : String :=
  "  " ++ left 19 label ++ right 14 (groupDigits n)

def totalLines (r : AllocReport) : List String :=
  ["GC Statistics",
    totalLine "Used memory" r.stats.usedMemory,
    totalLine "Peak memory" r.stats.peakMemory,
    totalLine "Allocated objects" r.stats.allocatedObjects,
    totalLine "Peak objects" r.stats.peakAllocated,
    totalLine "Total allocations" r.stats.totalAllocated,
    totalLine "Total reclaimed" r.stats.totalReclaimed,
    totalLine "Total promoted" r.stats.totalPromoted,
    totalLine "Collections" r.stats.collections,
    totalLine "Root overflows" r.stats.totalOverflows,
    totalLine "Memory redlines" r.stats.totalRedlines,
    totalLine "Pooled records" r.pooledRecords]
  ++ if r.degraded then ["  Heap is in degraded mode"] else []

def generationLine (g : Nat) (s : BucketStats) : String :=
  "  " ++ left 3 g.repr ++ " " ++ right 11 (groupDigits s.live) ++ " "
    ++ right 11 (groupDigits s.roots) ++ " " ++ right 12 (groupDigits s.totalReclaimed) ++ " "
    ++ right 8 (groupDigits s.totalSweeps)

def poolLine (p : PoolReport) : String :=
  "  " ++ left 20 p.typeName ++ " " ++ right 8 p.instanceSize.repr ++ " "
    ++ right 7 (groupDigits p.stats.allocated) ++ " "
    ++ right 7 (groupDigits p.stats.peakAllocated) ++ " "
    ++ right 7 (groupDigits p.stats.count) ++ " " ++ right 9 (groupDigits p.stats.peakCount) ++ " "
    ++ right 7 (groupDigits p.stats.reuse)

def lines (r : AllocReport) : List String :=
  r.totalLines ++ ["", "  Gen        Live       Roots    Reclaimed   Sweeps"]
    ++ r.generations.zipIdx.map (fun (s, g) => generationLine g s)
    ++ ["", "  Type                     Size   Alloc    Peak    Pool  PeakPool   Reuse"]
    ++ r.pools.map poolLine

/-- The report as text, each line with its end. -/
def render (r : AllocReport) : String := .join (r.lines.map (· ++ "\n"))

end AllocReport

namespace Heap

/-- The pools that ever held a live record of a known type. -/
def poolReports (h : Heap) : List PoolReport :=
  (h.pools.allStats.filter fun stats => 0 < stats.peakAllocated).filterMap fun stats =>
    (h.types.get? stats.type).map fun info => ⟨info.name.render, info.instanceSize, stats⟩

def report (h : Heap) : AllocReport where
  stats := h.collector.stats
  generations := Gen.all.map fun g => (h.bucket g).stats
  pools := h.poolReports
  pooledRecords := h.pools.pooledCount
  degraded := h.degraded

/-- Writes the report to the journal. -/
def printReport : HeapM Unit :=
  modify fun h => { h with toSpace := h.toSpace.emit (.report h.report.render) }

end Heap

end ScriptHeap
