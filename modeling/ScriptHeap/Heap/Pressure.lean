import ScriptHeap.Heap.Basic

/-!
Collection requests and memory pressure. After a request the pools are pruned if the heap has
reached its redline. If it is then still at its hard limit, the request fails and the heap degrades
until it comes down below the redline.
-/

namespace ScriptHeap.Heap

/-- Prunes the pools if the redline is reached. -/
def relieve (h : Heap) : Heap :=
  if h.options.redline ≤ h.usedMemory then
    let (released, s) := h.toSpace.prune
    let stats := s.collector.stats
    let s := { s with
      collector := { s.collector with
        stats := { stats with totalRedlines := stats.totalRedlines + 1 } } }
    { h with toSpace := s.emit (.poolsPruned released s.usedMemory h.options.redline) }
  else h

/-- The hard limit is reached. -/
def exhausted (h : Heap) : Bool := h.options.maxMemory ≤ h.usedMemory

def degrade (h : Heap) : Heap :=
  if h.degraded then h
  else
    { h with
      toSpace := h.toSpace.emit (.exhausted h.usedMemory h.options.maxMemory)
      degraded := true }

def recover (h : Heap) : Heap :=
  if h.degraded && h.usedMemory < h.options.redline then
    { h with
      toSpace := h.toSpace.emit (.relieved h.usedMemory)
      degraded := false }
  else h

/-- Applies the policy for memory pressure. -/
def checkMemory : HeapM Unit := do
  modify relieve
  let h ← get
  if h.exhausted then
    modify degrade
    refuse (.memoryExceeded h.options.maxMemory)
  else modify recover

/-- Runs a collection, then applies the policy. -/
def collect [Environment] (mode : Mode) : HeapM CollectInfo := do
  let h ← get
  let (info, s) := h.toSpace.collect mode h.roots
  set { h with toSpace := s }
  checkMemory
  return info

/-- A safepoint: runs a smart collection if one is due. -/
def collectIfRequired [Environment] : HeapM (Option CollectInfo) := do
  let h ← get
  if h.collector.required && h.options.demandCollect then return some (← collect .smart)
  else return none

def isTimeToCollect (h : Heap) (idle : Nat) : Bool := h.collector.isTime h.options idle

/-- Switches the collector on or off and tells the setting before. -/
def enableCollector (on : Bool) : HeapM Bool := do
  let h ← get
  set { h with collector := { h.collector with enabled := on } }
  return h.collector.enabled

/-- Sets the generation that new records go to and tells the one before. -/
def setAllocGeneration (g : Gen) : HeapM Gen := do
  let h ← get
  set { h with collector := { h.collector with allocGeneration := g } }
  return h.collector.allocGeneration

/-- Keeps a record for good. -/
def makePermanent (id : RecordId) : HeapM Unit := do
  if (← get).arena.isLive id then modifySpace (·.modifyHeader id ({ · with permanent := true }))
  else refuse (.notLive id)

/-- Lets a permanent record be collected again. The barrier never noted references to it, so the
next request is a full one. -/
def makeTransient (id : RecordId) : HeapM Unit := do
  match (← get).arena.header? id with
  | none => refuse (.notLive id)
  | some header =>
    if header.permanent then
      modifySpace fun s =>
        let s := s.modifyHeader id ({ · with permanent := false })
        { s with collector := { s.collector with pendingFull := true } }

end ScriptHeap.Heap
