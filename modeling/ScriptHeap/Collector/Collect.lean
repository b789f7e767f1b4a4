import ScriptHeap.Collector.RootTable
import ScriptHeap.Collector.Sweep

/-!
Collections. A pass marks, sweeps and brings the root tables up to date. A quick or full request
makes one pass; a smart one makes passes as long as enough new records wait, four at most. If the
root tables are incomplete the request becomes a full one that repairs them.
-/

namespace ScriptHeap.Space

/-- The most passes that one smart request makes. -/
def smartPassLimit : Nat := 4

/-- The generation that a smart pass collects: the eldest one with more new records than the quota,
else the one with the most. None while fewer than the quota are new in all. -/
def smartTarget? (s : Space) : Option Gen :=
  let count (g : Gen) := (s.bucket g).newlyCreated
  let quota := s.collector.workQuota
  if count .new + count .young + count .old < quota then none
  else
    some <| ([Gen.old, .young, .new].find? (quota < count ·)).getD <|
      [Gen.young, .old].foldl (fun best g => if count best < count g then g else best) .new

/-- One pass over the generations up to `target`. -/
def collectPass [Environment] (s : Space) (target : Gen) (roots : List RecordId) (repair : Bool)
    (info : CollectInfo) : CollectInfo × Space :=
  let s := s.emit (.passStarted target repair)
  let (marked, s) := s.mark target roots repair
  let (swept, s) := s.sweep target
  let s := if repair then s.rebuildRoots else s.resetRoots target
  let c := s.collector
  (info.addPass target marked swept.reclaimed swept.promoted,
    { s with
      collector := { c with
        phase := .idle
        stats := { c.stats with totalMarked := c.stats.totalMarked + marked } } })

/-- At most `n` smart passes. -/
def smartPasses [Environment] (roots : List RecordId) :
    Nat → CollectInfo → Space → CollectInfo × Space
  | 0, info, s => (info, s)
  | n + 1, info, s =>
    match s.smartTarget? with
    | none => (info, s)
    | some target =>
      let (info, s) := s.collectPass target roots false info
      smartPasses roots n info s

/-- The root tables have to be repaired. -/
def needsRepair (s : Space) : Bool := s.collector.overflow || s.collector.pendingFull

/-- The passes of a request. -/
def runPasses [Environment] (s : Space) (mode : Mode) (roots : List RecordId) :
    CollectInfo × Space :=
  if s.needsRepair then s.collectPass .old roots true (.start .full)
  else
    match mode with
    | .quick => s.collectPass .new roots false (.start .quick)
    | .full => s.collectPass .old roots false (.start .full)
    | .smart => smartPasses roots smartPassLimit (.start .smart) s

/-- Runs a request from the given heap roots. A collector that is switched off does nothing. -/
def collect [Environment] (s : Space) (mode : Mode) (roots : List RecordId) :
    CollectInfo × Space :=
  if !s.collector.enabled || s.collector.phase ≠ .idle then
    (.start (if s.needsRepair then .full else mode), s)
  else
    let s := { s with collector := { s.collector with required := false, workDone := 0 } }
    let (info, s) := s.runPasses mode roots
    let s := { s with
      collector := { s.collector with stats := s.collector.stats.countCollection info.mode } }
    (info, s.emit (.collected info s.usedMemory))

end ScriptHeap.Space
