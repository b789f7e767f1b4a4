import ScriptHeap.Collector.Barrier

/-!
The sweep phase. In a collected bucket a marked record stays, or is promoted if it survived before;
an unmarked one is reclaimed unless it is permanent. A promoted record is listed in the root table
of the generation it leaves, since it may refer to records there.
-/

namespace ScriptHeap

/-- What becomes of a record in a sweep. -/
inductive Fate where
  | keep
  | promote
  | reclaim
deriving DecidableEq, Repr

namespace Header

/-- What becomes of a record of generation `g`. -/
def fate (h : Header) (g : Gen) : Fate :=
  if h.marked then
    if g < Gen.old && h.survived then .promote else .keep
  else if h.permanent then .keep
  else .reclaim

/-- The header of a record of generation `g` after it has come through. -/
def aged (h : Header) (g : Gen) : Header :=
  if !h.marked then h
  else if g < Gen.old then
    if h.survived then { h with marked := false, survived := false, generation := g.next }
    else { h with marked := false, survived := true }
  else { h with marked := false }

end Header

namespace Space

/-- The live records of a bucket that meet the fate, in order. -/
def fated (s : Space) (g : Gen) (fate : Fate) : List RecordId :=
  (s.bucket g).live.filter fun id => (s.arena.header? id).any fun h => h.fate g = fate

/-- A record moves up from generation `g`. -/
def promote (s : Space) (g : Gen) (id : RecordId) : Space :=
  let s := (s.emit (.promoted id g)).updateBucket g.next (·.link id)
  (s.addRoot g id).2

structure SweepCount where
  reclaimed : Nat
  promoted : Nat
deriving DecidableEq, Repr

/-- Sweeps one bucket. -/
def sweepBucket [Environment] (s : Space) (g : Gen) : SweepCount × Space :=
  let kept := s.fated g .keep
  let promoted := s.fated g .promote
  let dead := s.fated g .reclaim
  let s := s.modifyHeaders (kept ++ promoted) (·.aged g)
  let s := dead.foldl reclaim s
  let s := s.updateBucket g (·.swept kept dead.length)
  (⟨dead.length, promoted.length⟩, promoted.foldl (promote · g) s)

/-- Sweeps the generations up to `target`, the eldest first, and takes the marks off the others. -/
def sweep [Environment] (s : Space) (target : Gen) : SweepCount × Space :=
  let s := { s with collector := { s.collector with phase := .sweeping } }
  let (n, s) := (Gen.upTo target).reverse.foldl
    (fun (n, s) g =>
      let (k, s) := sweepBucket s g
      (⟨n.reclaimed + k.reclaimed, n.promoted + k.promoted⟩, s))
    ((⟨0, 0⟩ : SweepCount), s)
  let s := (Gen.above target).foldl
    (fun s g => s.modifyHeaders (s.bucket g).live ({ · with marked := false })) s
  (n, { s with
    collector := { s.collector with
      stats := s.collector.stats.countSweep n.reclaimed n.promoted } })

end Space

end ScriptHeap
