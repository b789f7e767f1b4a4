import ScriptHeap.Collector.Marking

/-!
Upkeep of the root tables after a sweep. Usually the tables of the collected generations are
compacted: a holder stays listed only while it refers into the generation, else it moves to the
youngest elder generation it still refers to. A repair lists every elder record anew.
-/

namespace ScriptHeap.Space

/-- The younger generations that a live record refers to. -/
def references? (s : Space) (holder : RecordId) : Option GenSet :=
  (s.arena.live? holder).map fun r =>
    s.arena.youngerThan r.header.generation r.body.references

/-- The holder stays in the table of `g`. -/
def staysListed (s : Space) (g : Gen) (holder : RecordId) : Bool :=
  (s.references? holder).any (·.contains g)

/-- Where a holder that leaves the table of `g` moves to, unless a younger table lists it. -/
def movesTo? (s : Space) (g : Gen) (holder : RecordId) : Option Gen :=
  match s.references? holder, s.arena.header? holder with
  | some refs, some h =>
    if refs.contains g then none
    else (refs.leastAbove? g).filter fun next => !(h.rootLinks.erase g).anyUpTo next
  | _, _ => none

/-- Brings the links of a holder in the table of `g` up to date. -/
def relink (s : Space) (g : Gen) (holder : RecordId) : Space :=
  match s.references? holder with
  | none => s
  | some refs =>
    s.modifyHeader holder fun h =>
      { h with
        refLinks := refs
        rootLinks := if refs.contains g then h.rootLinks else h.rootLinks.erase g }

/-- Compacts the root table of `g`. -/
def compactTable (s : Space) (g : Gen) : Space :=
  let holders := (s.bucket g).roots
  let kept := holders.filter (s.staysListed g)
  let moved := holders.filterMap fun id => (s.movesTo? g id).map (id, ·)
  let s := holders.foldl (relink · g) s
  let s := s.updateBucket g ({ · with roots := kept })
  moved.foldl (fun s (id, next) => (s.addRoot next id).2) s

/-- Compacts the root tables of the generations up to `target`, the youngest first. -/
def resetRoots (s : Space) (target : Gen) : Space := (Gen.upTo target).foldl compactTable s

/-- Empties every root table. -/
def clearRoots (s : Space) : Space :=
  let s := Gen.all.foldl (fun s g => s.updateBucket g ({ · with roots := [] })) s
  let s := Gen.all.foldl
    (fun s g => s.modifyHeaders (s.bucket g).live ({ · with rootLinks := ∅ })) s
  { s with collector := { s.collector with overflow := false, pendingFull := false } }

/-- Lists a record of generation `g` for every younger generation that it refers to. -/
def relist (s : Space) (g : Gen) (holder : RecordId) : Space :=
  match s.references? holder with
  | none => s
  | some refs =>
    let s := s.modifyHeader holder ({ · with refLinks := refs })
    ((Gen.all.filter fun h => h < g && refs.contains h)).foldl
      (fun s young => (s.addRoot young holder).2) s

/-- Builds every root table anew from the live records. -/
def rebuildRoots (s : Space) : Space :=
  let s := (Gen.above .new).foldl
    (fun s g => (s.bucket g).live.foldl (relist · g) s) s.clearRoots
  s.emit (.tablesRebuilt s.collector.overflow (Gen.all.map fun g => (s.bucket g).roots.length))

end ScriptHeap.Space
