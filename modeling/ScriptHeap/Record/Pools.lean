import ScriptHeap.Record.Arena

/-!
Type pools. A reclaimed record stays in the arena and waits in the pool of its type, and the next
allocation of that type takes it again. Types from `maxTypes` on have no pool; their places go back
to the arena at once. A pooled record is still charged for, its body is not.
-/

namespace ScriptHeap

structure TypePool where
  /-- The records that wait, the next one to be reused on top. -/
  free : List RecordId
  /-- Live records of the type. -/
  allocated : Nat
  peakAllocated : Nat
  peakCount : Nat
  /-- Allocations that took a waiting record. -/
  reuse : Nat
deriving DecidableEq, Repr

namespace TypePool

def empty : TypePool := ⟨[], 0, 0, 0, 0⟩

instance : Inhabited TypePool := ⟨empty⟩

/-- A live record more. -/
def countBirth (p : TypePool) : TypePool :=
  { p with
    allocated := p.allocated + 1
    peakAllocated := max p.peakAllocated (p.allocated + 1) }

/-- The record on top leaves the pool. -/
def pop (p : TypePool) : TypePool := { p with free := p.free.tail, reuse := p.reuse + 1 }

/-- A live record dies and waits in the pool. -/
def park (p : TypePool) (id : RecordId) : TypePool :=
  { p with
    free := id :: p.free
    allocated := p.allocated - 1
    peakCount := max p.peakCount (p.free.length + 1) }

def clear (p : TypePool) : TypePool := { p with free := [] }

end TypePool

/-- The counters of one pool. -/
structure PoolStats where
  type : TypeId
  allocated : Nat
  peakAllocated : Nat
  count : Nat
  peakCount : Nat
  reuse : Nat
deriving DecidableEq, Repr

structure TypePools where
  pools : Array TypePool
  /-- Types below this one have a pool. -/
  maxTypes : Nat
  /-- The number of allocations so far, as a 32-bit word. -/
  seq : UInt32
deriving DecidableEq, Repr

namespace TypePools

def empty (maxTypes : Nat) : TypePools := ⟨#[], maxTypes, 0⟩

/-- The pool of a type, empty if it is not in use. -/
def pool (p : TypePools) (type : TypeId) : TypePool := p.pools[type]?.getD .empty

def free (p : TypePools) (type : TypeId) : List RecordId := (p.pool type).free

def hasFree (p : TypePools) (type : TypeId) : Bool := !(p.free type).isEmpty

/-- Changes the pool of a type, which comes into being with its first use. -/
def update (p : TypePools) (type : TypeId) (f : TypePool → TypePool) : TypePools :=
  if type < p.maxTypes then
    { p with
      pools := (p.pools ++ Array.replicate (type + 1 - p.pools.size) TypePool.empty).modify type f }
  else p

/-- The records that wait in any pool, in the order in which a pruning releases them. -/
def waiting (p : TypePools) : List RecordId := p.pools.toList.flatMap fun pool => pool.free.reverse

def pooledCount (p : TypePools) : Nat := p.waiting.length

def stats? (p : TypePools) (type : TypeId) : Option PoolStats :=
  p.pools[type]?.map fun pool =>
    { type
      allocated := pool.allocated
      peakAllocated := pool.peakAllocated
      count := pool.free.length
      peakCount := pool.peakCount
      reuse := pool.reuse }

def allStats (p : TypePools) : List PoolStats := (List.range p.pools.size).filterMap p.stats?

theorem pool_update (p : TypePools) (type : TypeId) (f : TypePool → TypePool) (u : TypeId) :
    (p.update type f).pool u =
      if u = type ∧ type < p.maxTypes then f (p.pool type) else p.pool u := by
  unfold update pool
  by_cases h : type < p.maxTypes
  · by_cases hu : u = type
    · subst hu
      simp only [h, if_true, Array.getElem?_modify, Array.getElem?_append, Array.getElem?_replicate]
      by_cases hs : u < p.pools.size
      · simp [hs]
      · have hlt : u - p.pools.size < u + 1 - p.pools.size :=
          Nat.sub_lt_sub_right (Nat.le_of_not_lt hs) (Nat.lt_succ_self u)
        simp [hs, hlt]
    · simp only [h, if_true, Array.getElem?_modify, Array.getElem?_append,
        Array.getElem?_replicate, hu, false_and, if_false, Ne.symm hu]
      by_cases hs : u < p.pools.size
      · simp [hs]
      · simp only [hs, if_false]
        split <;> simp [hs]
  · simp [h]

end TypePools

/-- The outcome of an allocation. -/
structure Allocation where
  id : RecordId
  reused : Bool
  /-- By how much the bytes charged change. -/
  delta : Int
deriving DecidableEq, Repr

/-- The arena and the pools that recycle its records. -/
structure Store where
  arena : Arena
  pools : TypePools
deriving DecidableEq, Repr

namespace Store

def empty (maxTypes : Nat) : Store := ⟨.empty, .empty maxTypes⟩

/-- Takes a record out of the pool of the type, or else a place of the arena. A record taken from a
pool keeps its sequence number, and only the difference to its old size is charged. -/
def allocate [Environment] (s : Store) (type : TypeInfo) (extra : Nat) (body : Body) :
    Allocation × Store :=
  let size := (type.instanceSize + extra).toUInt32
  let bytes := size.toNat + body.storageBytes
  let seq := s.pools.seq + 1
  let pools := { s.pools with seq }
  match (pools.free type.id).head?.bind fun id => (s.arena.get? id).map (id, ·) with
  | some (id, old) =>
    let record := ⟨.fresh old.snapshot.seq size, type.id, body⟩
    (⟨id, true, (bytes : Int) - old.size.toNat⟩,
      { arena := s.arena.put id (.live record)
        pools := pools.update type.id (·.pop.countBirth) })
  | none =>
    let (id, arena) := s.arena.insert ⟨.fresh seq size, type.id, body⟩
    (⟨id, false, bytes⟩, { arena, pools := pools.update type.id (·.countBirth) })

/-- Reclaims a live record: into the pool of its type, or back to the arena if there is none. Tells
the bytes that are no longer charged. -/
def reclaim [Environment] (s : Store) (id : RecordId) : Nat × Store :=
  match s.arena.live? id with
  | none => (0, s)
  | some r =>
    if r.type < s.pools.maxTypes then
      (r.body.storageBytes,
        { arena := s.arena.put id (.pooled r.husk)
          pools := s.pools.update r.type (·.park id) })
    else (r.bytes, { s with arena := s.arena.release id })

/-- Gives every waiting record back to the arena. Tells the bytes that are no longer charged. -/
def prune (s : Store) : Nat × Store :=
  let bytes := s.pools.waiting.foldr
    (fun id n => ((s.arena.get? id).map (·.size.toNat)).getD 0 + n) 0
  (bytes,
    { arena := s.pools.waiting.foldl .release s.arena
      pools := { s.pools with pools := s.pools.pools.map (·.clear) } })

end Store

end ScriptHeap
