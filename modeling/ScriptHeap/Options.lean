/-!
What a heap is configured with. Three profiles trade memory against speed.
-/

namespace ScriptHeap

inductive Profile where
  | size
  | balanced
  | speed
deriving DecidableEq, Repr

structure HeapOptions where
  /-- Allocations between two demanded collections. -/
  workQuota : Nat
  /-- Capacity of the root table of each generation. -/
  rootCapacity : Nat
  /-- Types below this one have a pool. -/
  maxTypes : Nat
  /-- From this many bytes on the pools are pruned after a collection. -/
  redline : Nat
  /-- The hard limit in bytes. -/
  maxMemory : Nat
  /-- The least idle time, in milliseconds, in which a collection is worth its while. -/
  idleTime : Nat
  /-- How far below the quota an idle collection may come. -/
  idleSlack : Nat
  /-- Safepoints collect once the quota is reached. -/
  demandCollect : Bool
  /-- Shapes of fixed objects may change, and the collector starts switched off. -/
  compilerMode : Bool
deriving DecidableEq, Repr

namespace HeapOptions

def defaultIdleTime : Nat := 300

def defaultIdleSlack : Nat := 50

/-- A limit that no number of bytes exceeds. -/
def unlimited : Nat := 18446744073709551615

def tuned (p : Profile) : HeapOptions where
  workQuota := match p with | .size => 512 | .balanced => 1024 | .speed => 2048
  rootCapacity := match p with | .size => 256 | .balanced => 1024 | .speed => 4096
  maxTypes := match p with | .size => 256 | .balanced => 512 | .speed => 1024
  redline := unlimited
  maxMemory := unlimited
  idleTime := defaultIdleTime
  idleSlack := defaultIdleSlack
  demandCollect := true
  compilerMode := false

instance : Inhabited HeapOptions := ⟨tuned .balanced⟩

end HeapOptions

end ScriptHeap
