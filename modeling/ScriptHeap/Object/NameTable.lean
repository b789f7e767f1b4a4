import ScriptHeap.QName

/-!
The name table of an object: one name per slot, and an optional hash index over the local names.

The index is a table of buckets with open chains. A bucket has the first slot of its chain, and
each entry has the next one, as 32-bit slot numbers. A name belongs to the bucket its hash selects,
so a lookup walks one chain; small tables have no index and are searched from the first slot on.
-/

namespace ScriptHeap

/-- The hash of local names. No answer depends on which function it is. -/
class NameHash where
  hash : String → Nat

instance NameHash.polynomial : NameHash where
  hash s := s.toList.foldl (fun h c => (31 * h + c.toNat) % 4294967296) 7

structure NameEntry where
  name : QName
  /-- The next slot on the same chain. -/
  next : Option UInt32
deriving DecidableEq, Repr

namespace NameEntry

def unnamed : NameEntry := ⟨.unnamed, none⟩

instance : Inhabited NameEntry := ⟨unnamed⟩

end NameEntry

structure NameTable where
  slots : Array NameEntry
  /-- The first slot of each chain. There are no buckets until the index is built. -/
  buckets : Array (Option UInt32)
  /-- An update walked along a chain that does not end. -/
  endless : Bool
deriving DecidableEq, Repr

/-- What a search for a bare name finds. -/
inductive SingleMatch where
  | absent
  | unique (slot : Nat)
  | multiple
deriving DecidableEq, Repr

def SingleMatch.ofSlots : List Nat → SingleMatch
  | [] => absent
  | [slot] => unique slot
  | _ => multiple

namespace NameTable

/-- Tables of up to this many slots are searched without an index. -/
def indexThreshold : Nat := 8

def bucketSizes : List Nat :=
  [19, 29, 59, 79, 97, 193, 389, 769, 1543, 3079, 6151, 12289, 24593, 49157, 98317, 196613]

/-- The number of buckets for an index over `n` slots, always more than `n`. -/
def bucketsFor (n : Nat) : Nat := (bucketSizes.find? (n < ·)).getD (n * 2 + 1)

def empty : NameTable := ⟨#[], #[], false⟩

instance : Inhabited NameTable := ⟨empty⟩

def ofNames (names : List QName) : NameTable :=
  { empty with slots := (names.map fun q => ⟨q, none⟩).toArray }

def size (t : NameTable) : Nat := t.slots.size

def isIndexed (t : NameTable) : Bool := !t.buckets.isEmpty

def nameAt? (t : NameTable) (slot : Nat) : Option QName := t.slots[slot]?.map (·.name)

/-- The names of all slots, in slot order. -/
def entries (t : NameTable) : Array QName := t.slots.map (·.name)

/-- Unnamed entries fill the table up to `n`. -/
def ensureSize (t : NameTable) (n : Nat) : NameTable :=
  { t with slots := t.slots ++ Array.replicate (n - t.slots.size) .unnamed }

/-- Opens `count` unnamed entries in front of `offset`. The index is stale afterwards. -/
def insertEntries (t : NameTable) (offset count : Nat) : NameTable :=
  { t with
    slots := t.slots.extract 0 offset ++ Array.replicate count .unnamed
      ++ t.slots.extract offset t.slots.size }

/-- Drops one entry and closes the gap. The index is stale afterwards. -/
def removeEntry (t : NameTable) (slot : Nat) : NameTable :=
  { t with slots := t.slots.eraseIdxIfInBounds slot }

/-! ### Chains -/

/-- A slot number as the links have it. -/
def linkTo (slot : Nat) : Option UInt32 := some (.ofNat slot)

/-- The slot that follows on the chain. -/
def next? (t : NameTable) (slot : Nat) : Option UInt32 := t.slots[slot]?.bind (·.next)

def setNext (t : NameTable) (slot : Nat) (next : Option UInt32) : NameTable :=
  { t with slots := t.slots.modify slot fun e => { e with next } }

def setHead (t : NameTable) (bucket : Nat) (head : Option UInt32) : NameTable :=
  { t with buckets := t.buckets.setIfInBounds bucket head }

/-- The slots from a link on, provided that there are at most `steps`. -/
def walk? (t : NameTable) : Nat → Option UInt32 → Option (List Nat)
  | _, none => some []
  | 0, some _ => none
  | steps + 1, some slot => (t.walk? steps (t.next? slot.toNat)).map (slot.toNat :: ·)

theorem lt_bucketsFor (n : Nat) : n < bucketsFor n := by
  unfold bucketsFor
  rcases h : bucketSizes.find? (n < ·) with _ | k
  · simp
    omega
  · simpa using List.find?_some h

variable [NameHash]

/-- The bucket that a local name belongs to. -/
def bucketOf (t : NameTable) (name : String) : Nat := NameHash.hash name % t.buckets.size

/-- The first slot of the chain that a local name belongs to. -/
def head? (t : NameTable) (name : String) : Option UInt32 := t.buckets[t.bucketOf name]?.join

/-- The chain that a local name belongs to. A chain that ends has no slot twice, so a walk that
takes more steps than there are slots does not end. -/
def chain? (t : NameTable) (name : String) : Option (List Nat) :=
  t.walk? t.size (t.head? name)

/-- A named slot joins the end of its chain. -/
def link (t : NameTable) (slot : Nat) : NameTable :=
  match t.nameAt? slot with
  | none => t
  | some q =>
    if q.isUnnamed then t
    else
      let t := t.setNext slot none
      match t.chain? q.name with
      | none => { t with endless := true }
      | some slots =>
        match slots.getLast? with
        | none => t.setHead (t.bucketOf q.name) (linkTo slot)
        | some tail => t.setNext tail (linkTo slot)

/-- A slot with a local name leaves its chain. -/
def unlink (t : NameTable) (slot : Nat) (name : String) : NameTable :=
  if t.head? name = linkTo slot then t.setHead (t.bucketOf name) (t.next? slot)
  else
    match t.chain? name with
    | none => { t with endless := true }
    | some slots =>
      match slots.find? fun prev => t.next? prev = linkTo slot with
      | none => t
      | some prev => t.setNext prev (t.next? slot)

/-! ### Updates -/

/-- The index is built anew over the first `n` slots. A small table gets none, and an index that
exists never loses buckets. -/
def reindex (t : NameTable) (n : Nat) : NameTable :=
  if n ≤ indexThreshold && !t.isIndexed then t
  else
    (List.range (min n t.size)).foldl link
      { t with
        slots := t.slots.map fun e => { e with next := none }
        buckets := Array.replicate (max (bucketsFor n) t.buckets.size) none }

/-- A freshly named slot enters the index, which is rebuilt if it has fewer buckets than slots. -/
def indexSlot (t : NameTable) (slot n : Nat) : NameTable :=
  if t.buckets.size < n then t.reindex n else t.link slot

/-- The slot leaves its chain and loses its name. -/
def clear (t : NameTable) (slot : Nat) : NameTable :=
  match t.nameAt? slot with
  | none => t
  | some q =>
    let t := if t.isIndexed && !q.isUnnamed then t.unlink slot q.name else t
    { t with slots := t.slots.setIfInBounds slot .unnamed }

/-- Writes a name and leaves the index alone. -/
def setRaw (t : NameTable) (slot : Nat) (q : QName) : NameTable :=
  { t with slots := t.slots.modify slot fun e => { e with name := q } }

/-- The slot gets a new name, in the index too once `n` slots need one. -/
def rename (t : NameTable) (slot : Nat) (q : QName) (n : Nat) : NameTable :=
  let t := ((t.ensureSize n).clear slot).setRaw slot q
  if indexThreshold < n || t.isIndexed then t.indexSlot slot n else t

/-! ### Lookups -/

/-- The slots below `n` that may carry the local name: its chain if there is an index, else all. -/
def candidates (t : NameTable) (name : String) (n : Nat) : List Nat :=
  if t.isIndexed then ((t.chain? name).getD []).filter (· < n) else List.range (min n t.size)

/-- The slot below `n` with the qualified name: the first one that the search meets, or the least
one on the chain. -/
def lookup? (t : NameTable) (q : QName) (n : Nat) : Option Nat :=
  if q.isUnnamed then none
  else
    let slots := (t.candidates q.name n).filter fun slot => t.nameAt? slot == some q
    if t.isIndexed then slots.min? else slots.head?

/-- Whether no slot below `n`, exactly one or several have the local name, in any namespace. -/
def lookupSingle (t : NameTable) (name : String) (n : Nat) : SingleMatch :=
  if name = "" then .absent
  else
    .ofSlots ((t.candidates name n).filter fun slot => (t.nameAt? slot).any (·.name == name))

end NameTable

end ScriptHeap
