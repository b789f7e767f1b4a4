import ScriptHeap.Proofs.Runs

/-!
The partition of the records. A place of the arena is vacant, or it holds a live record that one
bucket lists, or what is left of a record in the pool of its type. Between the operations of any run
every list agrees with this, and so does every number that the heap tells of it. An allocation
therefore never takes the place of a live record.
-/

namespace ScriptHeap

open Heap Space

/-! ### Places of the arena -/

namespace Arena

lemma toList_cells (a : Arena) : a.cells.toList = (List.range a.cells.size).map a.get? := by
  refine List.ext_getElem (by simp) fun i h _ => ?_
  have hi : i < a.cells.size := by simpa using h
  simp [get?, Array.getElem?_eq_getElem hi]

lemma countP_cells (a : Arena) (p : Option Cell → Bool) :
    a.cells.countP p = (List.range a.cells.size).countP fun id => p (a.get? id) := by
  rw [← Array.countP_toList, toList_cells, List.countP_map]
  rfl

/-- A list that names every place of a sort once is as long as there are such places. -/
lemma length_eq_countP (a : Arena) {p : Option Cell → Bool} {ids : List RecordId}
    (hn : ids.Nodup) (hm : ∀ id, id ∈ ids ↔ id < a.cells.size ∧ p (a.get? id) = true) :
    ids.length = a.cells.countP p := by
  have hperm : ids.Perm ((List.range a.cells.size).filter fun id => p (a.get? id)) := by
    refine (List.perm_ext_iff_of_nodup hn (List.nodup_range.filter _)).2 fun id => ?_
    rw [hm, List.mem_filter, List.mem_range]
  rw [hperm.length_eq, countP_cells, List.countP_eq_length_filter]

end Arena

lemma Store.Sound.occupied_eq {s : Store} (hs : s.Sound) :
    s.arena.occupied = s.arena.cells.countP (·.isSome) := by
  have hvacant : s.arena.vacant.length = s.arena.cells.countP (·.isNone) :=
    s.arena.length_eq_countP hs.vacant_nodup fun id => by simp [hs.mem_vacant]
  have hsplit : s.arena.cells.size =
      s.arena.cells.countP (·.isSome) + s.arena.cells.countP fun c => ¬ c.isSome = true :=
    Array.size_eq_countP_add_countP
  have hnot : (fun c : Option Cell => decide ¬ c.isSome = true) = (·.isNone) := by
    ext c
    cases c <;> rfl
  rw [hnot, ← hvacant, ← hs.occupied] at hsplit
  exact Nat.add_right_cancel hsplit

lemma Store.Sound.pooledCount_eq {s : Store} (hs : s.Sound) :
    s.pools.pooledCount = s.arena.cells.countP (·.any (!·.isLive)) := by
  refine s.arena.length_eq_countP hs.waiting_nodup fun id => ?_
  rw [TypePools.mem_waiting]
  constructor
  · rintro ⟨t, ht⟩
    obtain ⟨k, hk, -⟩ := (hs.mem_free t id).1 ht
    exact ⟨Arena.lt_size_of_get? hk, by simp [hk, Cell.isLive, Cell.live?]⟩
  · rintro ⟨-, hp⟩
    obtain ⟨c, hc, hdead⟩ := (Option.any_eq_true _ _).1 hp
    cases c with
    | live r => simp [Cell.isLive, Cell.live?] at hdead
    | pooled k => exact ⟨k.type, (hs.mem_free _ _).2 ⟨k, hc, rfl⟩⟩

/-! ### The partition -/

namespace Space

/-- The live record is listed once, in the bucket of its generation, and waits in no pool. -/
structure Enrolled (s : Space) (id : RecordId) (r : Record) : Prop where
  count_live : ∀ g, (s.bucket g).live.count id = if g = r.header.generation then 1 else 0
  unmarked : r.header.marked = false
  fits : ∃ info, s.types.get? r.type = some info ∧ r.body.fits info.kind = true
  not_free : ∀ type, id ∉ s.pools.free type

/-- What is left of the record waits once, in the pool of its type, and nothing else lists it. -/
structure Parked (s : Space) (id : RecordId) (k : Husk) : Prop where
  body : (Cell.pooled k).body = .free
  type_lt : k.type < s.pools.maxTypes
  count_free : ∀ type, (s.pools.free type).count id = if type = k.type then 1 else 0
  not_live : ∀ g, id ∉ (s.bucket g).live
  not_root : ∀ g, id ∉ (s.bucket g).roots

/-- Every place is in its part, and the lists, the numbers and the collector agree. -/
structure Partitioned (s : Space) : Prop where
  live : ∀ id r, s.arena.get? id = some (.live r) → s.Enrolled id r
  pooled : ∀ id k, s.arena.get? id = some (.pooled k) → s.Parked id k
  listed : ∀ g id, id ∈ (s.bucket g).live → s.arena.isLive id = true
  waiting : ∀ type id, id ∈ s.pools.free type → ∃ k, s.arena.get? id = some (.pooled k)
  vacant_nodup : s.arena.vacant.Nodup
  mem_vacant : ∀ id, id ∈ s.arena.vacant ↔ id < s.arena.cells.size ∧ s.arena.get? id = none
  occupied : s.arena.occupied = s.arena.cells.countP (·.isSome)
  pooledCount : s.pools.pooledCount = s.arena.cells.countP (·.any (!·.isLive))
  idle : s.collector.phase = .idle
  worklist : s.collector.worklist = []

variable {s : Space}

lemma Sound.enrolled (hs : s.Sound) (ht : s.Typed) {id : RecordId} {r : Record}
    (hr : s.arena.get? id = some (.live r)) : s.Enrolled id r := by
  have hlive : s.arena.live? id = some r := Arena.live?_eq_some.2 hr
  refine ⟨fun g => ?_, hs.unmarked id r hlive, ht.fits id r hlive, fun type hid => ?_⟩
  · have hmem : id ∈ (s.bucket g).arrivals ↔ g = r.header.generation := by
      rw [hs.binned.mem, hlive]
      simp [eq_comm]
    rw [Bucket.live, List.count_reverse, (hs.binned.nodup g).count]
    exact if_congr hmem rfl rfl
  · obtain ⟨k, hk, -⟩ := (hs.store.mem_free type id).1 hid
    simp [hr] at hk

lemma Sound.parked (hs : s.Sound) {id : RecordId} {k : Husk}
    (hk : s.arena.get? id = some (.pooled k)) : s.Parked id k := by
  have hdead : s.arena.live? id = none := by simp [Arena.live?, hk, Cell.live?]
  refine ⟨rfl, hs.store.pooled_lt id k hk, fun type => ?_, fun g hid => ?_, fun g hid => ?_⟩
  · have hmem : id ∈ s.pools.free type ↔ type = k.type := by
      rw [hs.store.mem_free, hk]
      simp [eq_comm]
    rw [(hs.store.free_nodup type).count]
    exact if_congr hmem rfl rfl
  · obtain ⟨r, hr, -⟩ := (hs.binned.mem g id).1 (List.mem_reverse.1 hid)
    simp [hdead] at hr
  · obtain ⟨r, hr⟩ := (hs.listed.live g id hid).resolve_left not_false
    simp [hdead] at hr

theorem Sound.partitioned (hs : s.Sound) (ht : s.Typed) : s.Partitioned where
  live _ _ hr := hs.enrolled ht hr
  pooled _ _ hk := hs.parked hk
  listed g id hid := by
    obtain ⟨r, hr, -⟩ := (hs.binned.mem g id).1 (List.mem_reverse.1 hid)
    exact Arena.isLive_iff.2 ⟨r, hr⟩
  waiting type id hid := by
    obtain ⟨k, hk, -⟩ := (hs.store.mem_free type id).1 hid
    exact ⟨k, hk⟩
  vacant_nodup := hs.store.vacant_nodup
  mem_vacant := hs.store.mem_vacant
  occupied := hs.store.occupied_eq
  pooledCount := hs.store.pooledCount_eq
  idle := hs.idle
  worklist := hs.worklist

end Space

/-! ### Runs -/

variable [Environment]

/-- **The records are partitioned between any two operations of any run.** An occupied place holds a
live record, which the bucket of its generation lists once, or what is left of one, which waits once
in the pool of its type; no other list names it, and the vacant places are the rest. No allocation
from there on takes the place of a live record. -/
theorem partitioned_run (o : HeapOptions) (ops : List Operation) :
    let h := run (Heap.fresh o) ops
    h.toSpace.Partitioned ∧ h.pools.maxTypes = o.maxTypes ∧
      (∀ info extra body, h.arena.isLive (h.toSpace.allocate info extra body).1.id = false) ∧
      ∀ op id, (apply op h).1 = .ok (.record id) → h.arena.isLive id = false := by
  intro h
  obtain ⟨hs, ht, hmax⟩ := sound_typed_run o ops
  have hdead {id : RecordId} (hid : h.arena.live? id = none) : h.arena.isLive id = false := by
    rw [Arena.isLive, hid]
    rfl
  refine ⟨hs.partitioned ht, hmax, fun info extra body => hdead ?_, fun op id ha => hdead ?_⟩
  · exact (births_allocate hs.store info extra body).fresh
  · exact fresh_of_apply hs op ha

end ScriptHeap
