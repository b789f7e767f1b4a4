import Mathlib.Data.List.Perm.Subperm
import ScriptHeap.Proofs.Arena
import ScriptHeap.Record.Pools

/-!
The store keeps its books: the vacant places are the ones that hold nothing, and a pool holds
exactly the pooled records of its type. Allocating, reclaiming and pruning preserve this, so an
allocation never hands out the place of a live record.
-/

namespace ScriptHeap

namespace TypePools

lemma free_update (p : TypePools) (type : TypeId) (f : TypePool → TypePool) (u : TypeId) :
    (p.update type f).free u =
      if u = type ∧ type < p.maxTypes then (f (p.pool type)).free else p.free u := by
  unfold free
  rw [pool_update]
  split <;> rfl

@[simp] lemma maxTypes_update (p : TypePools) (type : TypeId) (f : TypePool → TypePool) :
    (p.update type f).maxTypes = p.maxTypes := by
  unfold update
  split <;> rfl

lemma mem_waiting {p : TypePools} {id : RecordId} : id ∈ p.waiting ↔ ∃ t, id ∈ p.free t := by
  simp only [waiting, free, pool, List.mem_flatMap, List.mem_reverse]
  constructor
  · rintro ⟨q, hq, hid⟩
    obtain ⟨t, ht, rfl⟩ := List.getElem_of_mem hq
    exact ⟨t, by simpa [Array.getElem?_eq_getElem (by simpa using ht)] using hid⟩
  · rintro ⟨t, hid⟩
    rcases ht : p.pools[t]? with _ | q
    · simp [ht, TypePool.empty] at hid
    · refine ⟨q, ?_, by simpa [ht] using hid⟩
      simpa using Array.mem_of_getElem? ht

end TypePools

structure Store.Sound (s : Store) : Prop where
  vacant_nodup : s.arena.vacant.Nodup
  mem_vacant : ∀ id, id ∈ s.arena.vacant ↔ id < s.arena.cells.size ∧ s.arena.get? id = none
  free_nodup : ∀ t, (s.pools.free t).Nodup
  mem_free : ∀ t id, id ∈ s.pools.free t ↔ ∃ h, s.arena.get? id = some (.pooled h) ∧ h.type = t
  /-- Only types that have a pool leave records in one. -/
  pooled_lt : ∀ id h, s.arena.get? id = some (.pooled h) → h.type < s.pools.maxTypes
  /-- A place is either vacant or counted. -/
  occupied : s.arena.occupied + s.arena.vacant.length = s.arena.cells.size

namespace Store

lemma Sound.of_sameShape {s : Store} (hs : s.Sound) {a : Arena} (h : s.arena.SameShape a) :
    ({ s with arena := a } : Store).Sound where
  vacant_nodup := by simpa [h.vacant] using hs.vacant_nodup
  mem_vacant id := by simpa [h.vacant, h.size, h.get?_eq_none] using hs.mem_vacant id
  free_nodup := hs.free_nodup
  mem_free t id := by simpa [h.get?_pooled] using hs.mem_free t id
  pooled_lt id k hk := hs.pooled_lt id k ((h.get?_pooled id k).1 hk)
  occupied := by simpa [h.vacant, h.size, h.occupied] using hs.occupied

lemma Sound.vacant_lt {s : Store} (hs : s.Sound) : ∀ id ∈ s.arena.vacant, id < s.arena.cells.size :=
  fun id hid => ((hs.mem_vacant id).1 hid).1

lemma sound_empty (maxTypes : Nat) : (Store.empty maxTypes).Sound where
  vacant_nodup := List.nodup_nil
  mem_vacant id := by simp [Store.empty, Arena.empty]
  free_nodup t := by simp [Store.empty, TypePools.empty, TypePools.free, TypePools.pool,
    TypePool.empty]
  mem_free t id := by simp [Store.empty, TypePools.empty, TypePools.free, TypePools.pool,
    TypePool.empty, Arena.empty, Arena.get?]
  pooled_lt id h hid := by simp [Store.empty, Arena.empty, Arena.get?] at hid
  occupied := rfl

/-- Writing to an occupied place takes no vacant place. -/
lemma Sound.mem_vacant_put {s : Store} (hs : s.Sound) {id : RecordId} {c : Cell}
    (hg : s.arena.get? id = some c) (d : Cell) (j : RecordId) :
    j ∈ (s.arena.put id d).vacant ↔
      j < (s.arena.put id d).cells.size ∧ (s.arena.put id d).get? j = none := by
  have hm := hs.mem_vacant j
  have hvacant : (s.arena.put id d).vacant = s.arena.vacant := rfl
  have hsize : (s.arena.put id d).cells.size = s.arena.cells.size := by simp [Arena.put]
  rw [hvacant, hsize, Arena.get?_put d (Arena.lt_size_of_get? hg)]
  by_cases hj : j = id
  · subst hj
    simpa [hg] using hm
  · simpa [hj] using hm

lemma Sound.occupied_put {s : Store} (hs : s.Sound) (id : RecordId) (d : Cell) :
    (s.arena.put id d).occupied + (s.arena.put id d).vacant.length =
      (s.arena.put id d).cells.size := by
  simpa [Arena.put] using hs.occupied

/-! ### Allocation -/

/-- What an allocation does: a place that held no live record holds a fresh one, and no other place
changes. -/
structure Allocates (s s' : Store) (id : RecordId) (type : TypeId) (body : Body) : Prop where
  fresh : s.arena.live? id = none
  born : ∃ seq size, s'.arena.live? id = some ⟨.fresh seq size, type, body⟩
  others : ∀ j, j ≠ id → s'.arena.get? j = s.arena.get? j
  sound : s'.Sound

lemma free_countBirth (p : TypePools) (type t : TypeId) (seq : UInt32) :
    (({ p with seq } : TypePools).update type (·.countBirth)).free t = p.free t := by
  rw [TypePools.free_update]
  split
  · next h =>
    rw [h.1]
    rfl
  · rfl

/-- A record that is inserted takes the first vacant place, or a new one at the end. -/
lemma insert_cases (a : Arena) (r : Record) :
    (∃ rest, a.vacant = (a.insert r).1 :: rest ∧ (a.insert r).2.vacant = rest ∧
      (a.insert r).2.cells.size = a.cells.size) ∨
    a.vacant = [] ∧ (a.insert r).1 = a.cells.size ∧ (a.insert r).2.vacant = [] ∧
      (a.insert r).2.cells.size = a.cells.size + 1 := by
  unfold Arena.insert
  split
  · next id rest hv => exact .inl ⟨rest, hv, rfl, by simp⟩
  · next hv => exact .inr ⟨hv, rfl, rfl, by simp⟩

lemma occupied_insert (a : Arena) (r : Record) :
    (a.insert r).2.occupied = a.occupied + 1 := by
  unfold Arena.insert
  split <;> rfl

lemma Sound.get?_insert_none {s : Store} (hs : s.Sound) (r : Record) :
    s.arena.get? (s.arena.insert r).1 = none := by
  rcases insert_cases s.arena r with ⟨rest, hv, -⟩ | ⟨-, he, -⟩
  · exact ((hs.mem_vacant _).1 (by simp [hv])).2
  · simp [Arena.get?, he]

lemma Sound.insert {s : Store} (hs : s.Sound) (r : Record) (type : TypeId) (seq : UInt32) :
    (⟨(s.arena.insert r).2, { s.pools with seq }.update type (·.countBirth)⟩ : Store).Sound := by
  have hget (j : RecordId) := Arena.get?_insert s.arena r j hs.vacant_lt
  have hnone := hs.get?_insert_none r
  have hfree := free_countBirth s.pools type
  refine ⟨?_, fun id => ?_, fun t => ?_, fun t id => ?_, fun id h hid => ?_, ?_⟩
  · rcases insert_cases s.arena r with ⟨rest, hv, he, -⟩ | ⟨-, -, he, -⟩
    · have hnd := hv ▸ hs.vacant_nodup
      exact he ▸ (List.nodup_cons.1 hnd).2
    · exact he ▸ List.nodup_nil
  · have hm := hs.mem_vacant id
    simp only [hget]
    rcases insert_cases s.arena r with ⟨rest, hv, he, hsize⟩ | ⟨hv, hlast, he, hsize⟩
    · have hnd := hv ▸ hs.vacant_nodup
      rw [he, hsize]
      rw [hv] at hm
      by_cases hid : id = (s.arena.insert r).1
      · simpa [hid] using (List.nodup_cons.1 hnd).1
      · simpa [hid] using hm
    · rw [he, hsize, hlast]
      by_cases hid : id = s.arena.cells.size
      · simp [hid]
      · simp only [hv, hid, if_false, List.not_mem_nil, false_iff] at hm ⊢
        rintro ⟨hlt, hnone⟩
        exact hm ⟨Nat.lt_of_le_of_ne (Nat.le_of_lt_succ hlt) hid, hnone⟩
  · rw [hfree]
    exact hs.free_nodup t
  · rw [hfree, hs.mem_free, hget]
    by_cases hid : id = (s.arena.insert r).1
    · simp [hid, hnone]
    · simp [hid]
  · rw [TypePools.maxTypes_update]
    rw [hget] at hid
    split at hid
    · simp at hid
    · exact hs.pooled_lt id h hid
  · have hocc := hs.occupied
    dsimp only
    rw [occupied_insert]
    rcases insert_cases s.arena r with ⟨rest, hv, he, hsize⟩ | ⟨hv, -, he, hsize⟩
    · rw [he, hsize]
      rw [hv, List.length_cons] at hocc
      omega
    · rw [he, hsize]
      rw [hv] at hocc
      simp only [List.length_nil] at hocc ⊢
      omega

lemma allocates_insert {s : Store} (hs : s.Sound) (r : Record) (type : TypeId) (seq : UInt32)
    (hr : ∃ seq size, r.header = .fresh seq size) :
    Allocates s ⟨(s.arena.insert r).2, { s.pools with seq }.update type (·.countBirth)⟩
      (s.arena.insert r).1 r.type r.body := by
  have hget (j : RecordId) := Arena.get?_insert s.arena r j hs.vacant_lt
  refine ⟨?_, ?_, fun j hj => ?_, hs.insert r type seq⟩
  · simp [Arena.live?, hs.get?_insert_none r]
  · obtain ⟨seq, size, h⟩ := hr
    exact ⟨seq, size, by simp [Arena.live?, hget, Cell.live?, ← h]⟩
  · rw [hget, if_neg hj]

/-- A pooled record leaves its pool. -/
lemma Sound.reuse {s : Store} (hs : s.Sound) {type : TypeId} {id : RecordId}
    {rest : List RecordId} (hf : s.pools.free type = id :: rest) (r : Record) (seq : UInt32) :
    Sound
      { arena := s.arena.put id (.live r)
        pools := ({ s.pools with seq } : TypePools).update type (·.pop.countBirth) } := by
  obtain ⟨h, hg, rfl⟩ := (hs.mem_free type id).1 (by simp [hf])
  have hmax := hs.pooled_lt id h hg
  have hget := Arena.get?_put (a := s.arena) (.live r) (Arena.lt_size_of_get? hg)
  have hfree (t : TypeId) : (({ s.pools with seq } : TypePools).update h.type
      (·.pop.countBirth)).free t = if t = h.type then rest else s.pools.free t := by
    rw [TypePools.free_update]
    by_cases ht : t = h.type
    · subst ht
      simp only [hmax, and_self, if_true]
      exact congrArg List.tail hf
    · simp only [ht, false_and, if_false]
      rfl
  have hnd := hf ▸ hs.free_nodup h.type
  refine ⟨hs.vacant_nodup, hs.mem_vacant_put hg _, fun t => ?_, fun t j => ?_, fun j k hj => ?_,
    hs.occupied_put _ _⟩
  · rw [hfree]
    split
    · exact (List.nodup_cons.1 hnd).2
    · exact hs.free_nodup t
  · have hm := hs.mem_free t j
    rw [hfree, hget]
    by_cases hj : j = id
    · subst hj
      simp only [if_true, Option.some.injEq, reduceCtorEq, false_and, exists_false, iff_false]
      split
      · exact (List.nodup_cons.1 hnd).1
      · next ht =>
        intro hmem
        obtain ⟨k, hk, e⟩ := hm.1 hmem
        rw [hg] at hk
        obtain rfl := Cell.pooled.inj (Option.some.inj hk)
        exact ht e.symm
    · simp only [hj, if_false, ← hm]
      split
      · next ht =>
        subst ht
        simp [hf, hj]
      · rfl
  · rw [TypePools.maxTypes_update]
    rw [hget] at hj
    split at hj
    · simp at hj
    · exact hs.pooled_lt j k hj

lemma allocates_reuse {s : Store} (hs : s.Sound) {type : TypeId} {id : RecordId}
    {rest : List RecordId} (hf : s.pools.free type = id :: rest) (body : Body)
    (seq seq' size : UInt32) :
    Allocates s
      { arena := s.arena.put id (.live ⟨.fresh seq size, type, body⟩)
        pools := ({ s.pools with seq := seq' } : TypePools).update type (·.pop.countBirth) }
      id type body := by
  obtain ⟨h, hg, -⟩ := (hs.mem_free type id).1 (by simp [hf])
  have hlt := Arena.lt_size_of_get? hg
  refine ⟨?_, ⟨seq, size, ?_⟩, fun j hj => ?_, hs.reuse hf _ seq'⟩
  · simp [Arena.live?, hg, Cell.live?]
  · simp [Arena.live?_put _ hlt, Cell.live?]
  · rw [Arena.get?_put _ hlt, if_neg hj]

/-- An allocation takes the record on top of the pool of its type, or else a place of the arena. -/
lemma Sound.allocate_cases [Environment] {s : Store} (hs : s.Sound) (type : TypeInfo) (extra : Nat)
    (body : Body) :
    (∃ id rest k, s.pools.free type.id = id :: rest ∧ s.arena.get? id = some (.pooled k) ∧
      s.allocate type extra body =
        (⟨id, true, (((type.instanceSize + extra).toUInt32.toNat + body.storageBytes : Nat) : Int)
            - k.size.toNat⟩,
          { arena := s.arena.put id
              (.live ⟨.fresh k.seq (type.instanceSize + extra).toUInt32, type.id, body⟩)
            pools := ({ s.pools with seq := s.pools.seq + 1 } : TypePools).update type.id
              (·.pop.countBirth) })) ∨
    s.pools.free type.id = [] ∧ ∃ r : Record,
      r = ⟨.fresh (s.pools.seq + 1) (type.instanceSize + extra).toUInt32, type.id, body⟩ ∧
      s.allocate type extra body =
        (⟨(s.arena.insert r).1, false,
            ((type.instanceSize + extra).toUInt32.toNat + body.storageBytes : Nat)⟩,
          ⟨(s.arena.insert r).2, ({ s.pools with seq := s.pools.seq + 1 } : TypePools).update
            type.id (·.countBirth)⟩) := by
  have hsame : ({ s.pools with seq := s.pools.seq + 1 } : TypePools).free type.id =
      s.pools.free type.id := rfl
  rcases hf : s.pools.free type.id with _ | ⟨id, rest⟩
  · refine .inr ⟨rfl, _, rfl, ?_⟩
    simp only [allocate, hsame, hf, List.head?_nil, Option.bind_none]
  · obtain ⟨k, hk, -⟩ := (hs.mem_free type.id id).1 (by simp [hf])
    refine .inl ⟨id, rest, k, rfl, hk, ?_⟩
    simp only [allocate, hsame, hf, List.head?_cons, Option.bind_some, hk, Option.map_some]
    rfl

theorem allocates_allocate [Environment] {s : Store} (hs : s.Sound) (type : TypeInfo) (extra : Nat)
    (body : Body) :
    Allocates s (s.allocate type extra body).2 (s.allocate type extra body).1.id type.id body := by
  rcases hs.allocate_cases type extra body with ⟨id, rest, k, hf, -, e⟩ | ⟨-, r, rfl, e⟩
  · rw [e]
    exact allocates_reuse hs hf body _ _ _
  · rw [e]
    exact allocates_insert hs _ _ _ ⟨_, _, rfl⟩

/-! ### Reclaiming and pruning -/

lemma live?_reclaim [Environment] (s : Store) (id j : RecordId) :
    (s.reclaim id).2.arena.live? j = if j = id then none else s.arena.live? j := by
  unfold reclaim
  split
  · next h =>
    by_cases hj : j = id
    · simp [hj, h]
    · simp [hj]
  · next r h =>
    have hlt := Arena.lt_size_of_get? (Arena.live?_eq_some.1 h)
    split
    · simp [Arena.live?_put _ hlt, Cell.live?]
    · exact Arena.live?_release _ _ _

lemma vacant_release (a : Arena) (id : RecordId) :
    (a.release id).vacant = if (a.get? id).isSome then id :: a.vacant else a.vacant := by
  unfold Arena.release
  split <;> simp_all

lemma occupied_release {a : Arena} {id : RecordId} {c : Cell} (h : a.get? id = some c) :
    (a.release id).occupied = a.occupied - 1 := by
  simp [Arena.release, h]

lemma size_release (a : Arena) (id : RecordId) : (a.release id).cells.size = a.cells.size := by
  unfold Arena.release
  split <;> simp

lemma Sound.not_free {s : Store} (hs : s.Sound) {id : RecordId} {r : Record}
    (hr : s.arena.live? id = some r) (t : TypeId) : id ∉ s.pools.free t := by
  intro hid
  obtain ⟨h, hh, -⟩ := (hs.mem_free t id).1 hid
  rw [Arena.live?_eq_some.1 hr] at hh
  cases Option.some.inj hh

/-- While a place is occupied, not all are vacant. -/
lemma Sound.vacant_length_lt {s : Store} (hs : s.Sound) {id : RecordId} {c : Cell}
    (hg : s.arena.get? id = some c) : s.arena.vacant.length < s.arena.cells.size := by
  have hid : id ∉ s.arena.vacant := by simp [hs.mem_vacant, hg]
  have hsub : id :: s.arena.vacant ⊆ List.range s.arena.cells.size := by
    intro j hj
    rcases List.mem_cons.1 hj with rfl | hj
    · exact List.mem_range.2 (Arena.lt_size_of_get? hg)
    · exact List.mem_range.2 (hs.vacant_lt j hj)
  have hlen := ((List.nodup_cons.2 ⟨hid, hs.vacant_nodup⟩).subperm hsub).length_le
  rwa [List.length_cons, List.length_range] at hlen

/-- A live record goes into the pool of its type. -/
lemma Sound.park {s : Store} (hs : s.Sound) {id : RecordId} {r : Record}
    (hr : s.arena.live? id = some r) (hmax : r.type < s.pools.maxTypes) :
    Sound
      { arena := s.arena.put id (.pooled r.husk)
        pools := s.pools.update r.type (·.park id) } := by
  have hg := Arena.live?_eq_some.1 hr
  have hnot := hs.not_free hr
  have hget := Arena.get?_put (a := s.arena) (.pooled r.husk) (Arena.lt_size_of_get? hg)
  have hfree (t : TypeId) : (s.pools.update r.type (·.park id)).free t =
      if t = r.type then id :: s.pools.free t else s.pools.free t := by
    rw [TypePools.free_update]
    by_cases ht : t = r.type
    · subst ht
      simp [hmax, TypePool.park, TypePools.free]
    · simp [ht]
  refine ⟨hs.vacant_nodup, hs.mem_vacant_put hg _, fun t => ?_, fun t j => ?_, fun j k hj => ?_,
    hs.occupied_put _ _⟩
  · rw [hfree]
    split
    · exact List.nodup_cons.2 ⟨hnot t, hs.free_nodup t⟩
    · exact hs.free_nodup t
  · have hm := hs.mem_free t j
    rw [hfree, hget]
    by_cases hj : j = id
    · subst hj
      by_cases ht : t = r.type
      · simp [ht, Record.husk]
      · simp [ht, hnot, Record.husk, Ne.symm ht]
    · by_cases ht : t = r.type
      · subst ht
        simp [hj, hm]
      · simp [ht, hj, hm]
  · rw [TypePools.maxTypes_update]
    rw [hget] at hj
    split at hj
    · obtain rfl := Cell.pooled.inj (Option.some.inj hj)
      exact hmax
    · exact hs.pooled_lt j k hj

/-- A live record gives its place back to the arena. -/
lemma Sound.release {s : Store} (hs : s.Sound) {id : RecordId} {r : Record}
    (hr : s.arena.live? id = some r) : Sound { s with arena := s.arena.release id } := by
  have hg := Arena.live?_eq_some.1 hr
  have hnot := hs.not_free hr
  have hget := Arena.get?_release s.arena id
  have hvacant : (s.arena.release id).vacant = id :: s.arena.vacant := by
    rw [vacant_release, hg]
    rfl
  have hpos := hs.vacant_length_lt hg
  refine ⟨?_, fun j => ?_, hs.free_nodup, fun t j => ?_, fun j k hj => ?_, ?_⟩
  · have hid : id ∉ s.arena.vacant := by simp [hs.mem_vacant, hg]
    exact hvacant ▸ List.nodup_cons.2 ⟨hid, hs.vacant_nodup⟩
  · have hm := hs.mem_vacant j
    simp only [hvacant, size_release, hget]
    by_cases hj : j = id
    · simp [hj, Arena.lt_size_of_get? hg]
    · simp [hj, hm]
  · have hm := hs.mem_free t j
    simp only [hget]
    by_cases hj : j = id
    · simp [hj, hnot]
    · simp [hj, hm]
  · rw [hget] at hj
    split at hj
    · simp at hj
    · exact hs.pooled_lt j k hj
  · have hocc := hs.occupied
    simp only [occupied_release hg, hvacant, size_release, List.length_cons]
    omega

theorem Sound.reclaim [Environment] {s : Store} (hs : s.Sound) (id : RecordId) :
    (s.reclaim id).2.Sound := by
  unfold Store.reclaim
  split
  · exact hs
  · next r hr =>
    split
    · next hmax => exact hs.park hr hmax
    · exact hs.release hr

lemma get?_releaseAll (ids : List RecordId) (a : Arena) (j : RecordId) :
    (ids.foldl .release a).get? j = if j ∈ ids then none else a.get? j := by
  induction ids generalizing a with
  | nil => simp
  | cons id ids ih =>
    rw [List.foldl_cons, ih, Arena.get?_release]
    by_cases hj : j = id
    · simp [hj]
    · simp [hj]

lemma size_releaseAll (ids : List RecordId) (a : Arena) :
    (ids.foldl .release a).cells.size = a.cells.size := by
  induction ids generalizing a with
  | nil => rfl
  | cons id ids ih => rw [List.foldl_cons, ih, size_release]

lemma vacant_releaseAll (ids : List RecordId) (a : Arena) (hn : ids.Nodup)
    (hs : ∀ id ∈ ids, (a.get? id).isSome) :
    (ids.foldl .release a).vacant = ids.reverse ++ a.vacant := by
  induction ids generalizing a with
  | nil => rfl
  | cons id ids ih =>
    obtain ⟨hid, hn⟩ := List.nodup_cons.1 hn
    rw [List.foldl_cons, ih _ hn, vacant_release]
    · simp [hs id]
    · intro j hj
      have : j ≠ id := fun e => hid (e ▸ hj)
      simpa [Arena.get?_release, this] using hs j (by simp [hj])

lemma occupied_releaseAll (ids : List RecordId) (a : Arena) (hn : ids.Nodup)
    (hs : ∀ id ∈ ids, (a.get? id).isSome) :
    (ids.foldl .release a).occupied = a.occupied - ids.length := by
  induction ids generalizing a with
  | nil => rfl
  | cons id ids ih =>
    obtain ⟨hid, hn⟩ := List.nodup_cons.1 hn
    obtain ⟨c, hc⟩ := Option.isSome_iff_exists.1 (hs id (by simp))
    rw [List.foldl_cons, ih _ hn, occupied_release hc, List.length_cons]
    · omega
    · intro j hj
      have : j ≠ id := fun e => hid (e ▸ hj)
      simpa [Arena.get?_release, this] using hs j (by simp [hj])

lemma Sound.waiting_nodup {s : Store} (hs : s.Sound) : s.pools.waiting.Nodup := by
  have hpool (t : Nat) (ht : t < s.pools.pools.toList.length) :
      (s.pools.pools.toList[t]).free = s.pools.free t := by
    simp only [Array.length_toList] at ht
    simp [TypePools.free, TypePools.pool, Array.getElem?_eq_getElem ht]
  refine List.nodup_flatMap.2 ⟨fun p hp => ?_, ?_⟩
  · obtain ⟨t, ht, rfl⟩ := List.getElem_of_mem hp
    rw [hpool]
    exact List.nodup_reverse.2 (hs.free_nodup t)
  · refine List.pairwise_iff_getElem.2 fun t u ht hu htu => ?_
    intro id h h'
    simp only [List.mem_reverse, hpool] at h h'
    obtain ⟨k, hk, e⟩ := (hs.mem_free _ _).1 h
    obtain ⟨k', hk', e'⟩ := (hs.mem_free _ _).1 h'
    rw [hk] at hk'
    obtain rfl := Cell.pooled.inj (Option.some.inj hk')
    exact Nat.ne_of_lt htu (e.symm.trans e')

lemma Sound.live?_waiting {s : Store} (hs : s.Sound) {id : RecordId} (h : id ∈ s.pools.waiting) :
    ∃ k, s.arena.get? id = some (.pooled k) := by
  obtain ⟨t, ht⟩ := TypePools.mem_waiting.1 h
  obtain ⟨k, hk, -⟩ := (hs.mem_free t id).1 ht
  exact ⟨k, hk⟩

theorem Sound.live?_prune {s : Store} (hs : s.Sound) (id : RecordId) :
    s.prune.2.arena.live? id = s.arena.live? id := by
  unfold Store.prune
  simp only [Arena.live?, get?_releaseAll]
  split
  · next h =>
    obtain ⟨k, hk⟩ := hs.live?_waiting h
    simp [hk, Cell.live?]
  · rfl

theorem Sound.prune {s : Store} (hs : s.Sound) : s.prune.2.Sound := by
  have hget := get?_releaseAll s.pools.waiting s.arena
  have hsome : ∀ id ∈ s.pools.waiting, (s.arena.get? id).isSome := fun id hid => by
    obtain ⟨k, hk⟩ := hs.live?_waiting hid
    simp [hk]
  have hvac := vacant_releaseAll _ s.arena hs.waiting_nodup hsome
  have hempty (t : TypeId) :
      ({ s.pools with pools := s.pools.pools.map (·.clear) } : TypePools).free t = [] := by
    simp only [TypePools.free, TypePools.pool, Array.getElem?_map]
    rcases s.pools.pools[t]? with _ | p <;> rfl
  have hpooled (id : RecordId) (k : Husk) :
      s.arena.get? id = some (.pooled k) → id ∈ s.pools.waiting := fun hk =>
    TypePools.mem_waiting.2 ⟨k.type, (hs.mem_free _ _).2 ⟨k, hk, rfl⟩⟩
  have hnd : (s.pools.waiting.reverse ++ s.arena.vacant).Nodup := by
    refine List.nodup_append.2 ⟨List.nodup_reverse.2 hs.waiting_nodup, hs.vacant_nodup, ?_⟩
    rintro id h _ h' rfl
    obtain ⟨k, hk⟩ := hs.live?_waiting (List.mem_reverse.1 h)
    have := ((hs.mem_vacant id).1 h').2
    simp [hk] at this
  unfold Store.prune
  refine ⟨?_, fun id => ?_, fun t => ?_, fun t id => ?_, fun id k hid => ?_, ?_⟩
  · simpa only [hvac] using hnd
  · have hm := hs.mem_vacant id
    simp only [hvac, hget, size_releaseAll, List.mem_append, List.mem_reverse, hm]
    by_cases hid : id ∈ s.pools.waiting
    · obtain ⟨k, hk⟩ := hs.live?_waiting hid
      simp [hid, Arena.lt_size_of_get? hk]
    · simp [hid]
  · simp [hempty]
  · simp only [hempty, hget]
    constructor
    · simp
    · rintro ⟨k, hk, -⟩
      split at hk
      · simp at hk
      · next h => exact absurd (hpooled id k hk) h
  · simp only [hget] at hid
    split at hid
    · simp at hid
    · exact hs.pooled_lt id k hid
  · have hocc := hs.occupied
    have hsub : s.pools.waiting.reverse ++ s.arena.vacant ⊆ List.range s.arena.cells.size := by
      intro id hid
      rcases List.mem_append.1 hid with hid | hid
      · obtain ⟨k, hk⟩ := hs.live?_waiting (List.mem_reverse.1 hid)
        exact List.mem_range.2 (Arena.lt_size_of_get? hk)
      · exact List.mem_range.2 (hs.vacant_lt id hid)
    have hlen := (hnd.subperm hsub).length_le
    rw [List.length_append, List.length_reverse, List.length_range] at hlen
    simp only [occupied_releaseAll _ s.arena hs.waiting_nodup hsome, hvac, size_releaseAll,
      List.length_append, List.length_reverse]
    omega

end Store

end ScriptHeap
