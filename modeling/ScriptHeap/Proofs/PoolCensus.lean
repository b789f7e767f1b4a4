import ScriptHeap.Proofs.Partition

/-!
The census of the pools. The pool of a type counts the live records of the type, and it counts the
records that wait in it, however they come and go: into a fresh place or into one that waited, back
to the pool, or out of it by a pruning. So both numbers can be read off the arena, and the peaks
bound them.
-/

namespace ScriptHeap

/-! ### Numbers of records -/

namespace Arena

/-- The number of live records that meet the test. -/
def population (a : Arena) (p : Record → Bool) : Nat :=
  a.cells.countP fun c => (c.bind Cell.live?).any p

/-- The number of records of the type of which only a husk is left. -/
def husks (a : Arena) (type : TypeId) : Nat :=
  a.cells.countP fun c => (c.bind Cell.husk?).any (·.type = type)

variable {a b : Arena} {p : Record → Bool}

lemma population_eq_length {ids : List RecordId} (hn : ids.Nodup)
    (hm : ∀ id, id ∈ ids ↔ (a.live? id).any p = true) : a.population p = ids.length := by
  refine (a.length_eq_countP hn fun id => ?_).symm
  rw [hm, live?, iff_and_self]
  intro hany
  obtain ⟨r, hr, -⟩ := (Option.any_eq_true _ _).1 hany
  exact lt_size_of_get? (live?_eq_some.1 hr)

/-- There are as many records as are left, and those that are gone. -/
lemma population_add {ids : List RecordId} (hn : ids.Nodup)
    (hm : ∀ id, (a.live? id).any p = true ↔ (b.live? id).any p = true ∨ id ∈ ids)
    (hgone : ∀ id ∈ ids, (b.live? id).any p = false) :
    a.population p = b.population p + ids.length := by
  let left : List RecordId := (List.range b.cells.size).filter fun id => (b.live? id).any p
  have hmem (id : RecordId) : id ∈ left ↔ (b.live? id).any p = true := by
    rw [List.mem_filter, List.mem_range, and_iff_right_iff_imp]
    intro hany
    obtain ⟨r, hr, -⟩ := (Option.any_eq_true _ _).1 hany
    exact lt_size_of_get? (live?_eq_some.1 hr)
  have hleft : left.Nodup := List.nodup_range.filter _
  have hall : (left ++ ids).Nodup := by
    refine List.nodup_append.2 ⟨hleft, hn, ?_⟩
    rintro id hid _ hid' rfl
    rw [hmem, hgone id hid'] at hid
    cases hid
  calc a.population p = (left ++ ids).length :=
        population_eq_length hall fun id => by rw [List.mem_append, hmem, hm]
    _ = left.length + ids.length := List.length_append
    _ = b.population p + ids.length := by rw [population_eq_length hleft hmem]

lemma population_congr (h : ∀ id, (b.live? id).any p = (a.live? id).any p) :
    b.population p = a.population p :=
  population_add List.nodup_nil (fun id => by simp [h]) (by simp)

lemma population_live_congr (h : ∀ id, b.isLive id = a.isLive id) :
    b.population (fun _ => true) = a.population fun _ => true := by
  refine population_congr fun id => ?_
  have hlive (c : Arena) : (c.live? id).any (fun _ => true) = c.isLive id := by
    unfold isLive
    rcases c.live? id with _ | r <;> rfl
  rw [hlive, hlive, h]

/-- One record less. -/
lemma population_remove {id : RecordId} {r : Record} (hr : a.live? id = some r)
    (hb : ∀ j, b.live? j = if j = id then none else a.live? j) :
    a.population p = b.population p + if p r then 1 else 0 := by
  rcases hp : p r with _ | _
  · refine (population_congr fun j => ?_).symm
    rw [hb]
    by_cases hj : j = id
    · simp [hj, hr, hp]
    · simp [hj]
  · refine population_add (List.nodup_singleton id) (fun j => ?_) fun j hj => ?_
    · rw [hb]
      by_cases hj : j = id
      · simp [hj, hr, hp]
      · simp [hj]
    · rw [hb, if_pos (List.mem_singleton.1 hj)]
      rfl

lemma population_sameStock [Environment] (h : a.SameStock b) (type : TypeId) :
    b.population (·.type = type) = a.population (·.type = type) := by
  refine population_congr fun id => ?_
  have hstock := h.stock id
  rcases ha : a.live? id with _ | r <;> rcases hb : b.live? id with _ | q <;>
    simp only [ha, hb, Option.map_some, Option.map_none, reduceCtorEq] at hstock ⊢
  have htype : q.type = r.type := congrArg Stock.type (Option.some.inj hstock)
  simp [htype]

end Arena

lemma Store.Sound.length_free {s : Store} (hs : s.Sound) (type : TypeId) :
    (s.pools.free type).length = s.arena.husks type := by
  refine s.arena.length_eq_countP (hs.free_nodup type) fun id => ?_
  rw [hs.mem_free]
  constructor
  · rintro ⟨k, hk, rfl⟩
    exact ⟨Arena.lt_size_of_get? hk, by simp [hk, Cell.husk?]⟩
  · rintro ⟨-, hany⟩
    obtain ⟨k, hk, htype⟩ := (Option.any_eq_true _ _).1 hany
    obtain ⟨c, hc, hhusk⟩ := Option.bind_eq_some_iff.1 hk
    cases c with
    | live r => cases hhusk
    | pooled k' =>
      obtain rfl := Option.some.inj hhusk
      exact ⟨k', hc, of_decide_eq_true htype⟩

/-! ### Pools -/

/-- The peaks bound what they are the peaks of. -/
structure TypePool.Peaked (p : TypePool) : Prop where
  allocated : p.allocated ≤ p.peakAllocated
  count : p.free.length ≤ p.peakCount

namespace TypePool.Peaked

variable {p : TypePool}

lemma empty : TypePool.empty.Peaked := ⟨le_rfl, le_rfl⟩

lemma countBirth (h : p.Peaked) : p.countBirth.Peaked := ⟨le_max_right _ _, h.count⟩

lemma pop (h : p.Peaked) : p.pop.Peaked := by
  refine ⟨h.allocated, le_trans ?_ h.count⟩
  change p.free.tail.length ≤ p.free.length
  rw [List.length_tail]
  exact Nat.sub_le _ _

lemma park (h : p.Peaked) (id : RecordId) : (p.park id).Peaked :=
  ⟨(Nat.sub_le _ _).trans h.allocated, le_max_right _ _⟩

lemma clear (h : p.Peaked) : p.clear.Peaked := ⟨h.allocated, Nat.zero_le _⟩

end TypePool.Peaked

namespace TypePools

lemma size_update {p : TypePools} (h : p.pools.size ≤ p.maxTypes) (type : TypeId)
    (f : TypePool → TypePool) : (p.update type f).pools.size ≤ (p.update type f).maxTypes := by
  rw [maxTypes_update]
  unfold update
  split
  · next hlt =>
    rw [Array.size_modify, Array.size_append, Array.size_replicate]
    rcases Nat.le_total (type + 1) p.pools.size with hle | hle
    · rw [Nat.sub_eq_zero_of_le hle]
      exact h
    · rw [Nat.add_sub_cancel' hle]
      exact hlt
  · exact h

lemma pool_clear (p : TypePools) (type : TypeId) :
    ({ p with pools := p.pools.map (·.clear) } : TypePools).pool type = (p.pool type).clear := by
  simp only [pool, Array.getElem?_map]
  cases p.pools[type]? <;> rfl

end TypePools

namespace Space

/-- The pools number the live records of their types. -/
structure Numbered (s : Space) : Prop where
  size : s.pools.pools.size ≤ s.pools.maxTypes
  allocated : ∀ type < s.pools.maxTypes,
    (s.pools.pool type).allocated = s.arena.population (·.type = type)
  peaked : ∀ type, (s.pools.pool type).Peaked

lemma numbered_fresh [Environment] (o : HeapOptions) : (Space.fresh o).Numbered := by
  have hpool (type : TypeId) : (Space.fresh o).pools.pool type = .empty := rfl
  refine ⟨Nat.zero_le _, fun type _ => ?_, fun type => hpool type ▸ .empty⟩
  rw [hpool]
  rfl

/-- A change to the pool of one type. -/
lemma Numbered.update {s t : Space} (hn : s.Numbered) {type : TypeId} {f : TypePool → TypePool}
    (hpools : t.pools = s.pools.update type f)
    (hothers : ∀ u, u ≠ type →
      t.arena.population (·.type = u) = s.arena.population (·.type = u))
    (hself : type < s.pools.maxTypes →
      (f (s.pools.pool type)).allocated = t.arena.population (·.type = type))
    (hpeaked : (f (s.pools.pool type)).Peaked) : t.Numbered := by
  have hmax : t.pools.maxTypes = s.pools.maxTypes := by rw [hpools, TypePools.maxTypes_update]
  have hpool (u : TypeId) := TypePools.pool_update s.pools type f u
  rw [← hpools] at hpool
  refine ⟨?_, fun u hu => ?_, fun u => ?_⟩
  · rw [hpools]
    exact TypePools.size_update hn.size type f
  · rw [hmax] at hu
    rw [hpool]
    by_cases hut : u = type
    · subst hut
      rw [if_pos ⟨rfl, hu⟩]
      exact hself hu
    · rw [if_neg fun h => hut h.1, hothers u hut]
      exact hn.allocated u hu
  · rw [hpool]
    split
    · next h => exact h.1 ▸ hpeaked
    · exact hn.peaked u

/-- A record dies. -/
lemma Numbered.reclaim [Environment] {s : Space} (hn : s.Numbered) (id : RecordId) :
    (s.reclaim id).Numbered := by
  rcases hr : s.arena.live? id with _ | r
  · have hstore : (s.reclaim id).toStore = s.toStore := by
      change (s.toStore.reclaim id).2 = s.toStore
      unfold Store.reclaim
      rw [hr]
    exact ⟨by rw [hstore]; exact hn.size, by rw [hstore]; exact hn.allocated,
      by rw [hstore]; exact hn.peaked⟩
  · have hdrop (type : TypeId) : s.arena.population (·.type = type) =
        (s.reclaim id).arena.population (·.type = type) + if r.type = type then 1 else 0 := by
      have h := Arena.population_remove (p := (·.type = type)) (b := (s.reclaim id).arena) hr
        (Store.live?_reclaim s.toStore id)
      simpa using h
    by_cases hlt : r.type < s.pools.maxTypes
    · have hpools : (s.reclaim id).pools = s.pools.update r.type (·.park id) := by
        change (s.toStore.reclaim id).2.pools = _
        unfold Store.reclaim
        rw [hr]
        dsimp only
        rw [if_pos hlt]
      refine hn.update hpools (fun u hu => ?_) (fun _ => ?_) ((hn.peaked _).park id)
      · rw [hdrop u, if_neg hu.symm, Nat.add_zero]
      · have hself := hn.allocated r.type hlt
        rw [hdrop, if_pos rfl] at hself
        change (s.pools.pool r.type).allocated - 1 = _
        rw [hself, Nat.add_sub_cancel]
    · have hpools : (s.reclaim id).pools = s.pools := by
        change (s.toStore.reclaim id).2.pools = _
        unfold Store.reclaim
        rw [hr]
        dsimp only
        rw [if_neg hlt]
      refine ⟨hpools ▸ hn.size, fun type htype => ?_, fun type => hpools ▸ hn.peaked type⟩
      rw [hpools] at htype ⊢
      have hne : r.type ≠ type := fun e => hlt (e ▸ htype)
      rw [hn.allocated type htype, hdrop, if_neg hne, Nat.add_zero]

/-- A record is born, in a fresh place or in one that waited. -/
lemma Numbered.allocate [Environment] {s : Space} (hn : s.Numbered) (hs : s.toStore.Sound)
    (info : TypeInfo) (extra : Nat) (body : Body) : (s.allocate info extra body).2.Numbered := by
  obtain ⟨seq, size, hborn⟩ := live?_allocate_self hs info extra body
  have hfresh := (Store.allocates_allocate hs info extra body).fresh
  have hgrow (type : TypeId) : (s.allocate info extra body).2.arena.population (·.type = type) =
      s.arena.population (·.type = type) + if info.id = type then 1 else 0 := by
    have h := Arena.population_remove (p := (·.type = type)) hborn (b := s.arena) fun j => by
      split
      · next hj => exact hj ▸ hfresh
      · next hj => exact (live?_allocate_ne hs hj).symm
    simpa using h
  have hothers (u : TypeId) (hu : u ≠ info.id) :
      (s.allocate info extra body).2.arena.population (·.type = u) =
        s.arena.population (·.type = u) := by
    rw [hgrow, if_neg hu.symm, Nat.add_zero]
  have hself (hlt : info.id < s.pools.maxTypes) : (s.pools.pool info.id).allocated + 1 =
      (s.allocate info extra body).2.arena.population (·.type = info.id) := by
    rw [hgrow, if_pos rfl, hn.allocated info.id hlt]
  have hn' : ({ s with pools := { s.pools with seq := s.pools.seq + 1 } } : Space).Numbered :=
    ⟨hn.size, hn.allocated, hn.peaked⟩
  rcases hs.allocate_cases info extra body with ⟨id, rest, k, -, -, e⟩ | ⟨-, r, -, e⟩
  · have hpools : (s.allocate info extra body).2.pools =
        ({ s.pools with seq := s.pools.seq + 1 } : TypePools).update info.id
          (·.pop.countBirth) := congrArg (fun a => a.2.pools) e
    exact hn'.update hpools hothers hself (hn.peaked info.id).pop.countBirth
  · have hpools : (s.allocate info extra body).2.pools =
        ({ s.pools with seq := s.pools.seq + 1 } : TypePools).update info.id
          (·.countBirth) := congrArg (fun a => a.2.pools) e
    exact hn'.update hpools hothers hself (hn.peaked info.id).countBirth

section Turnover

variable [Environment] {limit : Nat} {s t : Space}

/-- **The pools keep count of their records**, whatever becomes of them. -/
theorem Turn.numbered (h : Turn limit s t) (hs : s.toStore.Sound) (hn : s.Numbered) :
    t.Numbered := by
  cases h with
  | retain h =>
    refine ⟨h.pools ▸ hn.size, fun type htype => ?_, h.pools ▸ hn.peaked⟩
    rw [Arena.population_sameStock h.stock, h.pools]
    exact hn.allocated type (h.pools ▸ htype)
  | reclaim id => exact hn.reclaim id
  | prune =>
    refine ⟨(Array.size_map ..).trans_le hn.size, fun type htype => ?_, fun type => ?_⟩
    · have hlive : s.prune.2.arena.population (·.type = type) =
          s.arena.population (·.type = type) :=
        Arena.population_congr fun id => congrArg _ (hs.live?_prune id)
      have hsame := congrArg TypePool.allocated (TypePools.pool_clear s.pools type)
      rw [hlive, ← hn.allocated type htype]
      exact hsame
    · exact (TypePools.pool_clear s.pools type).symm ▸ (hn.peaked type).clear
  | allocate extra body _ _ _ => exact hn.allocate hs _ extra body
  | @resize id r body hr _ _ =>
    refine ⟨hn.size, fun type htype => (hn.allocated type htype).trans ?_, hn.peaked⟩
    refine (Arena.population_congr fun j => ?_).symm
    change ((s.arena.setBody id body).live? j).any _ = _
    rw [Arena.live?_setBody]
    split
    · rcases s.arena.live? j with _ | q <;> rfl
    · rfl
  | define d => exact ⟨hn.size, hn.allocated, hn.peaked⟩

/-- **A turnover keeps the pools true**, and which types have one. -/
theorem Turnover.numbered (h : Turnover limit s t) (hs : s.toStore.Sound) (hn : s.Numbered) :
    t.toStore.Sound ∧ t.Numbered ∧ t.pools.maxTypes = s.pools.maxTypes := by
  induction h with
  | refl => exact ⟨hs, hn, rfl⟩
  | tail _ hstep ih =>
    obtain ⟨hs, hn, hmax⟩ := ih
    exact ⟨hstep.store hs, hstep.numbered hs hn, hstep.maxTypes.trans hmax⟩

end Turnover

end Space

end ScriptHeap
