import ScriptHeap.Proofs.Deaths
import ScriptHeap.Proofs.PoolCensus

/-!
The census of the heap. Births and deaths are counted three times: by the collector, by each
generation and by each pool. All these counts agree with the records that there are. A sweep takes
off the count what it has reclaimed, and since it reclaims live records only there is always as much
to take off.
-/

namespace ScriptHeap

/-- The counters of births and deaths after some records more have been reclaimed. -/
def Stats.reapedCensus (s : Stats) (n : Nat) : Nat × Nat × Nat :=
  (s.allocatedObjects - n, s.totalAllocated, s.totalReclaimed + n)

namespace Space

/-- What the collector counts. -/
def counts (s : Space) : (Nat × Nat × Nat) × Nat × Nat :=
  (s.collector.stats.census, s.collector.stats.collections, s.collector.stats.byMode)

lemma counts_of_bare {s t : Space} (h : t.bare = s.bare) : t.counts = s.counts :=
  congrArg (fun s => s.counts) h

/-- The counters of the collector and of its generations agree with the live records. -/
structure Counted (s : Space) : Prop where
  allocated : s.collector.stats.allocatedObjects = s.arena.population fun _ => true
  total : s.collector.stats.totalAllocated =
    s.collector.stats.allocatedObjects + s.collector.stats.totalReclaimed
  swept : s.tally.swept = s.collector.stats.totalReclaimed
  collections : s.collector.stats.collections = s.collector.stats.byMode

/-! ### Changes without a collection -/

namespace Counted

variable {s t : Space}

lemma of_counts (hs : s.Counted)
    (hlive : ∀ id, t.arena.isLive id = s.arena.isLive id) (hcounts : t.counts = s.counts)
    (hswept : t.tally.swept = s.tally.swept) : t.Counted := by
  simp only [counts, Stats.census, Prod.mk.injEq] at hcounts
  obtain ⟨⟨hallocated, htotal, hreclaimed⟩, hcollections, hbyMode⟩ := hcounts
  refine ⟨?_, ?_, ?_, ?_⟩
  · rw [hallocated, hs.allocated, Arena.population_live_congr hlive]
  · rw [htotal, hallocated, hreclaimed, hs.total]
  · rw [hswept, hreclaimed, hs.swept]
  · rw [hcollections, hbyMode, hs.collections]

lemma of_notes (hs : s.Counted) (h : s.Relinked t) : t.Counted :=
  hs.of_counts (h.alike.isLive) (counts_of_bare h.bare)
    (congrArg Tally.swept (tally_of_bare h.bare))

lemma allocate [Environment] (hc : s.Counted) (hs : s.toStore.Sound) (info : TypeInfo) (extra : Nat)
    (body : Body) : (s.allocate info extra body).2.Counted := by
  obtain ⟨seq, size, hborn⟩ := live?_allocate_self hs info extra body
  have hfresh := (births_allocate hs info extra body).fresh
  have hgrow : (s.allocate info extra body).2.arena.population (fun _ => true) =
      s.arena.population (fun _ => true) + 1 :=
    Arena.population_remove hborn fun j => by
      split
      · next hj => exact hj ▸ hfresh
      · next hj => exact (live?_allocate_ne hs hj).symm
  have hbucket (g : Gen) : ((s.allocate info extra body).2.bucket g).totalReclaimed =
      (s.bucket g).totalReclaimed := by
    refine (congrArg Bucket.totalReclaimed
      (Collector.bucket_updateBucket _ s.collector.allocGeneration (·.link _) g)).trans ?_
    split
    · next e => rw [e]; rfl
    · rfl
  refine ⟨?_, ?_, ?_, hc.collections⟩
  · rw [hgrow, ← hc.allocated]
    rfl
  · change s.collector.stats.totalAllocated + 1 =
      s.collector.stats.allocatedObjects + 1 + s.collector.stats.totalReclaimed
    rw [hc.total]
    omega
  · have hswept : (s.allocate info extra body).2.tally.swept = s.tally.swept := by
      unfold tally
      simp only [hbucket]
    exact hswept.trans hc.swept

end Counted

section Change

variable [Environment] {strict : Prop} {may : Command → Prop} {limit : Nat} {d d' : Draft}

/-- **A change that is no collection keeps the counts true.** -/
theorem Change.counted (h : Change strict may limit d d') (hs : d.space.Sound)
    (hmay : ¬ may .collect) (hc : d.space.Counted) : d'.space.Counted := by
  cases h with
  | allocate extra body _ _ _ _ _ _ _ => exact hc.allocate hs.store _ extra body
  | write _ _ _ _ _ _ _ => exact hc.of_counts (Arena.isLive_modify _ _ _) rfl rfl
  | redirect _ _ _ _ _ _ => exact hc.of_counts (Arena.isLive_modify _ _ _) rfl rfl
  | install _ _ _ _ _ => exact hc.of_counts (Arena.isLive_modify _ _ _) rfl rfl
  | note _ => exact hc.of_notes (notes_recordReference _ _ _).relinked
  | noteAll _ => exact hc.of_notes (notes_recordReferences _ _).relinked
  | refLinks x refLinks => exact hc.of_counts (Arena.isLive_modify _ _ _) rfl rfl
  | pin x => exact hc.of_counts (Arena.isLive_modify _ _ _) rfl rfl
  | unpin x => exact hc.of_counts (Arena.isLive_modify _ _ _) rfl rfl
  | collect _ _ hcollect _ => exact absurd hcollect hmay
  | prune => exact hc.of_counts (fun id => congrArg _ (live?_prune hs id)) rfl rfl
  | _ => exact hc.of_counts (fun _ => rfl) rfl rfl

lemma Changes.counted (h : Changes strict may limit d d') (hs : d.space.Sound)
    (hmay : ¬ may .collect) (hc : d.space.Counted) : d'.space.Counted := by
  induction h with
  | refl => exact hc
  | tail hsteps hstep ih => exact hstep.counted (Changes.sound hsteps hs).1 hmay ih

end Change

/-! ### Passes -/

namespace Reaps

variable {s t : Space} {ids : List RecordId} (h : Reaps s t ids)
include h

/-- The live records that meet a test get fewer by those of them that are reclaimed. -/
lemma population {p : Record → Bool} (hp : ∀ q r : Record, q.lasting = r.lasting → p q = p r) :
    s.arena.population p =
      t.arena.population p + (ids.filter fun id => (s.arena.live? id).any p).length := by
  refine Arena.population_add (h.nodup.filter _) (fun id => ?_) fun id hid => ?_
  · rw [List.mem_filter, h.mem]
    rcases hq : t.arena.live? id with _ | q
    · rcases hr : s.arena.live? id with _ | r <;> simp
    · obtain ⟨r, hr, e⟩ := h.lasting id q hq
      simp [hr, hp q r e]
  · rw [((h.mem id).1 (List.mem_filter.1 hid).1).2]
    rfl

lemma population_live : s.arena.population (fun _ => true) =
    t.arena.population (fun _ => true) + ids.length := by
  have hall : (ids.filter fun id => (s.arena.live? id).any fun _ => true) = ids := by
    refine List.filter_eq_self.2 fun id hid => ?_
    obtain ⟨⟨r, hr⟩, -⟩ := (h.mem id).1 hid
    rw [hr]
    rfl
  rw [h.population fun _ _ _ => rfl, hall]

lemma population_type (type : TypeId) : s.arena.population (·.type = type) =
    t.arena.population (·.type = type) +
      (ids.filter fun id => (s.arena.live? id).any (·.type = type)).length :=
  h.population fun q r e => by rw [Record.type_of_lasting e]

end Reaps

lemma counts_reclaimAll [Environment] (ids : List RecordId) (s : Space) :
    (ids.foldl reclaim s).counts = s.counts := by
  induction ids generalizing s with
  | nil => rfl
  | cons id ids ih => exact ih (s.reclaim id)

lemma counts_promoteAll (ids : List RecordId) (s : Space) (g : Gen) :
    (ids.foldl (promote · g) s).counts = s.counts := by
  induction ids generalizing s with
  | nil => rfl
  | cons id ids ih =>
    let s1 : Space := (s.emit (.promoted id g)).updateBucket g.next (·.link id)
    have hlisted := counts_of_bare (lists_addRoot s1 g id).relinked.bare
    exact (ih (s.promote g id)).trans hlisted

lemma counts_sweepBucket [Environment] (s : Space) (g : Gen) :
    (s.sweepBucket g).2.counts = s.counts := by
  rw [sweepBucket_eq, counts_promoteAll]
  exact counts_reclaimAll _ (s.modifyHeaders _ _)

lemma counts_foldl [Environment] (gs : List Gen) (n : SweepCount) (s : Space) :
    (gs.foldl (fun (n, s) g =>
      let (k, s) := sweepBucket s g
      (⟨n.reclaimed + k.reclaimed, n.promoted + k.promoted⟩, s)) (n, s)).2.counts = s.counts := by
  induction gs generalizing n s with
  | nil => rfl
  | cons g gs ih => exact (ih _ (s.sweepBucket g).2).trans (counts_sweepBucket s g)

/-- The collector counts what a sweep has reclaimed when all its buckets are done. -/
lemma counts_sweep [Environment] (s : Space) (target : Gen) : (s.sweep target).2.counts =
    (s.collector.stats.reapedCensus (s.sweep target).1.reclaimed, s.counts.2) := by
  have hbuckets : (s.uncounted target).counts = s.counts := by
    rw [uncounted_eq]
    exact (counts_foldl _ _ (s.withPhase .sweeping)).trans rfl
  have hsweep : (s.sweep target).2.counts =
      ((s.uncounted target).collector.stats.reapedCensus (s.sweep target).1.reclaimed,
        (s.uncounted target).counts.2) := rfl
  have hcensus : (s.uncounted target).collector.stats.census = s.collector.stats.census :=
    congrArg (·.1) hbuckets
  have hreaped (n : Nat) : (s.uncounted target).collector.stats.reapedCensus n =
      s.collector.stats.reapedCensus n :=
    congrArg (fun c : Nat × Nat × Nat => (c.1 - n, c.2.1, c.2.2 + n)) hcensus
  rw [hsweep, hreaped, hbuckets]

section Pass

variable [Environment] {p : Pass} (hs : p.start.Sound) (ht : p.target ≤ Gen.old)
  (roots : List RecordId)
include hs ht

lemma counts_finish : (p.finish roots).counts =
    (p.start.collector.stats.reapedCensus (p.reclaimed roots), p.start.counts.2) := by
  have hs0 := hs.emit (.passStarted p.target p.repair)
  have hmark : (p.marked roots).collector.stats = p.start.collector.stats :=
    congrArg (fun c => c.stats) (collector_mark hs0)
  have hsweep := counts_sweep (p.marked roots) p.target
  obtain ⟨pendingFull, hbare⟩ := (tidied_tidied hs ht roots).bare
  have hupkeep : (p.tidied roots).counts = (p.swept roots).counts :=
    (counts_of_bare hbare).trans rfl
  obtain ⟨stats, hstats, hfinish⟩ := finish_eq p roots
  have hend : (p.finish roots).counts = (p.tidied roots).counts := by
    rw [hfinish]
    unfold counts
    dsimp only
    rw [hstats]
    rfl
  refine (hend.trans (hupkeep.trans hsweep)).trans ?_
  unfold counts
  rw [hmark]
  rfl

/-- **A pass keeps the counts true**, and takes off what it has reclaimed. -/
theorem counted_finish (hc : p.start.Counted) : (p.finish roots).Counted ∧
    (p.finish roots).collector.stats.allocatedObjects + p.reclaimed roots =
      p.start.collector.stats.allocatedObjects := by
  obtain ⟨hreaps, hcount⟩ := reaps_finish hs ht roots
  have hcounts := counts_finish hs ht roots
  simp only [counts, Stats.census, Stats.reapedCensus, Prod.mk.injEq] at hcounts
  obtain ⟨⟨hallocated, htotal, hreclaimed⟩, hcollections, hbyMode⟩ := hcounts
  -- the records that die were counted, so there are enough to take off
  have hdrop := hreaps.population_live
  rw [← hcount, ← hc.allocated] at hdrop
  have hbefore := hc.total
  refine ⟨⟨?_, ?_, ?_, ?_⟩, ?_⟩
  · omega
  · omega
  · rw [hreaps.swept, hc.swept, hreclaimed, hcount]
  · rw [hcollections, hbyMode, hc.collections]
  · omega

end Pass

/-- The passes of a request keep the counts true. -/
lemma PassChain.counted [Environment] {roots : List RecordId} {s t : Space} {ps : List Pass}
    (h : PassChain roots s ps t) (hs : s.Sound) (hc : s.Counted) : t.Counted ∧ ∀ p ∈ ps,
      (p.finish roots).collector.stats.allocatedObjects + p.reclaimed roots =
        p.start.collector.stats.allocatedObjects := by
  induction h with
  | nil => exact ⟨hc, by simp⟩
  | @cons p ps s ht _ ih =>
    obtain ⟨hfinish, hcount⟩ := counted_finish hs ht roots hc
    obtain ⟨hlast, hall⟩ := ih (passes_finish hs ht roots).sound hfinish
    exact ⟨hlast, List.forall_mem_cons.2 ⟨hcount, hall⟩⟩

lemma Rests.counted {s t : Space} (h : Rests s t) (hc : s.Counted) : t.Counted := by
  have hcensus := h.census
  simp only [Stats.census, Prod.mk.injEq] at hcensus
  obtain ⟨hallocated, htotal, hreclaimed⟩ := hcensus
  have hlive := Arena.population_live_congr fun id => congrArg Option.isSome (h.live id)
  have hbyMode := h.byMode
  have hcollections := hc.collections
  refine ⟨?_, ?_, ?_, by omega⟩
  · rw [hallocated, hc.allocated, hlive]
  · rw [htotal, hallocated, hreclaimed, hc.total]
  · rw [hreclaimed, ← hc.swept]
    exact h.reaps.swept

/-! ### Pools of a pass -/

lemma turnover_smartPassList [Environment] {limit : Nat} (roots : List RecordId) (n : Nat)
    (s : Space) : ∀ p ∈ smartPassList roots n s, Turnover limit s p.start := by
  induction n generalizing s with
  | zero => simp [smartPassList]
  | succ n ih =>
    unfold smartPassList
    split
    · simp
    · next target _ =>
      refine List.forall_mem_cons.2 ⟨.refl s, fun p hp => ?_⟩
      exact (turnover_collectPass s target roots false (.start .smart)).trans (ih _ p hp)

/-- What happens to the records until a pass of a request starts. -/
lemma turnover_passList [Environment] {limit : Nat} (s : Space) (mode : Mode)
    (roots : List RecordId) : ∀ p ∈ s.passList mode roots, Turnover limit s p.start := by
  have hawake : Turnover limit s s.awake := .retain ⟨.refl _, rfl, rfl, rfl⟩
  have hone (target : Gen) (repair : Bool) :
      ∀ p ∈ [Pass.mk s.awake target repair], Turnover limit s p.start := fun p hp => by
    rw [List.mem_singleton.1 hp]
    exact hawake
  unfold passList
  split
  · simp
  · split
    · exact hone .old true
    · cases mode with
      | quick => exact hone .new false
      | full => exact hone .old false
      | smart =>
        intro p hp
        exact hawake.trans (turnover_smartPassList roots smartPassLimit s.awake p hp)

/-- **A pass takes off each pool what it has reclaimed of its type.** -/
theorem allocated_finish [Environment] {p : Pass} {roots : List RecordId} (hs : p.start.Sound)
    (ht : p.target ≤ Gen.old) (hn : p.start.Numbered) {type : TypeId}
    (hlt : type < p.start.pools.maxTypes) : ((p.finish roots).pools.pool type).allocated +
      ((p.deaths roots).filter fun id => (p.start.arena.live? id).any (·.type = type)).length =
        (p.start.pools.pool type).allocated := by
  have hturn : Turnover HeapOptions.unlimited p.start (p.finish roots) :=
    turnover_collectPass p.start p.target roots p.repair (.start .full)
  obtain ⟨-, hn', hmax⟩ := hturn.numbered hs.store hn
  have hdrop := (reaps_finish hs ht roots).1.population_type type
  rw [hn'.allocated type (hmax ▸ hlt), hn.allocated type hlt, hdrop]

/-! ### The census -/

/-- All counts agree with the records that there are. -/
structure Census (s : Space) : Prop where
  live : s.collector.stats.allocatedObjects = s.arena.population fun _ => true
  generations : s.collector.stats.allocatedObjects =
    (Gen.all.map fun g => (s.bucket g).stats.live).sum
  total : s.collector.stats.totalAllocated =
    s.collector.stats.allocatedObjects + s.collector.stats.totalReclaimed
  reclaimed : (Gen.all.map fun g => (s.bucket g).stats.totalReclaimed).sum =
    s.collector.stats.totalReclaimed
  pools : ∀ type < s.pools.maxTypes,
    (s.pools.pool type).allocated = s.arena.population (·.type = type) ∧
    (s.pools.pool type).free.length = s.arena.husks type ∧
    (s.pools.pool type).allocated ≤ (s.pools.pool type).peakAllocated ∧
    (s.pools.pool type).free.length ≤ (s.pools.pool type).peakCount
  /-- A type whose records are pooled has a pool once there is a record of it. -/
  inUse : s.pools.pools.size ≤ s.pools.maxTypes ∧ ∀ type < s.pools.maxTypes,
    0 < s.arena.population (·.type = type) ∨ 0 < s.arena.husks type → type < s.pools.pools.size
  told : ∀ type, s.pools.stats? type = if type < s.pools.pools.size then
    some {
      type
      allocated := s.arena.population (·.type = type)
      peakAllocated := (s.pools.pool type).peakAllocated
      count := s.arena.husks type
      peakCount := (s.pools.pool type).peakCount
      reuse := (s.pools.pool type).reuse } else none
  collections : s.collector.stats.collections = s.collector.stats.quickCollections +
    s.collector.stats.smartCollections + s.collector.stats.fullCollections

/-- Every live record is in one bucket. -/
lemma Binned.population {s : Space} (hb : s.Binned) : s.arena.population (fun _ => true) =
    (Gen.all.map fun g => (s.bucket g).arrivals.length).sum := by
  have hnodup : (Gen.all.flatMap fun g => (s.bucket g).arrivals).Nodup := by
    refine List.nodup_flatMap.2 ⟨fun g _ => hb.nodup g, ?_⟩
    refine List.Pairwise.imp (R := (· ≠ ·)) (fun {g g'} hne id hid hid' => ?_) (by decide)
    obtain ⟨r, hr, hg⟩ := (hb.mem g id).1 hid
    obtain ⟨q, hq, hg'⟩ := (hb.mem g' id).1 hid'
    rw [hr] at hq
    obtain rfl := Option.some.inj hq
    exact hne (hg.symm.trans hg')
  rw [← List.length_flatMap]
  refine Arena.population_eq_length hnodup fun id => ?_
  simp only [List.mem_flatMap, hb.mem]
  rcases s.arena.live? id with _ | r
  · simp
  · simp [Gen.mem_all]

theorem Sound.census {s : Space} (hs : s.Sound) (hc : s.Counted) (hn : s.Numbered) :
    s.Census := by
  have hcount := hs.store.length_free
  refine ⟨hc.allocated, hc.allocated.trans hs.binned.population, hc.total, hc.swept,
    fun type hlt => ?_, ⟨hn.size, fun type hlt hsome => ?_⟩, fun type => ?_, hc.collections⟩
  · exact ⟨hn.allocated type hlt, hcount type, (hn.peaked type).allocated, (hn.peaked type).count⟩
  · by_contra hout
    have hpool : s.pools.pool type = .empty := by
      unfold TypePools.pool
      rw [Array.getElem?_eq_none (Nat.le_of_not_lt hout)]
      rfl
    have hnone := hn.allocated type hlt
    have hempty := hcount type
    rw [hpool] at hnone
    rw [TypePools.free, hpool] at hempty
    rcases hsome with hpos | hpos
    · exact hpos.ne hnone
    · exact hpos.ne hempty
  · split
    · next hlt =>
      have hget : s.pools.pools[type]? = some (s.pools.pool type) := by
        unfold TypePools.pool
        rw [Array.getElem?_eq_getElem hlt]
        rfl
      rw [TypePools.stats?, hget, ← hn.allocated type (hlt.trans_le hn.size), ← hcount type]
      rfl
    · next hout =>
      rw [TypePools.stats?, Array.getElem?_eq_none (Nat.le_of_not_lt hout)]
      rfl

end Space

namespace Heap

open Space

variable [Environment] {h : Heap}

lemma counted_fresh (o : HeapOptions) : (fresh o).toSpace.Counted := by
  refine ⟨?_, ?_, ?_, ?_⟩
  · rfl
  · rfl
  · rfl
  · rfl

lemma counted_apply (hs : h.toSpace.Sound) (hc : h.toSpace.Counted) (op : Operation) :
    (apply op h).2.toSpace.Counted := by
  rcases hreq : h.request? op with _ | mode
  · obtain ⟨P, hP, -⟩ := evolves_apply hs op False.elim
    exact hP.changes.counted hs (not_asks_collect hreq) hc
  · obtain ⟨s, t, hchain, hsound, hbefore, hafter, -⟩ := chain_apply hs hreq
    exact hafter.counted (hchain.counted hsound (hbefore.counted hc)).1

lemma counted_run (ops : List Operation) (hs : h.toSpace.Sound) (hc : h.toSpace.Counted) :
    (run h ops).toSpace.Counted := by
  induction ops generalizing h with
  | nil => exact hc
  | cons op ops ih => exact ih (sound_run [op] hs).1 (counted_apply hs hc op)

lemma numbered_run (o : HeapOptions) (ops : List Operation) :
    (run (fresh o) ops).toSpace.Numbered ∧
      (run (fresh o) ops).pools.maxTypes = o.maxTypes := by
  obtain ⟨hs, hn, hmax⟩ :=
    (turnover_fresh o).numbered (Store.sound_empty o.maxTypes) (numbered_fresh o)
  obtain ⟨-, hn', hmax'⟩ := (turnover_run ops (steady_fresh o).1.toSound).2.numbered hs hn
  exact ⟨hn', hmax'.trans hmax⟩

/-- The passes of an operation take off exactly what they reclaim. -/
lemma taken_passes (hs : h.toSpace.Sound) (hc : h.toSpace.Counted) (hn : h.toSpace.Numbered)
    (op : Operation) : ∀ p ∈ h.passes op,
      (p.finish h.roots).collector.stats.allocatedObjects + p.reclaimed h.roots =
        p.start.collector.stats.allocatedObjects ∧
      ∀ type < h.pools.maxTypes, ((p.finish h.roots).pools.pool type).allocated +
        ((p.deaths h.roots).filter fun id =>
          (p.start.arena.live? id).any (·.type = type)).length =
            (p.start.pools.pool type).allocated := by
  intro p hp
  obtain ⟨mode, hreq, hlist⟩ := request_of_mem_passes hp
  obtain ⟨s, t, hchain, hsound, hbefore, -⟩ := chain_apply hs hreq
  obtain ⟨hstart, ht⟩ := hchain.starts hsound p hp
  have htaken := (hchain.counted hsound (hbefore.counted hc)).2 p hp
  have hturn : Turnover HeapOptions.unlimited h.toSpace p.start :=
    turnover_passList h.toSpace mode h.roots p hlist
  obtain ⟨-, hn', hmax⟩ := hturn.numbered hs.store hn
  exact ⟨htaken, fun type hlt => allocated_finish hstart ht hn' (hmax ▸ hlt)⟩

/-- **The population counters are true.** After any run the collector, the generations and the pools
count the live records that there are, and the statistics of a pool are these numbers. When an
operation collects, each of its passes finds as many records counted as it takes off, both in all
and of each type that has a pool, so that no subtraction is cut off at zero, and what is told of the
request is by how many the live records have become fewer. -/
theorem census_run (o : HeapOptions) (ops : List Operation) :
    let h := run (fresh o) ops
    h.toSpace.Census ∧ h.pools.maxTypes = o.maxTypes ∧
    ∀ op,
      (∀ p ∈ h.passes op,
        (p.finish h.roots).collector.stats.allocatedObjects + p.reclaimed h.roots =
          p.start.collector.stats.allocatedObjects ∧
        ∀ type < o.maxTypes, ((p.finish h.roots).pools.pool type).allocated +
          ((p.deaths h.roots).filter fun id =>
            (p.start.arena.live? id).any (·.type = type)).length =
              (p.start.pools.pool type).allocated) ∧
      ∀ info, (apply op h).1 = .ok (.info (some info)) →
        h.arena.population (fun _ => true) =
          (apply op h).2.arena.population (fun _ => true) + info.reclaimed := by
  intro h
  have hs : h.toSpace.Sound := (sound_typed_run o ops).1
  have hc : h.toSpace.Counted := counted_run ops (steady_fresh o).1.toSound (counted_fresh o)
  obtain ⟨hn, hmax⟩ := numbered_run o ops
  refine ⟨hs.census hc hn, hmax, fun op => ⟨fun p hp => ?_, fun info hok => ?_⟩⟩
  · rw [← hmax]
    exact taken_passes hs hc hn op p hp
  · obtain ⟨mode, hreq⟩ := request_of_info hok
    obtain ⟨hreaps, hinfo⟩ := reaps_apply hs hreq
    rw [hinfo info hok]
    exact hreaps.population_live

end Heap

end ScriptHeap
