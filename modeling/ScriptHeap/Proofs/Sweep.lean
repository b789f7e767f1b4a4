import ScriptHeap.Collector.Sweep
import ScriptHeap.Proofs.MarkPhase
import ScriptHeap.Proofs.Store

/-!
The sweep phase. Every record of a collected generation meets its fate once: it is reclaimed, or it
comes through and ages, and one that moves up is listed for the generation it leaves. Records of
the other generations lose their mark. The tables may then list holders that were reclaimed, but
only tables of collected generations do.
-/

namespace ScriptHeap

lemma Gen.lt_next {g : Gen} (h : g < Gen.eternal) : g < g.next := by
  revert g
  decide

lemma Gen.next_le {g h : Gen} (hg : g < h) : g.next ≤ h := by
  revert g h
  decide

lemma Gen.le_next (g : Gen) : g ≤ g.next := by
  revert g
  decide

lemma Gen.old_lt_eternal : Gen.old < Gen.eternal := by decide

/-- The record after it has come through a sweep of its generation. -/
def Record.aged (r : Record) : Record := { r with header := r.header.aged r.header.generation }

def Record.fate (r : Record) : Fate := r.header.fate r.header.generation

lemma Record.lasting_aged (r : Record) : r.aged.lasting = r.lasting := by
  unfold aged Header.aged
  split
  · rfl
  · split
    · split <;> rfl
    · rfl

lemma Record.unmarked_aged (r : Record) : r.aged.header.marked = false := by
  unfold aged Header.aged
  split
  · next h => simpa using h
  · split
    · split <;> rfl
    · rfl

lemma Record.rootLinks_aged (r : Record) : r.aged.header.rootLinks = r.header.rootLinks := by
  unfold aged Header.aged
  split
  · rfl
  · split
    · split <;> rfl
    · rfl

lemma Record.generation_aged (r : Record) : r.aged.header.generation =
    if r.fate = .promote then r.header.generation.next else r.header.generation := by
  unfold aged fate Header.aged Header.fate
  rcases r.header.marked with _ | _
  · rcases r.header.permanent with _ | _ <;> simp
  · by_cases hg : r.header.generation < Gen.old <;> by_cases hs : r.header.survived <;>
      simp [hg, hs]

lemma Record.le_generation_aged (r : Record) : r.header.generation ≤ r.aged.header.generation := by
  rw [generation_aged]
  split
  · exact Gen.le_next _
  · exact le_refl _

lemma Record.lt_old_of_promote {r : Record} (h : r.fate = .promote) :
    r.header.generation < Gen.old := by
  unfold fate Header.fate at h
  split at h
  · split at h
    · next hc => simpa using (Bool.and_eq_true_iff.1 hc).1
    · simp at h
  · split at h <;> simp at h

namespace Space

lemma mem_fated {s : Space} (hb : s.Binned) {g : Gen} {fate : Fate} {id : RecordId} :
    id ∈ s.fated g fate ↔
      ∃ r, s.arena.live? id = some r ∧ r.header.generation = g ∧ r.fate = fate := by
  simp only [fated, List.mem_filter, Bucket.live, List.mem_reverse, hb.mem, Option.any_eq_true,
    decide_eq_true_eq]
  constructor
  · rintro ⟨⟨r, hr, rfl⟩, h, hh, hf⟩
    obtain ⟨q, hq, rfl⟩ := Arena.header?_eq_some.1 hh
    rw [hr] at hq
    obtain rfl := Option.some.inj hq
    exact ⟨r, hr, rfl, hf⟩
  · rintro ⟨r, hr, rfl, hf⟩
    exact ⟨⟨r, hr, rfl⟩, r.header, Arena.header?_eq_some.2 ⟨r, hr, rfl⟩, hf⟩

lemma nodup_fated {s : Space} (hb : s.Binned) (g : Gen) (fate : Fate) :
    (s.fated g fate).Nodup :=
  (List.nodup_reverse.2 (hb.nodup g)).filter _

lemma disjoint_fated {s : Space} (hb : s.Binned) {g : Gen} {f f' : Fate} (h : f ≠ f') :
    List.Disjoint (s.fated g f) (s.fated g f') := by
  intro id hid hid'
  obtain ⟨r, hr, -, rfl⟩ := (mem_fated hb).1 hid
  obtain ⟨q, hq, -, rfl⟩ := (mem_fated hb).1 hid'
  rw [hr] at hq
  exact h (by rw [Option.some.inj hq])

/-! ### Records that are reclaimed -/

variable [Environment]

lemma live?_reclaimAll (ids : List RecordId) (s : Space) (j : RecordId) :
    (ids.foldl reclaim s).arena.live? j = if j ∈ ids then none else s.arena.live? j := by
  induction ids generalizing s with
  | nil => simp
  | cons id ids ih =>
    have h : (s.reclaim id).arena.live? j = if j = id then none else s.arena.live? j :=
      Store.live?_reclaim s.toStore id j
    rw [List.foldl_cons, ih, h]
    by_cases hj : j = id
    · simp [hj]
    · simp [hj]

lemma sound_reclaimAll (ids : List RecordId) {s : Space} (hs : s.toStore.Sound) :
    (ids.foldl reclaim s).toStore.Sound := by
  induction ids generalizing s with
  | nil => exact hs
  | cons id ids ih => exact ih (s := s.reclaim id) (hs.reclaim id)

lemma bucket_reclaimAll (ids : List RecordId) (s : Space) (g : Gen) :
    (ids.foldl reclaim s).bucket g = s.bucket g := by
  induction ids generalizing s with
  | nil => rfl
  | cons id ids ih => exact ih (s.reclaim id)

lemma overflow_reclaimAll (ids : List RecordId) (s : Space) :
    (ids.foldl reclaim s).collector.overflow = s.collector.overflow := by
  induction ids generalizing s with
  | nil => rfl
  | cons id ids ih => exact ih (s.reclaim id)

lemma setup_reclaimAll (ids : List RecordId) (s : Space) :
    (ids.foldl reclaim s).setup = s.setup := by
  induction ids generalizing s with
  | nil => rfl
  | cons id ids ih => exact ih (s.reclaim id)

/-! ### Records that move up -/

/-- Some records have moved up from generation `g`, one after the other. -/
structure Promotes (s s' : Space) (g : Gen) (ids : List RecordId) : Prop where
  alike : s.arena.Alike s'.arena
  marks : ∀ id r q, s.arena.live? id = some r → s'.arena.live? id = some q →
    q.header.marked = r.header.marked
  others : ∀ j, j ∉ ids → s'.arena.get? j = s.arena.get? j
  pools : s'.pools = s.pools
  setup : s'.setup = s.setup
  arrivals : ∀ h, (s'.bucket h).arrivals =
    if h = g.next then ids.reverse ++ (s.bucket h).arrivals else (s.bucket h).arrivals
  roots : ∀ h id, id ∈ (s.bucket h).roots → id ∈ (s'.bucket h).roots
  overflow : s.collector.overflow = true → s'.collector.overflow = true
  listed : ∀ stale, s.Listed stale →
    (∀ id ∈ ids, ∀ r, s.arena.live? id = some r → g < r.header.generation) →
    s'.Listed stale ∧ ∀ id ∈ ids, ∀ r, s.arena.live? id = some r →
      id ∈ (s'.bucket g).roots ∨ s'.collector.overflow = true

omit [Environment] in
lemma promotes_promote (s : Space) (g : Gen) (id : RecordId) :
    Promotes s (s.promote g id) g [id] := by
  let s1 : Space := (s.emit (.promoted id g)).updateBucket g.next (·.link id)
  have hb (h : Gen) : s1.bucket h = if h = g.next then (s.bucket h).link id else s.bucket h := by
    rw [bucket_updateBucket]
    split
    · next e => rw [e]; rfl
    · rfl
  have hroots (h : Gen) : (s1.bucket h).roots = (s.bucket h).roots := by
    rw [hb]
    split <;> rfl
  obtain ⟨⟨⟨halike, hmarks, hbare, hover⟩, hmono⟩, hothers, hlisted⟩ := lists_addRoot s1 g id
  have hs1 (stale : Gen → Prop) (hs : s.Listed stale) : s1.Listed stale :=
    listed_of_rootLinks hs (.refl _) (fun _ r q hr hq => by
      rw [show s1.arena.live? _ = s.arena.live? _ from rfl, hr] at hq
      rw [Option.some.inj hq]) hroots rfl
  refine ⟨halike, hmarks, fun j hj => hothers j (by simpa using hj), pools_of_bare (s := s1) hbare,
    setup_of_bare (s := s1) hbare, fun h => ?_, fun h j hj => hmono h j (hroots h ▸ hj), hover, ?_⟩
  · rw [show ((s.promote g id).bucket h).arrivals = (s1.bucket h).arrivals from
      arrivals_of_bare hbare h, hb]
    split <;> rfl
  · intro stale hs hg
    obtain ⟨hl, hn⟩ := hlisted stale (hs1 stale hs) (hg id (by simp))
    exact ⟨hl, fun j hj r hr => by
      obtain rfl := List.mem_singleton.1 hj
      exact hn r hr⟩

omit [Environment] in
lemma promotes_all (ids : List RecordId) (s : Space) (g : Gen) :
    Promotes s (ids.foldl (promote · g) s) g ids := by
  induction ids generalizing s with
  | nil =>
    refine ⟨.refl _, fun id r q hr hq => ?_, fun _ _ => rfl, rfl, rfl, fun h => ?_, fun _ _ => id,
      id, fun _ hs _ => ⟨hs, by simp⟩⟩
    · rw [Option.some.inj (hq.symm.trans hr)]
    · split <;> rfl
  | cons id ids ih =>
    have h1 := promotes_promote s g id
    have h2 := ih (s.promote g id)
    refine ⟨h1.alike.trans h2.alike, fun j r q hr hq => ?_, fun j hj => ?_,
      h2.pools.trans h1.pools, h2.setup.trans h1.setup, fun h => ?_,
      fun h j hj => h2.roots h j (h1.roots h j hj), fun ho => h2.overflow (h1.overflow ho),
      fun stale hs hg => ?_⟩
    · obtain ⟨p, hp, -⟩ := h1.alike.live hr
      exact (h2.marks j p q hp hq).trans (h1.marks j r p hr hp)
    · rw [List.mem_cons, not_or] at hj
      exact (h2.others j hj.2).trans (h1.others j (by simpa using hj.1))
    · refine (h2.arrivals h).trans ?_
      rw [h1.arrivals h]
      split <;> simp
    · obtain ⟨hl1, hn1⟩ := h1.listed stale hs fun j hj => hg j (by simp_all)
      obtain ⟨hl2, hn2⟩ := h2.listed stale hl1 fun j hj q hq => by
        obtain ⟨r, hr, e⟩ := h1.alike.live' hq
        rw [Record.generation_of_core e]
        exact hg j (List.mem_cons_of_mem _ hj) r hr
      refine ⟨hl2, fun j hj r hr => ?_⟩
      rcases List.mem_cons.1 hj with rfl | hj
      · exact (hn1 j (by simp) r hr).imp (h2.roots g j) h2.overflow
      · obtain ⟨q, hq, -⟩ := h1.alike.live hr
        exact hn2 j hj q hq

/-! ### One bucket -/

/-- What a sweep of generation `g` makes of a record. -/
def Survival (g : Gen) (r : Record) : Option Record :=
  if r.header.generation = g then if r.fate = .reclaim then none else some r.aged else some r

/-- The sweep of a bucket before it lists the records that move up. -/
def settled (s : Space) (g : Gen) : Space :=
  ((s.fated g .reclaim).foldl reclaim
    (s.modifyHeaders (s.fated g .keep ++ s.fated g .promote) (·.aged g))).updateBucket g
      (·.swept (s.fated g .keep) (s.fated g .reclaim).length)

lemma sweepBucket_eq (s : Space) (g : Gen) :
    (s.sweepBucket g).2 = (s.fated g .promote).foldl (promote · g) (s.settled g) := rfl

lemma setup_settled (s : Space) (g : Gen) : (s.settled g).setup = s.setup :=
  setup_reclaimAll _ (s.modifyHeaders _ _)

lemma overflow_settled (s : Space) (g : Gen) :
    (s.settled g).collector.overflow = s.collector.overflow :=
  overflow_reclaimAll _ (s.modifyHeaders _ _)

lemma sound_settled {s : Space} (hs : s.toStore.Sound) (g : Gen) :
    (s.settled g).toStore.Sound :=
  sound_reclaimAll _ (s := s.modifyHeaders _ _)
    (hs.of_sameShape (Arena.sameShape_modifyHeaders _ _ _))

lemma bucket_settled (s : Space) (g h : Gen) : (s.settled g).bucket h =
    if h = g then (s.bucket g).swept (s.fated g .keep) (s.fated g .reclaim).length
    else s.bucket h := by
  have (h : Gen) : ((s.fated g .reclaim).foldl reclaim
      (s.modifyHeaders (s.fated g .keep ++ s.fated g .promote) (·.aged g))).bucket h =
      s.bucket h := bucket_reclaimAll _ _ _
  unfold settled
  rw [bucket_updateBucket, this, this]

lemma roots_settled (s : Space) (g h : Gen) :
    ((s.settled g).bucket h).roots = (s.bucket h).roots := by
  rw [bucket_settled]
  split
  · next e => rw [e]; rfl
  · rfl

section Bucket

variable {s : Space} (hb : s.Binned) (g : Gen)
include hb

omit [Environment] in
lemma nodup_through : (s.fated g .keep ++ s.fated g .promote).Nodup :=
  List.nodup_append.2 ⟨nodup_fated hb g _, nodup_fated hb g _,
    fun _ h _ h' e => disjoint_fated hb (g := g) (by decide) h (e ▸ h')⟩

omit [Environment] in
lemma mem_through {id : RecordId} : id ∈ s.fated g .keep ++ s.fated g .promote ↔
    ∃ r, s.arena.live? id = some r ∧ r.header.generation = g ∧ r.fate ≠ .reclaim := by
  simp only [List.mem_append, mem_fated hb]
  constructor
  · rintro (⟨r, hr, hg, hf⟩ | ⟨r, hr, hg, hf⟩) <;> exact ⟨r, hr, hg, by simp [hf]⟩
  · rintro ⟨r, hr, hg, hf⟩
    rcases h : r.fate with _ | _ | _
    · exact .inl ⟨r, hr, hg, h⟩
    · exact .inr ⟨r, hr, hg, h⟩
    · exact absurd h hf

lemma live?_settled (id : RecordId) :
    (s.settled g).arena.live? id = (s.arena.live? id).bind (Survival g) := by
  change ((s.fated g .reclaim).foldl reclaim _).arena.live? id = _
  rw [live?_reclaimAll]
  change (if _ then _ else (s.arena.modifyHeaders _ _).live? id) = _
  rw [Arena.live?_modifyHeaders _ _ (nodup_through hb g)]
  simp only [mem_fated hb, mem_through hb]
  rcases hr : s.arena.live? id with _ | r
  · simp
  · simp only [Option.some.injEq, exists_eq_left', Option.map_some, Option.bind_some, Survival]
    by_cases hg : r.header.generation = g
    · by_cases hf : r.fate = .reclaim
      · simp [hg, hf]
      · simp [hg, hf, Record.aged]
    · simp [hg]

/-- Where the records are after the sweep of a bucket. -/
lemma exists_settled_iff (hg : g < Gen.eternal) (id : RecordId) (h : Gen) :
    (∃ q, (s.settled g).arena.live? id = some q ∧ q.header.generation = h) ↔
      if h = g then id ∈ s.fated g .keep
      else (h = g.next ∧ id ∈ s.fated g .promote) ∨ id ∈ (s.bucket h).arrivals := by
  have hnext : g.next ≠ g := (Gen.lt_next hg).ne'
  rw [live?_settled hb]
  simp only [mem_fated hb, hb.mem]
  rcases hr : s.arena.live? id with _ | r
  · simp
  · simp only [Option.bind_some, Survival, Option.some.injEq, exists_eq_left']
    by_cases hrg : r.header.generation = g
    · have haged := r.generation_aged
      rw [hrg] at haged
      simp only [hrg, if_true]
      rcases hf : r.fate with _ | _ | _ <;> simp only [hf, reduceCtorEq, if_true, if_false] at haged
      · by_cases hh : h = g
        · simp [hh, haged]
        · simp [hh, haged, Ne.symm hh]
      · by_cases hh : h = g
        · simp [hh, haged, hnext]
        · simp [hh, haged, Ne.symm hh, eq_comm]
      · by_cases hh : h = g
        · simp [hh]
        · simp [hh, Ne.symm hh]
    · by_cases hh : h = g
      · subst hh
        simp [hrg]
      · simp [hrg, hh]

/-- A record that is there after the sweep of a bucket was there before. -/
lemma live_of_settled {id : RecordId} {q : Record}
    (hq : (s.settled g).arena.live? id = some q) :
    ∃ r, s.arena.live? id = some r ∧ (q = r ∨ q = r.aged) := by
  rw [live?_settled hb] at hq
  obtain ⟨r, hr, h⟩ := Option.bind_eq_some_iff.1 hq
  refine ⟨r, hr, ?_⟩
  unfold Survival at h
  split at h
  · split at h
    · simp at h
    · exact .inr (Option.some.inj h).symm
  · exact .inl (Option.some.inj h).symm

lemma listed_settled {stale : Gen → Prop} (hl : s.Listed stale) (hg : ∀ h < g, stale h) :
    (s.settled g).Listed stale := by
  refine ⟨fun h id q hq => ?_, fun h id q hq hid => ?_, fun h id hid => ?_, fun h => ?_,
    fun h => ?_⟩
  · obtain ⟨r, hr, rfl | rfl⟩ := live_of_settled hb g hq
    · rw [roots_settled, hl.mem h id _ hr]
    · rw [roots_settled, hl.mem h id r hr, r.rootLinks_aged]
  · rw [roots_settled] at hid
    obtain ⟨r, hr, rfl | rfl⟩ := live_of_settled hb g hq
    · exact hl.elder h id _ hr hid
    · exact lt_of_lt_of_le (hl.elder h id r hr hid) r.le_generation_aged
  · rw [roots_settled] at hid
    rcases hl.live h id hid with hs | ⟨r, hr⟩
    · exact .inl hs
    · rw [live?_settled hb, hr, Option.bind_some]
      unfold Survival
      split
      · next e =>
        -- a holder of this generation is listed for younger ones only
        exact .inl (hg h (e ▸ hl.elder h id r hr hid))
      · exact .inr ⟨r, rfl⟩
  · rw [roots_settled]
    exact hl.nodup h
  · rw [roots_settled, rootCapacity_of_setup (setup_settled s g)]
    exact hl.length_le h

end Bucket

/-! ### Several buckets -/

/-- What a sweep of some generations does: a record of one of them meets its fate, and the others
stay as they are. -/
structure Sweeps (stale : Gen → Prop) (s s' : Space) (gs : List Gen) : Prop where
  vacant : ∀ id, s.arena.live? id = none → s'.arena.live? id = none
  others : ∀ id r, s.arena.live? id = some r → r.header.generation ∉ gs →
    s'.arena.live? id = some r
  reclaimed : ∀ id r, s.arena.live? id = some r → r.header.generation ∈ gs →
    r.fate = .reclaim → s'.arena.live? id = none
  aged : ∀ id r, s.arena.live? id = some r → r.header.generation ∈ gs → r.fate ≠ .reclaim →
    ∃ q, s'.arena.live? id = some q ∧ q.core = r.aged.core ∧ q.header.marked = false ∧
      (r.fate = .promote →
        id ∈ (s'.bucket r.header.generation).roots ∨ s'.collector.overflow = true)
  roots : ∀ h id, id ∈ (s.bucket h).roots → id ∈ (s'.bucket h).roots
  overflow : s.collector.overflow = true → s'.collector.overflow = true
  setup : s'.setup = s.setup
  store : s'.toStore.Sound
  binned : s'.Binned
  listed : s'.Listed stale

variable {stale : Gen → Prop}

lemma promotes_sweepBucket (s : Space) (g : Gen) :
    Promotes (s.settled g) (s.sweepBucket g).2 g (s.fated g .promote) := by
  rw [sweepBucket_eq]
  exact promotes_all _ _ g

lemma arrivals_sweepBucket (s : Space) {g : Gen} (hg : g < Gen.eternal) (h : Gen) :
    ((s.sweepBucket g).2.bucket h).arrivals =
    if h = g then (s.fated g .keep).reverse
    else if h = g.next then (s.fated g .promote).reverse ++ (s.bucket h).arrivals
    else (s.bucket h).arrivals := by
  have hnext : g.next ≠ g := (Gen.lt_next hg).ne'
  rw [(promotes_sweepBucket s g).arrivals, bucket_settled]
  by_cases hh : h = g
  · simp [hh, hnext.symm, Bucket.swept]
  · simp [hh]

lemma store_sweepBucket {s : Space} {g : Gen} (hs : s.toStore.Sound) :
    (s.sweepBucket g).2.toStore.Sound := by
  have hp := promotes_sweepBucket s g
  have hstore : (s.sweepBucket g).2.toStore =
      { (s.settled g).toStore with arena := (s.sweepBucket g).2.arena } :=
    congrArg (Store.mk (s.sweepBucket g).2.arena) hp.pools
  rw [hstore]
  exact (sound_settled hs g).of_sameShape hp.alike.shape

section Bucket

variable {s : Space} (hb : s.Binned) {g : Gen} (hg : g < Gen.eternal)
include hb

/-- The records that move up have been settled before they are listed. -/
lemma live?_promoted {id : RecordId} (hid : id ∈ s.fated g .promote) :
    ∃ r, s.arena.live? id = some r ∧ (s.settled g).arena.live? id = some r.aged ∧
      r.aged.header.generation = g.next := by
  obtain ⟨r, hr, rfl, hf⟩ := (mem_fated hb).1 hid
  refine ⟨r, hr, ?_, ?_⟩
  · simp [live?_settled hb, hr, Survival, hf]
  · simp [r.generation_aged, hf]

include hg

lemma binned_sweepBucket : (s.sweepBucket g).2.Binned := by
  have hp := promotes_sweepBucket s g
  have harr := arrivals_sweepBucket s hg
  have hnext : g.next ≠ g := (Gen.lt_next hg).ne'
  refine ⟨fun h id => ?_, fun h => ?_⟩
  · have hiff : (∃ r, (s.sweepBucket g).2.arena.live? id = some r ∧ r.header.generation = h) ↔
        ∃ q, (s.settled g).arena.live? id = some q ∧ q.header.generation = h := by
      constructor
      · rintro ⟨r, hr, rfl⟩
        obtain ⟨q, hq, e⟩ := hp.alike.live' hr
        exact ⟨q, hq, (Record.generation_of_core e).symm⟩
      · rintro ⟨q, hq, rfl⟩
        obtain ⟨r, hr, e⟩ := hp.alike.live hq
        exact ⟨r, hr, Record.generation_of_core e⟩
    rw [hiff, exists_settled_iff hb g hg, harr]
    by_cases hh : h = g
    · simp [hh]
    · by_cases hn : h = g.next
      · simp [hn, hnext]
      · simp [hh, hn]
  · rw [harr]
    by_cases hh : h = g
    · simpa [hh] using nodup_fated hb g .keep
    · by_cases hn : h = g.next
      · rw [if_neg hh, if_pos hn]
        refine List.nodup_append.2 ⟨List.nodup_reverse.2 (nodup_fated hb g _), hb.nodup _, ?_⟩
        rintro id hid _ hid' rfl
        obtain ⟨r, hr, e, -⟩ := (mem_fated hb).1 (List.mem_reverse.1 hid)
        obtain ⟨q, hq, e'⟩ := (hb.mem _ _).1 hid'
        rw [hr] at hq
        obtain rfl := Option.some.inj hq
        exact hh (e'.symm.trans e)
      · simpa [hh, hn] using hb.nodup h

/-- A sweep of one bucket. -/
theorem sweeps_sweepBucket (hs : s.toStore.Sound) (hl : s.Listed stale) (hst : ∀ h < g, stale h) :
    Sweeps stale s (s.sweepBucket g).2 [g] := by
  have hp := promotes_sweepBucket s g
  have hlive := live?_settled hb g
  obtain ⟨hlisted, hnew⟩ := hp.listed stale (listed_settled hb g hl hst) fun id hid q hq => by
    obtain ⟨r, -, hr, hgen⟩ := live?_promoted hb hid
    rw [hq] at hr
    rw [Option.some.inj hr, hgen]
    exact Gen.lt_next hg
  have hgone (id : RecordId) (h : (s.settled g).arena.live? id = none) :
      (s.sweepBucket g).2.arena.live? id = none := by
    refine Option.eq_none_iff_forall_ne_some.2 fun q hq => ?_
    obtain ⟨r, hr, -⟩ := hp.alike.live' hq
    simp [h] at hr
  refine ⟨fun id h => hgone id (by simp [hlive, h]), fun id r hr hgs => ?_,
    fun id r hr hgs hf => hgone id ?_, fun id r hr hgs hf => ?_, fun h id hid => ?_, fun ho => ?_,
    hp.setup.trans (setup_settled s g), store_sweepBucket hs, binned_sweepBucket hb hg, hlisted⟩
  · rw [List.mem_singleton] at hgs
    have hid : id ∉ s.fated g .promote := fun hid => by
      obtain ⟨p, hp, e, -⟩ := (mem_fated hb).1 hid
      rw [hr] at hp
      exact hgs (Option.some.inj hp ▸ e)
    rw [Arena.live?_congr (hp.others id hid), hlive, hr]
    simp [Survival, hgs]
  · rw [List.mem_singleton] at hgs
    simp [hlive, hr, Survival, hgs, hf]
  · obtain rfl := List.mem_singleton.1 hgs
    have haged : (s.settled r.header.generation).arena.live? id = some r.aged := by
      simp [hlive, hr, Survival, hf]
    obtain ⟨q, hq, e⟩ := hp.alike.live haged
    have hmark : q.header.marked = false := (hp.marks id _ q haged hq).trans r.unmarked_aged
    exact ⟨q, hq, e, hmark, fun hf => hnew id ((mem_fated hb).2 ⟨r, hr, rfl, hf⟩) _ haged⟩
  · exact hp.roots h id (roots_settled s g h ▸ hid)
  · exact hp.overflow ((overflow_settled s g).trans ho)

end Bucket

omit [Environment] in
lemma Sweeps.nil {s : Space} (hs : s.toStore.Sound) (hb : s.Binned) (hl : s.Listed stale) :
    Sweeps stale s s [] :=
  ⟨fun _ => id, fun _ _ h _ => h, by simp, by simp, fun _ _ => id, id, rfl, hs, hb, hl⟩

omit [Environment] in
/-- A record that the first sweep has aged is too old to be swept again. -/
lemma Sweeps.cons {s s' s'' : Space} {g : Gen} {gs : List Gen} (h : Sweeps stale s s' [g])
    (k : Sweeps stale s' s'' gs) (hgs : ∀ j ∈ gs, j < g) : Sweeps stale s s'' (g :: gs) := by
  have hnot {j : Gen} (hj : j ∈ gs) : j ∉ [g] := fun e =>
    (hgs j hj).ne (List.mem_singleton.1 e)
  refine ⟨fun id hn => k.vacant id (h.vacant id hn), fun id r hr hnm => ?_,
    fun id r hr hm hf => ?_, fun id r hr hm hf => ?_,
    fun j id hid => k.roots j id (h.roots j id hid),
    fun ho => k.overflow (h.overflow ho), k.setup.trans h.setup, k.store, k.binned, k.listed⟩
  · rw [List.mem_cons, not_or] at hnm
    exact k.others id r (h.others id r hr (by simpa using hnm.1)) hnm.2
  · rcases List.mem_cons.1 hm with e | hm
    · exact k.vacant id (h.reclaimed id r hr (by simp [e]) hf)
    · exact k.reclaimed id r (h.others id r hr (hnot hm)) hm hf
  · rcases List.mem_cons.1 hm with e | hm
    · obtain ⟨q, hq, hcore, hmark, hnew⟩ := h.aged id r hr (by simp [e]) hf
      refine ⟨q, k.others id q hq fun hmem => ?_, hcore, hmark,
        fun hf => (hnew hf).imp (k.roots _ _) k.overflow⟩
      have hle : r.header.generation ≤ q.header.generation := by
        rw [Record.generation_of_core hcore]
        exact r.le_generation_aged
      exact absurd (hgs _ hmem) (not_lt.2 (e ▸ hle))
    · exact k.aged id r (h.others id r hr (hnot hm)) hm hf

/-- The eldest generation is swept first, so that no record is swept twice. -/
theorem sweeps_foldl (gs : List Gen) (hgs : gs.Pairwise (· > ·)) (n : SweepCount) {s : Space}
    (hs : s.toStore.Sound) (hb : s.Binned) (hl : s.Listed stale)
    (hg : ∀ g ∈ gs, g < Gen.eternal ∧ ∀ h < g, stale h) :
    Sweeps stale s (gs.foldl (fun (n, s) g =>
      let (k, s) := sweepBucket s g
      (⟨n.reclaimed + k.reclaimed, n.promoted + k.promoted⟩, s)) (n, s)).2 gs := by
  induction gs generalizing n s with
  | nil => exact .nil hs hb hl
  | cons g gs ih =>
    obtain ⟨hlt, hgs⟩ := List.pairwise_cons.1 hgs
    obtain ⟨hg', hst⟩ := hg g (by simp)
    have h := sweeps_sweepBucket hb hg' hs hl hst
    exact h.cons (ih hgs _ h.store h.binned h.listed fun j hj => hg j (by simp [hj])) hlt

/-! ### The whole sweep -/

/-- What the sweep phase does. -/
structure Swept (s s' : Space) (target : Gen) : Prop where
  vacant : ∀ id, s.arena.live? id = none → s'.arena.live? id = none
  elder : ∀ id r, s.arena.live? id = some r → target < r.header.generation →
    ∃ q, s'.arena.live? id = some q ∧ q.core = r.core
  reclaimed : ∀ id r, s.arena.live? id = some r → r.header.generation ≤ target →
    r.fate = .reclaim → s'.arena.live? id = none
  aged : ∀ id r, s.arena.live? id = some r → r.header.generation ≤ target → r.fate ≠ .reclaim →
    ∃ q, s'.arena.live? id = some q ∧ q.core = r.aged.core ∧
      (r.fate = .promote →
        id ∈ (s'.bucket r.header.generation).roots ∨ s'.collector.overflow = true)
  roots : ∀ h id, id ∈ (s.bucket h).roots → id ∈ (s'.bucket h).roots
  overflow : s.collector.overflow = true → s'.collector.overflow = true
  setup : s'.setup = (s.withPhase .sweeping).setup
  unmarked : s'.Unmarked
  store : s'.toStore.Sound
  binned : s'.Binned
  listed : s'.Listed (· < target)

/-- The sweep before it takes the marks off the other generations. -/
def sweepBuckets (s : Space) (target : Gen) : SweepCount × Space :=
  (Gen.upTo target).reverse.foldl
    (fun (n, s) g =>
      let (k, s) := sweepBucket s g
      (⟨n.reclaimed + k.reclaimed, n.promoted + k.promoted⟩, s))
    ((⟨0, 0⟩ : SweepCount), s.withPhase .sweeping)

lemma sweeps_sweepBuckets {s : Space} (hs : s.toStore.Sound) (hb : s.Binned)
    (hl : s.Listed fun _ => False) {target : Gen} (ht : target < Gen.eternal) :
    Sweeps (· < target) (s.withPhase .sweeping) (s.sweepBuckets target).2
      (Gen.upTo target).reverse := by
  refine sweeps_foldl _ ?_ ⟨0, 0⟩ (s := s.withPhase .sweeping) hs ⟨hb.mem, hb.nodup⟩
    ⟨hl.mem, hl.elder, fun g id h => .inr ((hl.live g id h).resolve_left not_false), hl.nodup,
      hl.length_le⟩ fun g hg => ?_
  · revert target
    decide
  · have hle : g ≤ target := by simpa [Gen.mem_upTo] using hg
    exact ⟨lt_of_le_of_lt hle ht, fun h hh => lt_of_lt_of_le hh hle⟩

/-- The sweep before it counts what it did. -/
def uncounted (s : Space) (target : Gen) : Space :=
  (s.sweepBuckets target).2.onBuckets ({ · with marked := false }) (Gen.above target)

section Uncounted

variable (s : Space) (target : Gen)

lemma uncounted_eq : s.uncounted target =
    { (s.sweepBuckets target).2 with arena := (s.uncounted target).arena } :=
  onBuckets_eq _ _ _

lemma bucket_sweep (g : Gen) :
    (s.sweep target).2.bucket g = (s.sweepBuckets target).2.bucket g := by
  change (s.uncounted target).bucket g = _
  rw [uncounted_eq]
  rfl

lemma overflow_sweep : (s.sweep target).2.collector.overflow =
    (s.sweepBuckets target).2.collector.overflow := by
  change (s.uncounted target).collector.overflow = _
  rw [uncounted_eq]

lemma setup_sweep : (s.sweep target).2.setup = (s.sweepBuckets target).2.setup := by
  change (s.uncounted target).setup = _
  rw [uncounted_eq]
  rfl

lemma alike_sweep : (s.sweepBuckets target).2.arena.Alike (s.sweep target).2.arena :=
  alike_onBuckets (fun _ => rfl) _ (s.sweepBuckets target).2

end Uncounted

section Sweep

variable {s : Space} {target : Gen}

lemma live?_sweep (hb : (s.sweepBuckets target).2.Binned) {id : RecordId} {r : Record}
    (hr : (s.sweepBuckets target).2.arena.live? id = some r) : (s.sweep target).2.arena.live? id =
      some (if r.header.generation ∈ Gen.above target then
        { r with header := { r.header with marked := false } } else r) := by
  have hnodup : (Gen.above target).Nodup := (Gen.pairwise_above target).imp fun h => h.ne
  exact live?_onBuckets (f := ({ · with marked := false })) (fun _ => rfl) hnodup hb hr

lemma store_sweep (hs : (s.sweepBuckets target).2.toStore.Sound) :
    (s.sweep target).2.toStore.Sound := by
  have hpools : (s.sweep target).2.pools = (s.sweepBuckets target).2.pools := by
    change (s.uncounted target).pools = _
    rw [uncounted_eq]
  have hstore : (s.sweep target).2.toStore =
      { (s.sweepBuckets target).2.toStore with arena := (s.sweep target).2.arena } :=
    congrArg (Store.mk (s.sweep target).2.arena) hpools
  rw [hstore]
  exact hs.of_sameShape (s.alike_sweep target).shape

variable {stale : Gen → Prop} (hw : Sweeps stale (s.withPhase .sweeping) (s.sweepBuckets target).2
  (Gen.upTo target).reverse)
include hw

lemma listed_sweep : (s.sweep target).2.Listed stale := by
  refine listed_of_rootLinks hw.listed (s.alike_sweep target) (fun id r q hr hq => ?_)
    (fun g => congrArg Bucket.roots (s.bucket_sweep target g))
    (rootCapacity_of_setup (s.setup_sweep target))
  rw [live?_sweep hw.binned hr] at hq
  rw [← Option.some.inj hq]
  split <;> rfl

/-- A record that is still of a collected generation was swept, which took its mark. -/
lemma unmarked_sweep : (s.sweep target).2.Unmarked := by
  intro id q hq
  obtain ⟨p, hp, -⟩ := (s.alike_sweep target).live' hq
  rw [live?_sweep hw.binned hp] at hq
  obtain rfl := Option.some.inj hq
  by_cases hgt : target < p.header.generation
  · simp [Gen.mem_above, hgt]
  · rw [if_neg fun h => hgt (Gen.mem_above.1 h)]
    have hmem {g : Gen} : g ∈ (Gen.upTo target).reverse ↔ g ≤ target := by simp [Gen.mem_upTo]
    rcases hr : s.arena.live? id with _ | r
    · have hnone := hw.vacant id hr
      simp [hnone] at hp
    · by_cases hg : r.header.generation ≤ target
      · by_cases hf : r.fate = .reclaim
        · have hnone := hw.reclaimed id r hr (hmem.2 hg) hf
          simp [hnone] at hp
        · obtain ⟨q, hq, -, hmark, -⟩ := hw.aged id r hr (hmem.2 hg) hf
          rw [hp] at hq
          exact Option.some.inj hq ▸ hmark
      · have hsame := hw.others id r hr fun h => hg (hmem.1 h)
        rw [hp] at hsame
        rw [Option.some.inj hsame] at hgt
        exact absurd (not_le.1 hg) hgt

end Sweep

theorem swept_sweep {s : Space} (hs : s.toStore.Sound) (hb : s.Binned)
    (hl : s.Listed fun _ => False) {target : Gen} (ht : target < Gen.eternal) :
    Swept s (s.sweep target).2 target := by
  have hw := sweeps_sweepBuckets hs hb hl ht
  have halike := s.alike_sweep target
  have hbucket := s.bucket_sweep target
  have hover := s.overflow_sweep target
  have hmem {g : Gen} : g ∈ (Gen.upTo target).reverse ↔ g ≤ target := by simp [Gen.mem_upTo]
  have hnone {id : RecordId} (h : (s.sweepBuckets target).2.arena.live? id = none) :
      (s.sweep target).2.arena.live? id = none := by
    refine Option.eq_none_iff_forall_ne_some.2 fun q hq => ?_
    obtain ⟨r, hr, -⟩ := halike.live' hq
    simp [h] at hr
  refine ⟨fun id h => hnone (hw.vacant id h), fun id r hr hg => ?_,
    fun id r hr hg hf => hnone (hw.reclaimed id r hr (hmem.2 hg) hf), fun id r hr hg hf => ?_,
    fun h id hid => hbucket h ▸ hw.roots h id hid, fun ho => hover.trans (hw.overflow ho),
    (s.setup_sweep target).trans hw.setup, unmarked_sweep hw, store_sweep hw.store, ?_,
    listed_sweep hw⟩
  · have hnot : r.header.generation ∉ (Gen.upTo target).reverse := fun h =>
      absurd (hmem.1 h) (not_le.2 hg)
    exact halike.live (hw.others id r hr hnot)
  · obtain ⟨p, hp, hcore, -, hnew⟩ := hw.aged id r hr (hmem.2 hg) hf
    obtain ⟨q, hq, e⟩ := halike.live hp
    refine ⟨q, hq, e.trans hcore, fun hf => ?_⟩
    rw [hbucket, hover]
    exact hnew hf
  · exact hw.binned.of_alike halike fun g => congrArg Bucket.arrivals (hbucket g)

end Space

end ScriptHeap
