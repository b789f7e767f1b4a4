import ScriptHeap.Proofs.PassChain

/-!
Deaths. The sweeps of a pass reclaim records one after the other, and so do the passes of a request.
Whatever happens in between, the records that die are those that were live before and are not live
afterwards, each dies once, and what is known of a record before tells what its finalizer leaves
behind.
-/

namespace ScriptHeap

/-- What a space tells of its past: the types, what finalizers left behind, and how many records the
sweeps of each generation have reclaimed, taken together. -/
structure Tally where
  types : TypeRegistry
  finalized : List String
  swept : Nat

/-- One generation more or less counts as much in the sum over all of them. -/
lemma Gen.sum_bump (f : Gen → Nat) (g : Gen) (n : Nat) :
    (all.map fun h => if h = g then f h + n else f h).sum = (all.map f).sum + n := by
  have hg : g = new ∨ g = young ∨ g = old ∨ g = eternal := by
    revert g
    decide
  rcases hg with rfl | rfl | rfl | rfl <;>
    simp [all, new, young, old, eternal] <;> omega

namespace Space

def tally (s : Space) : Tally where
  types := s.types
  finalized := s.finalized
  swept := (Gen.all.map fun g => (s.bucket g).totalReclaimed).sum

lemma tally_bare (s : Space) : s.bare.tally = s.tally := by
  unfold tally
  simp only [bucket_bare]
  rfl

lemma tally_of_bare {s t : Space} (h : t.bare = s.bare) : t.tally = s.tally := by
  rw [← tally_bare, h, tally_bare]

lemma types_of_setup {s t : Space} (h : t.setup = s.setup) : t.types = s.types :=
  congrArg (fun s => s.types) h

lemma epitaph?_congr {s t : Space} {q r : Record} (htypes : t.types = s.types)
    (h : q.lasting = r.lasting) : t.epitaph? q = s.epitaph? r := by
  unfold epitaph?
  rw [htypes, Record.type_of_lasting h, Record.body_of_lasting h]

/-! ### Records that were reclaimed -/

/-- Some records were reclaimed, in this order, and the others stayed what they were. -/
structure Reaps (s t : Space) (ids : List RecordId) : Prop where
  nodup : ids.Nodup
  mem : ∀ id, id ∈ ids ↔ (∃ r, s.arena.live? id = some r) ∧ t.arena.live? id = none
  lasting : ∀ id q, t.arena.live? id = some q →
    ∃ r, s.arena.live? id = some r ∧ q.lasting = r.lasting
  types : t.types = s.types
  finalized : t.finalized =
    s.finalized ++ ids.filterMap fun id => (s.arena.live? id).bind s.epitaph?
  swept : t.tally.swept = s.tally.swept + ids.length

namespace Reaps

variable {s t u : Space} {ids ids' : List RecordId}

lemma of_live? (hlive : ∀ id, (t.arena.live? id).map Record.lasting =
    (s.arena.live? id).map Record.lasting) (htally : t.tally = s.tally) : Reaps s t [] := by
  refine ⟨List.nodup_nil, fun id => ?_, fun id q hq => ?_, congrArg Tally.types htally, ?_,
    congrArg Tally.swept htally⟩
  · have hsame := hlive id
    rcases hs : s.arena.live? id with _ | r <;> rcases ht : t.arena.live? id with _ | q <;>
      simp_all
  · have hsame := hlive id
    rw [hq] at hsame
    obtain ⟨r, hr, e⟩ := Option.map_eq_some_iff.1 hsame.symm
    exact ⟨r, hr, e.symm⟩
  · rw [List.filterMap_nil, List.append_nil]
    exact congrArg Tally.finalized htally

lemma of_alike (ha : s.arena.Alike t.arena) (htally : t.tally = s.tally) : Reaps s t [] :=
  of_live? (ha.live?_map_of Record.lasting_of_core) htally

/-- **What dies first is not there to die again**, and what dies later is what it was before. -/
theorem trans (h : Reaps s t ids) (k : Reaps t u ids') : Reaps s u (ids ++ ids') := by
  have hdead {id : RecordId} (hid : id ∈ ids) : t.arena.live? id = none := ((h.mem id).1 hid).2
  have hlive {id : RecordId} (hid : id ∈ ids') : ∃ q, t.arena.live? id = some q :=
    ((k.mem id).1 hid).1
  refine ⟨?_, fun id => ?_, fun id q hq => ?_, k.types.trans h.types, ?_, ?_⟩
  · refine List.nodup_append.2 ⟨h.nodup, k.nodup, ?_⟩
    rintro id hid _ hid' rfl
    obtain ⟨q, hq⟩ := hlive hid'
    rw [hdead hid] at hq
    cases hq
  · rw [List.mem_append, h.mem, k.mem]
    constructor
    · rintro (⟨hbefore, hgone⟩ | ⟨⟨q, hq⟩, hgone⟩)
      · refine ⟨hbefore, Option.eq_none_iff_forall_ne_some.2 fun q hq => ?_⟩
        obtain ⟨r, hr, -⟩ := k.lasting id q hq
        rw [hgone] at hr
        cases hr
      · obtain ⟨r, hr, -⟩ := h.lasting id q hq
        exact ⟨⟨r, hr⟩, hgone⟩
    · rintro ⟨hbefore, hgone⟩
      rcases hq : t.arena.live? id with _ | q
      · exact .inl ⟨hbefore, rfl⟩
      · exact .inr ⟨⟨q, rfl⟩, hgone⟩
  · obtain ⟨r, hr, e⟩ := k.lasting id q hq
    obtain ⟨p, hp, e'⟩ := h.lasting id r hr
    exact ⟨p, hp, e.trans e'⟩
  · have hsame : ids'.filterMap (fun id => (t.arena.live? id).bind t.epitaph?) =
        ids'.filterMap fun id => (s.arena.live? id).bind s.epitaph? := by
      refine List.filterMap_congr fun id hid => ?_
      obtain ⟨q, hq⟩ := hlive hid
      obtain ⟨r, hr, e⟩ := h.lasting id q hq
      rw [hq, hr, Option.bind_some, Option.bind_some, epitaph?_congr h.types e]
    rw [k.finalized, h.finalized, hsame, List.filterMap_append, List.append_assoc]
  · rw [k.swept, h.swept, List.length_append, Nat.add_assoc]

/-- Nothing dies after the others. -/
lemma after (h : Reaps s t ids) (k : Reaps t u []) : Reaps s u ids := by
  have hall := h.trans k
  rwa [List.append_nil] at hall

end Reaps

/-! ### One bucket -/

lemma tally_promote (s : Space) (g : Gen) (id : RecordId) :
    (s.promote g id).tally = s.tally := by
  let s1 : Space := (s.emit (.promoted id g)).updateBucket g.next (·.link id)
  have h1 : s1.tally = s.tally := by
    have hb (h : Gen) : (s1.bucket h).totalReclaimed = (s.bucket h).totalReclaimed := by
      rw [bucket_updateBucket]
      split
      · next e => rw [e]; rfl
      · rfl
    unfold tally
    simp only [hb]
    rfl
  exact (tally_of_bare (lists_addRoot s1 g id).relinked.bare).trans h1

lemma tally_promoteAll (ids : List RecordId) (s : Space) (g : Gen) :
    (ids.foldl (promote · g) s).tally = s.tally := by
  induction ids generalizing s with
  | nil => rfl
  | cons id ids ih => exact (ih (s.promote g id)).trans (tally_promote s g id)

variable [Environment]

/-- Every record that is reclaimed is finalized first. -/
lemma finalized_reclaimAll (ids : List RecordId) (hn : ids.Nodup) (s : Space) :
    (ids.foldl reclaim s).finalized =
      s.finalized ++ ids.filterMap fun id => (s.arena.live? id).bind s.epitaph? := by
  induction ids generalizing s with
  | nil => exact (List.append_nil _).symm
  | cons id ids ih =>
    obtain ⟨hnot, hn⟩ := List.nodup_cons.1 hn
    have hothers : ids.filterMap (fun j => ((s.reclaim id).arena.live? j).bind
        (s.reclaim id).epitaph?) = ids.filterMap fun j => (s.arena.live? j).bind s.epitaph? := by
      refine List.filterMap_congr fun j hj => ?_
      have hne : j ≠ id := fun e => hnot (e ▸ hj)
      have hlive : (s.reclaim id).arena.live? j = s.arena.live? j :=
        (Store.live?_reclaim s.toStore id j).trans (if_neg hne)
      rw [hlive]
      rfl
    have hfirst : (s.reclaim id).finalized =
        s.finalized ++ ((s.arena.live? id).bind s.epitaph?).toList := rfl
    rw [List.foldl_cons, ih hn, hothers, hfirst, List.append_assoc]
    rcases he : (s.arena.live? id).bind s.epitaph? with _ | tag <;> simp [he]

section Bucket

variable {s : Space} (hb : s.Binned) (g : Gen)

include hb in
lemma finalized_settled : (s.settled g).finalized =
    s.finalized ++ (s.fated g .reclaim).filterMap fun id =>
      (s.arena.live? id).bind s.epitaph? := by
  let s1 := s.modifyHeaders (s.fated g .keep ++ s.fated g .promote) (·.aged g)
  have hdead : (s.fated g .reclaim).filterMap (fun id => (s1.arena.live? id).bind s1.epitaph?) =
      (s.fated g .reclaim).filterMap fun id => (s.arena.live? id).bind s.epitaph? := by
    refine List.filterMap_congr fun id hid => ?_
    obtain ⟨r, hr, -, hf⟩ := (mem_fated hb).1 hid
    have hnot : id ∉ s.fated g .keep ++ s.fated g .promote := fun hthrough => by
      obtain ⟨r', hr', -, hf'⟩ := (mem_through hb g).1 hthrough
      rw [hr] at hr'
      exact hf' (Option.some.inj hr' ▸ hf)
    have hlive : s1.arena.live? id = s.arena.live? id :=
      (Arena.live?_modifyHeaders s.arena _ (nodup_through hb g) id).trans (if_neg hnot)
    rw [hlive]
    rfl
  exact (finalized_reclaimAll _ (nodup_fated hb g _) s1).trans (congrArg (s.finalized ++ ·) hdead)

lemma swept_settled (s : Space) (g : Gen) :
    (s.settled g).tally.swept = s.tally.swept + (s.fated g .reclaim).length := by
  have hbump := Gen.sum_bump (fun h => (s.bucket h).totalReclaimed) g (s.fated g .reclaim).length
  refine Eq.trans ?_ hbump
  unfold tally
  refine congrArg List.sum (List.map_congr_left fun h _ => ?_)
  rw [bucket_settled]
  split
  · next e => rw [e]; rfl
  · rfl

include hb in
/-- **The sweep of a bucket reclaims the records that meet this fate.** -/
theorem reaps_sweepBucket {stale : Gen → Prop} (hg : g < Gen.eternal) (hs : s.toStore.Sound)
    (hl : s.Listed stale) (hst : ∀ h < g, stale h) :
    Reaps s (s.sweepBucket g).2 (s.fated g .reclaim) := by
  have hw := sweeps_sweepBucket hb hg hs hl hst
  have htally : (s.sweepBucket g).2.tally = (s.settled g).tally := by
    rw [sweepBucket_eq]
    exact tally_promoteAll _ _ _
  refine ⟨nodup_fated hb g _, fun id => ?_, fun id q hq => ?_, types_of_setup hw.setup, ?_, ?_⟩
  · rw [mem_fated hb]
    constructor
    · rintro ⟨r, hr, hgen, hf⟩
      exact ⟨⟨r, hr⟩, hw.reclaimed id r hr (List.mem_singleton.2 hgen) hf⟩
    · rintro ⟨⟨r, hr⟩, hgone⟩
      refine ⟨r, hr, ?_⟩
      by_contra hnot
      have hlive : ∃ q, (s.sweepBucket g).2.arena.live? id = some q := by
        by_cases hgen : r.header.generation = g
        · have hf : r.fate ≠ .reclaim := fun hf => hnot ⟨hgen, hf⟩
          obtain ⟨q, hq, -⟩ := hw.aged id r hr (List.mem_singleton.2 hgen) hf
          exact ⟨q, hq⟩
        · exact ⟨r, hw.others id r hr fun h => hgen (List.mem_singleton.1 h)⟩
      obtain ⟨q, hq⟩ := hlive
      rw [hgone] at hq
      cases hq
  · rcases hr : s.arena.live? id with _ | r
    · rw [hw.vacant id hr] at hq
      cases hq
    · refine ⟨r, rfl, ?_⟩
      by_cases hgen : r.header.generation ∈ [g]
      · have hf : r.fate ≠ .reclaim := fun hf => by
          rw [hw.reclaimed id r hr hgen hf] at hq
          cases hq
        obtain ⟨p, hp, hcore, -⟩ := hw.aged id r hr hgen hf
        obtain rfl := Option.some.inj (hq.symm.trans hp)
        exact (Record.lasting_of_core hcore).trans r.lasting_aged
      · rw [hw.others id r hr hgen] at hq
        rw [Option.some.inj hq]
  · exact (congrArg Tally.finalized htally).trans (finalized_settled hb g)
  · exact (congrArg Tally.swept htally).trans (swept_settled s g)

end Bucket

/-! ### Sweeps -/

/-- The records that the sweeps of some buckets reclaim, one after the other. -/
def reaped : List Gen → Space → List RecordId
  | [], _ => []
  | g :: gs, s => s.fated g .reclaim ++ reaped gs (s.sweepBucket g).2

lemma reaps_foldl {stale : Gen → Prop} (gs : List Gen) (n : SweepCount) {s : Space}
    (hs : s.toStore.Sound) (hb : s.Binned) (hl : s.Listed stale)
    (hg : ∀ g ∈ gs, g < Gen.eternal ∧ ∀ h < g, stale h) :
    let after := gs.foldl (fun (n, s) g =>
      let (k, s) := sweepBucket s g
      (⟨n.reclaimed + k.reclaimed, n.promoted + k.promoted⟩, s)) (n, s)
    Reaps s after.2 (reaped gs s) ∧ after.1.reclaimed = n.reclaimed + (reaped gs s).length := by
  induction gs generalizing n s with
  | nil => exact ⟨.of_alike (.refl _) rfl, rfl⟩
  | cons g gs ih =>
    obtain ⟨hlt, hst⟩ := hg g List.mem_cons_self
    have hw := sweeps_sweepBucket hb hlt hs hl hst
    have hfirst := reaps_sweepBucket hb g hlt hs hl hst
    obtain ⟨hrest, hcount⟩ := ih ⟨n.reclaimed + (s.sweepBucket g).1.reclaimed,
      n.promoted + (s.sweepBucket g).1.promoted⟩ hw.store hw.binned hw.listed
      fun j hj => hg j (List.mem_cons_of_mem _ hj)
    refine ⟨hfirst.trans hrest, hcount.trans ?_⟩
    rw [reaped, List.length_append, ← Nat.add_assoc]
    rfl

/-- The records that a sweep of the generations up to `target` reclaims, in this order. -/
def deaths (s : Space) (target : Gen) : List RecordId :=
  reaped (Gen.upTo target).reverse (s.withPhase .sweeping)

/-- **What a sweep reclaims.** -/
theorem reaps_sweep {s : Space} (hs : s.toStore.Sound) (hb : s.Binned)
    (hl : s.Listed fun _ => False) {target : Gen} (ht : target < Gen.eternal) :
    Reaps s (s.sweep target).2 (s.deaths target) ∧
      (s.sweep target).1.reclaimed = (s.deaths target).length := by
  have hstale : (s.withPhase .sweeping).Listed (· < target) :=
    ⟨hl.mem, hl.elder, fun g id h => .inr ((hl.live g id h).resolve_left not_false), hl.nodup,
      hl.length_le⟩
  obtain ⟨hreaps, hcount⟩ := reaps_foldl (Gen.upTo target).reverse ⟨0, 0⟩
    (s := s.withPhase .sweeping) hs ⟨hb.mem, hb.nodup⟩ hstale fun g hg => by
      have hle : g ≤ target := by simpa [Gen.mem_upTo] using hg
      exact ⟨lt_of_le_of_lt hle ht, fun h hh => lt_of_lt_of_le hh hle⟩
  have hbefore : Reaps s (s.withPhase .sweeping) [] := .of_alike (.refl _) rfl
  have hafter : Reaps (s.sweepBuckets target).2 (s.sweep target).2 [] := by
    refine .of_alike (alike_sweep s target) ?_
    change (s.uncounted target).tally = _
    rw [uncounted_eq]
    rfl
  exact ⟨(hbefore.trans hreaps).after hafter, hcount.trans (Nat.zero_add _)⟩

/-! ### Passes -/

/-- The records that the pass reclaims, in this order. -/
def Pass.deaths (p : Pass) (roots : List RecordId) : List RecordId :=
  (p.marked roots).deaths p.target

section Pass

variable {p : Pass} (hs : p.start.Sound) (ht : p.target ≤ Gen.old) (roots : List RecordId)
include hs ht

/-- **What a pass reclaims**, and that it counts these records. -/
theorem reaps_finish : Reaps p.start (p.finish roots) (p.deaths roots) ∧
    p.reclaimed roots = (p.deaths roots).length := by
  have hs0 := hs.emit (.passStarted p.target p.repair)
  have hmark : Reaps p.start (p.marked roots) [] := by
    refine .of_alike (alike_marked hs roots) ?_
    unfold Pass.marked
    rw [mark_eq _ _ _ _ hs0.worklist]
    rfl
  have hbinned : (p.marked roots).Binned :=
    hs0.binned.of_alike (alike_mark hs0.worklist) fun g =>
      congrArg Bucket.arrivals (bucket_mark hs0 g)
  obtain ⟨hsweep, hcount⟩ := reaps_sweep (store_mark hs0) hbinned (listed_mark hs0)
    (lt_of_le_of_lt ht Gen.old_lt_eternal)
  have htidied := tidied_tidied hs ht roots
  have hupkeep : Reaps (p.swept roots) (p.tidied roots) [] := by
    obtain ⟨pendingFull, hbare⟩ := htidied.bare
    exact .of_alike htidied.alike ((tally_of_bare hbare).trans rfl)
  have hend : Reaps (p.tidied roots) (p.finish roots) [] := by
    obtain ⟨stats, -, hfinish⟩ := finish_eq p roots
    rw [hfinish]
    exact .of_alike (.refl _) rfl
  exact ⟨((hmark.trans hsweep).after hupkeep).after hend, hcount⟩

end Pass

/-- **What the passes of a request reclaim.** -/
theorem PassChain.reaps {roots : List RecordId} {s t : Space} {ps : List Pass}
    (h : PassChain roots s ps t) (hs : s.Sound) :
    Reaps s t (ps.flatMap (·.deaths roots)) ∧
      (ps.map (·.reclaimed roots)).sum = (ps.flatMap (·.deaths roots)).length := by
  induction h with
  | nil => exact ⟨.of_alike (.refl _) rfl, rfl⟩
  | @cons p ps s ht _ ih =>
    obtain ⟨hfirst, hcount⟩ := reaps_finish hs ht roots
    obtain ⟨hrest, hsum⟩ := ih (passes_finish hs ht roots).sound
    refine ⟨?_, ?_⟩
    · rw [List.flatMap_cons]
      exact hfirst.trans hrest
    · rw [List.map_cons, List.sum_cons, hcount, hsum, List.flatMap_cons, List.length_append]

omit [Environment] in
lemma Rests.reaps {s t : Space} (h : Rests s t) : Reaps s t [] := by
  refine .of_live? (fun id => congrArg _ (h.live id)) ?_
  have hbucket (g : Gen) : t.bucket g = s.bucket g := congrArg (fun b => b.get g) h.buckets
  unfold tally
  simp only [hbucket, h.types, h.finalized]

end Space

namespace Heap

open Space

variable [Environment] {h : Heap} {op : Operation}

/-- The records that the operation reclaims, in this order. -/
def deaths (h : Heap) (op : Operation) : List RecordId :=
  (h.passes op).flatMap (·.deaths h.roots)

/-- **What a request reclaims.** -/
theorem reaps_apply (hs : h.toSpace.Sound) {mode : Mode} (hreq : h.request? op = some mode) :
    Reaps h.toSpace (apply op h).2.toSpace (h.deaths op) ∧
      ∀ info, (apply op h).1 = .ok (.info (some info)) →
        info.reclaimed = (h.deaths op).length := by
  obtain ⟨s, t, hchain, hsound, hbefore, hafter, hinfo⟩ := chain_apply hs hreq
  obtain ⟨hreaps, hsum⟩ := hchain.reaps hsound
  refine ⟨(hbefore.reaps.trans hreaps).after hafter.reaps, fun info hok => ?_⟩
  obtain ⟨info', e, -, hcount⟩ := hinfo _ hok
  obtain rfl := Option.some.inj (Answer.info.inj e)
  exact hcount.trans hsum

end Heap

end ScriptHeap
