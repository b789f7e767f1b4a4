import Mathlib
import ScriptHeap.Proofs.Aging

/-!
Collections on demand. What makes a collection due is the number of allocations since the last
request, but what a smart request looks at is the number of records that have come into each
generation since it was last swept. The first number never gets ahead of the second, as long as
nothing is allocated into the eternal generation, which no pass collects. So a collection that is
due finds something to do. And if a smart request stops before it has to, then because too little
has come in since.
-/

namespace ScriptHeap

open Heap Space

/-- What decides when a collection is due, the switch of the collector excepted. -/
structure Pacing where
  required : Bool
  workDone : Nat
  workQuota : Nat
  allocGeneration : Gen
deriving DecidableEq, Repr

/-- The pacing once a request has been made. -/
def Pacing.rested (p : Pacing) : Pacing := { p with required := false, workDone := 0 }

namespace Gen

/-- Every generation but the eternal one can be collected. -/
lemma le_old {g : Gen} (hg : g ≠ eternal) : g ≤ old := by
  revert g
  decide

lemma collectable {g : Gen} (hg : g ≤ old) : g = new ∨ g = young ∨ g = old := by
  revert g
  decide

end Gen

namespace Space

variable {s t : Space}

def pacing (s : Space) : Pacing :=
  ⟨s.collector.required, s.collector.workDone, s.collector.workQuota, s.collector.allocGeneration⟩

/-- The records born or promoted into the collectable generations since these were swept. -/
def newcomers (s : Space) : Nat :=
  (s.bucket .new).newlyCreated + (s.bucket .young).newlyCreated + (s.bucket .old).newlyCreated

lemma pacing_of_setup (h : t.setup = s.setup) : t.pacing = s.pacing :=
  congrArg (fun s => s.pacing) h

lemma newcomers_of_buckets (h : t.collector.buckets = s.collector.buckets) :
    t.newcomers = s.newcomers := by
  unfold newcomers bucket Collector.bucket
  rw [h]

lemma newcomers_of_bare (h : t.bare = s.bare) : t.newcomers = s.newcomers := by
  have hbare (s : Space) : s.bare.newcomers = s.newcomers := by
    unfold newcomers
    simp only [bucket_bare]
  rw [← hbare, h, hbare]

/-- A new record is a newcomer unless it is eternal. -/
lemma newcomers_allocate [Environment] (hg : s.collector.allocGeneration ≤ Gen.old)
    (info : TypeInfo) (extra : Nat) (body : Body) :
    (s.allocate info extra body).2.newcomers = s.newcomers + 1 := by
  unfold newcomers
  simp only [bucket_allocate]
  rcases Gen.collectable hg with h | h | h <;> rw [h] <;>
    simp [Gen.new, Gen.young, Gen.old, Bucket.link] <;> omega

/-! ### Passes -/

/-- A pass has no bearing on what makes a collection due. -/
lemma pacing_finish [Environment] {p : Pass} (hs : p.start.Sound) (ht : p.target ≤ Gen.old)
    (roots : List RecordId) : (p.finish roots).pacing = p.start.pacing := by
  have hmark : (p.marked roots).pacing = p.start.pacing := by
    unfold pacing
    rw [Pass.marked, collector_mark (hs.emit _)]
    rfl
  have hsweep : (p.swept roots).pacing = (p.marked roots).pacing :=
    (pacing_of_setup (swept_swept hs ht roots).setup).trans rfl
  obtain ⟨pendingFull, hbare⟩ := (tidied_tidied hs ht roots).bare
  have htidy : (p.tidied roots).pacing = (p.swept roots).pacing :=
    (pacing_of_setup (setup_of_bare hbare)).trans rfl
  obtain ⟨stats, -, hfinish⟩ := finish_eq p roots
  rw [hfinish]
  exact htidy.trans (hsweep.trans hmark)

lemma PassChain.pacing [Environment] {roots : List RecordId} {ps : List Pass}
    (h : PassChain roots s ps t) (hs : s.Sound) : t.pacing = s.pacing := by
  induction h with
  | nil => rfl
  | cons ht _ ih => exact (ih (passes_finish hs ht _).sound).trans (pacing_finish hs ht _)

/-- **A smart pass has a target** unless too few newcomers wait. -/
lemma smartTarget?_eq_none : s.smartTarget? = none ↔ s.newcomers < s.collector.workQuota := by
  unfold smartTarget? newcomers
  dsimp only
  split
  · next h => exact iff_of_true rfl h
  · next h => exact iff_of_false (Option.some_ne_none _) h

section Request

variable [Environment] (roots : List RecordId)

lemma length_smartPassList_le (n : Nat) (s : Space) : (smartPassList roots n s).length ≤ n := by
  induction n generalizing s with
  | zero => exact le_rfl
  | succ n ih =>
    unfold smartPassList
    split
    · exact Nat.zero_le _
    · exact Nat.succ_le_succ (ih _)

/-- A smart request that stops before it has to leaves too few newcomers for another pass. -/
lemma settled_smartPasses (n : Nat) (info : CollectInfo) (s : Space)
    (hlt : (smartPassList roots n s).length < n) :
    (smartPasses roots n info s).2.smartTarget? = none := by
  induction n generalizing info s with
  | zero => exact absurd hlt (Nat.not_lt_zero _)
  | succ n ih =>
    rcases ht : s.smartTarget? with _ | target
    · simp only [smartPasses, ht]
    · simp only [smartPassList, ht, List.length_cons] at hlt
      simp only [smartPasses, ht]
      exact ih _ _ (Nat.lt_of_succ_lt_succ hlt)

lemma length_passList_le (mode : Mode) (s : Space) :
    (s.passList mode roots).length ≤ smartPassLimit := by
  have hone : 1 ≤ smartPassLimit := by decide
  unfold passList
  split
  · exact Nat.zero_le _
  · split
    · exact hone
    · cases mode with
      | smart => exact length_smartPassList_le roots smartPassLimit _
      | _ => exact hone

variable (hon : s.collector.enabled = true) (hidle : s.collector.phase = .idle)
include hon hidle

/-- If enough newcomers wait a request makes a pass, whatever its mode. -/
lemma passList_pos (hwork : s.collector.workQuota ≤ s.newcomers) (mode : Mode) :
    1 ≤ (s.passList mode roots).length := by
  have htarget : s.awake.smartTarget? ≠ none := fun hnone =>
    absurd (smartTarget?_eq_none.1 hnone) (Nat.not_lt.2 hwork)
  unfold passList
  rw [if_neg (by simp [hon, hidle])]
  split
  · exact le_rfl
  · cases mode with
    | smart =>
      obtain ⟨target, ht⟩ := Option.ne_none_iff_exists'.1 htarget
      simp only [smartPassLimit, smartPassList, ht, List.length_cons]
      exact Nat.succ_le_succ (Nat.zero_le _)
    | _ => exact le_rfl

/-- A smart request that was not turned into a full one. -/
lemma not_needsRepair_of_mode (hmode : (s.collect .smart roots).1.mode = .smart) :
    s.needsRepair = false := by
  by_contra hrepair
  have hrepair' : s.awake.needsRepair = true := eq_true_of_ne_false hrepair
  rw [collect_of_enabled roots hon hidle, runPasses, if_pos hrepair'] at hmode
  cases hmode

/-- **After fewer passes than it may make, a smart request leaves fewer newcomers than the
quota.** -/
lemma settled_collect (hs : s.Sound) (hmode : (s.collect .smart roots).1.mode = .smart)
    (hlt : (s.collect .smart roots).1.passes < smartPassLimit) :
    (s.collect .smart roots).2.newcomers < s.collector.workQuota := by
  have hrepair : s.needsRepair = false := not_needsRepair_of_mode roots hon hidle hmode
  have hruns : s.awake.runPasses .smart roots =
      smartPasses roots smartPassLimit (.start .smart) s.awake := by
    rw [runPasses, if_neg (Bool.eq_false_iff.1 hrepair : ¬ s.awake.needsRepair = true)]
  rw [collect_of_enabled roots hon hidle, hruns] at hlt ⊢
  obtain ⟨hchain, hreports⟩ := passChain_smartPasses roots smartPassLimit (.start .smart) s.awake
  have hcount := hreports.passes.symm.trans_lt hlt
  have hsettled := settled_smartPasses roots smartPassLimit (.start .smart) s.awake
    ((Nat.zero_add _).symm.trans_lt hcount)
  have hquota := congrArg Pacing.workQuota (hchain.pacing hs.awake)
  exact (smartTarget?_eq_none.1 hsettled).trans_eq hquota

end Request

/-! ### Work and newcomers -/

/-- The work that is counted has come in, and a collection is due for enough of it only. -/
structure Paced (s : Space) (quota : Nat) : Prop where
  quota : s.pacing.workQuota = quota
  work : s.pacing.workDone ≤ s.newcomers
  due : s.pacing.required = true → s.pacing.workQuota ≤ s.pacing.workDone
  collectable : s.pacing.allocGeneration ≤ Gen.old

namespace Paced

variable {quota : Nat}

lemma congr (h : s.Paced quota) (hpacing : t.pacing = s.pacing)
    (hnew : t.newcomers = s.newcomers) : t.Paced quota := by
  refine ⟨?_, ?_, ?_, ?_⟩ <;> rw [hpacing]
  · exact h.quota
  · rw [hnew]
    exact h.work
  · exact h.due
  · exact h.collectable

lemma of_bare (h : s.Paced quota) (hbare : t.bare = s.bare) : t.Paced quota :=
  h.congr (pacing_of_setup (setup_of_bare hbare)) (newcomers_of_bare hbare)

/-- Once a request has been made no work is counted and nothing is due. -/
lemma rested (h : s.Paced quota) (hpacing : t.pacing = s.pacing.rested) : t.Paced quota := by
  refine ⟨?_, ?_, ?_, ?_⟩ <;> rw [hpacing]
  · exact h.quota
  · exact Nat.zero_le _
  · exact fun hdue => Bool.noConfusion hdue
  · exact h.collectable

lemma allocate [Environment] (h : s.Paced quota) (info : TypeInfo) (extra : Nat) (body : Body) :
    (s.allocate info extra body).2.Paced quota := by
  have hwork := h.work
  refine ⟨h.quota, ?_, fun hdue => ?_, h.collectable⟩
  · rw [newcomers_allocate h.collectable]
    exact Nat.succ_le_succ hwork
  · have hcause : (s.collector.required || (s.collector.enabled &&
        decide (s.collector.workQuota ≤ s.collector.workDone + 1))) = true := hdue
    rw [Bool.or_eq_true, Bool.and_eq_true, decide_eq_true_eq] at hcause
    rcases hcause with hbefore | ⟨-, hnow⟩
    · exact (h.due hbefore).trans (Nat.le_succ _)
    · exact hnow

end Paced

variable [Environment] {strict : Prop} {may : Command → Prop} {limit quota : Nat} {d d' : Draft}

/-- **No change counts work that has not come in**, as long as it is no collection and does not
change where records go. -/
theorem Change.paced (h : Change strict may limit d d') (hcollect : ¬ may .collect)
    (hinto : ¬ may .allocateInto) (hp : d.space.Paced quota) : d'.space.Paced quota := by
  cases h with
  | allocate extra body _ _ _ _ _ _ _ => exact hp.allocate _ extra body
  | note _ => exact hp.of_bare (notes_recordReference _ _ _).relinked.bare
  | noteAll _ => exact hp.of_bare (notes_recordReferences _ _).relinked.bare
  | collect _ _ hc _ => exact absurd hc hcollect
  | allocateInto _ hg => exact absurd hg hinto
  | _ => exact hp.congr rfl rfl

lemma Changes.paced (h : Changes strict may limit d d') (hcollect : ¬ may .collect)
    (hinto : ¬ may .allocateInto) (hp : d.space.Paced quota) : d'.space.Paced quota := by
  induction h with
  | refl => exact hp
  | tail _ hstep ih => exact hstep.paced hcollect hinto ih

end Space

namespace Heap

/-- The effective quota: a quota of zero counts as one. -/
def quota (o : HeapOptions) : Nat := max o.workQuota 1

variable {h : Heap}

/-! ### Operations -/

/-- The pools have no bearing on the pacing. -/
lemma pacing_relieve (h : Heap) : h.relieve.pacing = h.pacing := by
  unfold relieve
  split <;> rfl

section Operations

variable [Environment] {op : Operation}

lemma newcomers_request (hs : h.toSpace.Sound) {mode : Mode} (hreq : h.request? op = some mode) :
    (apply op h).2.newcomers = (h.toSpace.collect mode h.roots).2.newcomers :=
  newcomers_of_buckets (rests_request hs hreq).buckets

/-- **A request starts to count anew**, unless the collector is switched off. -/
lemma pacing_request (hs : h.toSpace.Sound) {mode : Mode} (hreq : h.request? op = some mode) :
    (apply op h).2.pacing = if h.collector.enabled then h.pacing.rested else h.pacing := by
  obtain ⟨⟨journal, hspace⟩, -⟩ := apply_request hreq
  have hafter : (apply op h).2.pacing = (h.toSpace.collect mode h.roots).2.pacing := by
    rw [hspace]
    exact pacing_relieve _
  rw [hafter]
  split
  · next hon =>
    rw [collect_of_enabled h.roots hon hs.idle]
    exact (chain_runPasses h.roots hon hs.idle mode).1.pacing hs.awake
  · next hoff => rw [collect_of_disabled h.roots hoff]

lemma paced_request {quota : Nat} (hs : h.toSpace.Sound) (hp : h.toSpace.Paced quota) {mode : Mode}
    (hreq : h.request? op = some mode) : (apply op h).2.toSpace.Paced quota := by
  have hpacing := pacing_request hs hreq
  split at hpacing
  · exact hp.rested hpacing
  · next hoff =>
    refine hp.congr hpacing ((newcomers_request hs hreq).trans ?_)
    rw [collect_of_disabled h.roots hoff]

/-- **An operation counts no work that has not come in**, unless it makes the heap allocate into
the eternal generation. -/
theorem paced_apply {quota : Nat} (hs : h.toSpace.Sound) (hp : h.toSpace.Paced quota)
    (hop : op ≠ .setAllocGeneration .eternal) : (apply op h).2.toSpace.Paced quota := by
  rcases hreq : h.request? op with _ | mode
  · by_cases hinto : h.Asks op .allocateInto
    · obtain ⟨g, rfl⟩ := hinto
      have hne : g ≠ Gen.eternal := fun e => hop (congrArg Operation.setAllocGeneration e)
      exact ⟨hp.quota, hp.work, hp.due, Gen.le_old hne⟩
    · obtain ⟨P, hP, -⟩ := evolves_apply hs op False.elim
      exact hP.changes.paced (not_asks_collect hreq) hinto hp
  · exact paced_request hs hp hreq

theorem paced_run {quota : Nat} (ops : List Operation) (hs : h.toSpace.Sound)
    (hp : h.toSpace.Paced quota) (hops : ∀ op ∈ ops, op ≠ .setAllocGeneration .eternal) :
    (run h ops).toSpace.Paced quota := by
  induction ops generalizing h with
  | nil => exact hp
  | cons op ops ih =>
    obtain ⟨hop, hops⟩ := List.forall_mem_cons.1 hops
    exact ih (sound_apply hs op) (paced_apply hs hp hop) hops

/-- The global object is eternal, and it does not count as work. -/
lemma paced_fresh (o : HeapOptions) : (fresh o).toSpace.Paced (quota o) :=
  ⟨rfl, Nat.zero_le _, fun hdue => Bool.noConfusion hdue, (by decide : Gen.new ≤ Gen.old)⟩

/-- **Demand.** In any state of a run that never allocates into the eternal generation: if a
collection is due, on demand, and the collector is switched on, then a safepoint makes at least one
pass and at most four, tells how many if it succeeds, and nothing is due afterwards. And in any such
state a smart request that is not turned into a full one and makes fewer than four passes leaves
fewer newcomers in the collectable generations than the effective quota. -/
theorem demand_run (o : HeapOptions) (ops : List Operation)
    (hops : ∀ op ∈ ops, op ≠ .setAllocGeneration .eternal) :
    let h := run (fresh o) ops
    let info := (h.toSpace.collect .smart h.roots).1
    (h.collector.required = true → o.demandCollect = true → h.collector.enabled = true →
      (∀ answer, (apply .collectIfRequired h).1 = .ok answer → answer = .info (some info)) ∧
      info.passes = (h.passes .collectIfRequired).length ∧
      1 ≤ info.passes ∧ info.passes ≤ 4 ∧
      (apply .collectIfRequired h).2.collector.required = false) ∧
    ∀ op, h.request? op = some .smart → h.collector.enabled = true → info.mode = .smart →
      info.passes < 4 → (apply op h).2.newcomers < max o.workQuota 1 := by
  intro h info
  have hs : h.toSpace.Sound := (sound_typed_run o ops).1
  have hoptions : h.options = o := (turnover_run ops (steady_fresh o).1.toSound).1
  have hp : h.toSpace.Paced (quota o) :=
    paced_run ops (steady_fresh o).1.toSound (paced_fresh o) hops
  refine ⟨fun hdue hdemand hon => ?_, fun op hreq hon hmode hlt => ?_⟩
  · have hreq : h.request? .collectIfRequired = some .smart := by
      rw [request?, hdue, hoptions, hdemand]
      rfl
    have hpasses : h.passes .collectIfRequired = h.toSpace.passList .smart h.roots := by
      unfold passes
      rw [hreq]
    obtain ⟨start, hreports⟩ := (chain_collect h.roots hs.idle .smart).2
    have hcount : info.passes = (h.toSpace.passList .smart h.roots).length :=
      hreports.passes.trans (Nat.zero_add _)
    have hpacing := pacing_request hs hreq
    rw [if_pos hon] at hpacing
    refine ⟨(apply_request hreq).2, hcount.trans (congrArg _ hpasses.symm), ?_, ?_,
      congrArg Pacing.required hpacing⟩
    · rw [hcount]
      exact passList_pos h.roots hon hs.idle ((hp.due hdue).trans hp.work) .smart
    · rw [hcount]
      exact length_passList_le h.roots .smart h.toSpace
  · rw [newcomers_request hs hreq]
    exact (settled_collect h.roots hon hs.idle hs hmode hlt).trans_eq hp.quota

end Operations

/-- A quota of two. -/
def eager : HeapOptions := { HeapOptions.tuned .balanced with workQuota := 2 }

/-- Three objects in a frame survive a quick collection. Two records come while the collector is
switched off, and a safepoint does nothing. Once it is switched on again, the next record makes a
collection due. -/
def eagerRun : List Operation :=
  [.createPlainObject, .createPlainObject, .createPlainObject,
    .pushFrame ⟨none, none, [some 1, some 2, some 3], none⟩, .collect .quick,
    .enableCollector false, .createBoolean true, .createBoolean false, .collectIfRequired,
    .enableCollector true, .createBoolean true]

/-- The first pass promotes the three objects. That is more than the quota, so a second pass
follows. -/
theorem demand_after_promotion :
    let h := run (fresh eager) eagerRun
    let info := (h.toSpace.collect .smart h.roots).1
    h.collector.required = true ∧ h.collector.enabled = true ∧
      info.passes = 2 ∧ info.promoted = 3 ∧ (h.passes .collectIfRequired).length = 2 ∧
      (apply .collectIfRequired h).2.collector.required = false ∧
      (apply .collectIfRequired h).2.newcomers < 2 := by
  have hops : ∀ op ∈ eagerRun, op ≠ .setAllocGeneration .eternal := by simp [eagerRun]
  have hdue : (run (fresh eager) eagerRun).collector.required = true := by cbv
  have hon : (run (fresh eager) eagerRun).collector.enabled = true := by cbv
  have hinfo : ((run (fresh eager) eagerRun).toSpace.collect .smart
      (run (fresh eager) eagerRun).roots).1 = ⟨.smart, some .young, 2, 6, 3, 3⟩ := by cbv
  have hreq : (run (fresh eager) eagerRun).request? .collectIfRequired = some .smart := by cbv
  obtain ⟨hdemand, hsettles⟩ := demand_run eager eagerRun hops
  obtain ⟨-, hpasses, -, -, hcleared⟩ := hdemand hdue rfl hon
  rw [hinfo] at hsettles hpasses
  intro h info
  have hinfo : info = ⟨.smart, some .young, 2, 6, 3, 3⟩ := hinfo
  rw [hinfo]
  exact ⟨hdue, hon, rfl, rfl, hpasses.symm, hcleared, hsettles _ hreq hon rfl (by decide)⟩

end Heap

end ScriptHeap
