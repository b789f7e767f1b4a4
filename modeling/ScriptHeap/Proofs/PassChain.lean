import Mathlib
import ScriptHeap.Proofs.Runs

/-!
The passes of a run. A request makes its passes one right after the other, each from the space that
the one before has left, and it counts what they do. Nothing else collects: every other operation
consists of changes that no collection is among. So what becomes of a record in a run can be told
pass by pass.
-/

namespace ScriptHeap

/-- The numbers of live records, of allocations and of reclaimed records. -/
def Stats.census (s : Stats) : Nat × Nat × Nat :=
  (s.allocatedObjects, s.totalAllocated, s.totalReclaimed)

/-- The number of collections of each mode, taken together. -/
def Stats.byMode (s : Stats) : Nat :=
  s.quickCollections + s.smartCollections + s.fullCollections

namespace Space

/-- The space of the pass after its mark phase. -/
def Pass.marked (p : Pass) (roots : List RecordId) : Space :=
  ((p.start.emit (.passStarted p.target p.repair)).mark p.target roots p.repair).2

/-- The number of records that the pass reclaims. -/
def Pass.reclaimed [Environment] (p : Pass) (roots : List RecordId) : Nat :=
  ((p.marked roots).sweep p.target).1.reclaimed

/-- The space of the pass after its sweep. -/
def Pass.swept [Environment] (p : Pass) (roots : List RecordId) : Space :=
  ((p.marked roots).sweep p.target).2

/-- The space of the pass once its root tables are up to date. -/
def Pass.tidied [Environment] (p : Pass) (roots : List RecordId) : Space :=
  (p.swept roots).upkeep p.target p.repair

/-- The space that the pass leaves. -/
def Pass.finish [Environment] (p : Pass) (roots : List RecordId) : Space :=
  (p.start.collectPass p.target roots p.repair (.start .full)).2

/-- Passes over generations that can be collected, each from where the one before has finished. -/
inductive PassChain [Environment] (roots : List RecordId) : Space → List Pass → Space → Prop
  | nil (s : Space) : PassChain roots s [] s
  | cons {p : Pass} {ps : List Pass} {s : Space} : p.target ≤ Gen.old →
    PassChain roots (p.finish roots) ps s → PassChain roots p.start (p :: ps) s

/-- What a request does beside its passes: it counts itself, and it may prune the pools. -/
structure Rests (s t : Space) : Prop where
  live : ∀ id, t.arena.live? id = s.arena.live? id
  types : t.types = s.types
  finalized : t.finalized = s.finalized
  buckets : t.collector.buckets = s.collector.buckets
  census : t.collector.stats.census = s.collector.stats.census
  byMode : t.collector.stats.collections + s.collector.stats.byMode =
    s.collector.stats.collections + t.collector.stats.byMode

/-- What a request counts while it makes its passes. -/
structure Reports [Environment] (roots : List RecordId) (ps : List Pass)
    (before after : CollectInfo) : Prop where
  passes : after.passes = before.passes + ps.length
  reclaimed : after.reclaimed = before.reclaimed + (ps.map (·.reclaimed roots)).sum

/-- The space after a request, of which this is the summary. -/
def concluded (s : Space) (info : CollectInfo) : Space :=
  let s := { s with
    collector := { s.collector with stats := s.collector.stats.countCollection info.mode } }
  s.emit (.collected info s.usedMemory)

namespace Rests

variable {s t u : Space}

lemma refl (s : Space) : Rests s s := ⟨fun _ => rfl, rfl, rfl, rfl, rfl, rfl⟩

lemma trans (h : Rests s t) (k : Rests t u) : Rests s u := by
  refine ⟨fun id => (k.live id).trans (h.live id), k.types.trans h.types,
    k.finalized.trans h.finalized, k.buckets.trans h.buckets, k.census.trans h.census, ?_⟩
  have h1 := h.byMode
  have h2 := k.byMode
  omega

lemma awake (s : Space) : Rests s s.awake := ⟨fun _ => rfl, rfl, rfl, rfl, rfl, rfl⟩

lemma concluded (s : Space) (info : CollectInfo) : Rests s (s.concluded info) := by
  unfold Space.concluded Stats.countCollection
  rcases info.mode with _ | _ | _
  · refine ⟨fun _ => rfl, rfl, rfl, rfl, rfl, ?_⟩
    simp only [emit, Stats.byMode]
    omega
  · refine ⟨fun _ => rfl, rfl, rfl, rfl, rfl, ?_⟩
    simp only [emit, Stats.byMode]
    omega
  · refine ⟨fun _ => rfl, rfl, rfl, rfl, rfl, ?_⟩
    simp only [emit, Stats.byMode]
    omega

lemma journal (s : Space) (journal : List Event) : Rests s { s with journal } :=
  ⟨fun _ => rfl, rfl, rfl, rfl, rfl, rfl⟩

lemma relieve {h : Heap} (hs : h.toSpace.Sound) : Rests h.toSpace h.relieve.toSpace := by
  unfold Heap.relieve
  split
  · exact ⟨fun id => live?_prune hs id, rfl, rfl, rfl, rfl, rfl⟩
  · exact refl _

end Rests

/-! ### One pass -/

lemma finish_eq [Environment] (p : Pass) (roots : List RecordId) : ∃ stats : Stats,
    stats = { (p.tidied roots).collector.stats with totalMarked := stats.totalMarked } ∧
      p.finish roots = { p.tidied roots with
        collector := { (p.tidied roots).collector with phase := .idle, stats } } := ⟨_, rfl, rfl⟩

lemma Sound.emit {s : Space} (hs : s.Sound) (e : Event) : (s.emit e).Sound :=
  Quiet.sound (s := s) ⟨rfl, rfl, rfl, rfl, rfl, rfl, rfl, rfl⟩ hs

lemma Sound.awake {s : Space} (hs : s.Sound) : s.awake.Sound :=
  Quiet.sound (s := s) ⟨rfl, rfl, rfl, rfl, rfl, rfl, rfl, rfl⟩ hs

section Phases

variable [Environment] {p : Pass} (hs : p.start.Sound) (ht : p.target ≤ Gen.old)
  (roots : List RecordId)
include hs

omit [Environment] in
/-- Marking changes the mark and the links of a record. -/
lemma live?_marked {id : RecordId} {r : Record} (hr : p.start.arena.live? id = some r) :
    ∃ marked links, (p.marked roots).arena.live? id = some (r.visited marked links) :=
  have hs0 := hs.emit (.passStarted p.target p.repair)
  live?_mark p.target roots p.repair hs0.unmarked hr hs0.worklist

omit [Environment] in
lemma alike_marked : p.start.arena.Alike (p.marked roots).arena :=
  alike_mark (hs.emit (.passStarted p.target p.repair)).worklist

include ht

lemma swept_swept : Swept (p.marked roots) (p.swept roots) p.target :=
  swept_beforeUpkeep hs (lt_of_le_of_lt ht Gen.old_lt_eternal) roots p.repair

lemma tidied_tidied : Tidied (p.swept roots) (p.tidied roots) p.repair :=
  tidied_upkeep p.repair (swept_swept hs ht roots).binned (swept_swept hs ht roots).listed

lemma passes_finish : Passes p.start (p.finish roots) p.target roots p.repair :=
  passes_collectPass hs (lt_of_le_of_lt ht Gen.old_lt_eternal) roots p.repair _

end Phases

/-! ### The passes of a request -/

section Chain

variable [Environment] {roots : List RecordId} {s t : Space} {ps : List Pass}

lemma PassChain.single {p : Pass} (ht : p.target ≤ Gen.old) :
    PassChain roots p.start [p] (p.finish roots) := .cons ht (.nil _)

lemma PassChain.starts (h : PassChain roots s ps t) (hs : s.Sound) :
    ∀ p ∈ ps, p.start.Sound ∧ p.target ≤ Gen.old := by
  induction h with
  | nil => simp
  | @cons p ps s ht _ ih =>
    intro q hq
    rcases List.mem_cons.1 hq with rfl | hq
    · exact ⟨hs, ht⟩
    · exact ih (passes_finish hs ht roots).sound q hq

variable (roots)

lemma reports_collectPass (p : Pass) (info : CollectInfo) :
    Reports roots [p] info (p.start.collectPass p.target roots p.repair info).1 :=
  ⟨rfl, by simp; rfl⟩

/-- A smart request makes its passes and counts them. -/
lemma passChain_smartPasses (n : Nat) (info : CollectInfo) (s : Space) :
    PassChain roots s (smartPassList roots n s) (smartPasses roots n info s).2 ∧
      Reports roots (smartPassList roots n s) info (smartPasses roots n info s).1 := by
  induction n generalizing info s with
  | zero => exact ⟨.nil s, rfl, rfl⟩
  | succ n ih =>
    rcases ht : s.smartTarget? with _ | target
    · simp only [smartPassList, smartPasses, ht]
      exact ⟨.nil s, rfl, rfl⟩
    · simp only [smartPassList, smartPasses, ht]
      let p : Pass := ⟨s, target, false⟩
      obtain ⟨hchain, hreports⟩ := ih (s.collectPass target roots false info).1 (p.finish roots)
      have hone := reports_collectPass roots p info
      refine ⟨.cons (p := p) (le_old_of_smartTarget? ht) hchain, ?_, ?_⟩
      · rw [List.length_cons, Nat.add_comm _ 1, ← Nat.add_assoc]
        exact hreports.passes
      · have hsum := hone.reclaimed
        rw [List.map_singleton, List.sum_singleton] at hsum
        rw [List.map_cons, List.sum_cons, ← Nat.add_assoc, ← hsum]
        exact hreports.reclaimed

/-- A collector that is switched off does nothing. -/
lemma collect_of_disabled (hoff : ¬ s.collector.enabled = true) (mode : Mode) :
    (s.collect mode roots).2 = s := by
  unfold collect
  rw [if_pos (by simp [hoff])]

/-- A request of a collector that is switched on. -/
lemma collect_of_enabled (hon : s.collector.enabled = true) (hidle : s.collector.phase = .idle)
    (mode : Mode) : s.collect mode roots = ((s.awake.runPasses mode roots).1,
      (s.awake.runPasses mode roots).2.concluded (s.awake.runPasses mode roots).1) := by
  unfold collect
  rw [if_neg (by simp [hon, hidle])]
  rfl

/-- The passes that a collector makes when it is switched on. -/
lemma chain_runPasses (hon : s.collector.enabled = true) (hidle : s.collector.phase = .idle)
    (mode : Mode) :
    PassChain roots s.awake (s.passList mode roots) (s.awake.runPasses mode roots).2 ∧
      ∃ start, Reports roots (s.passList mode roots) (.start start)
        (s.awake.runPasses mode roots).1 := by
  have hone (target : Gen) (ht : target ≤ Gen.old) (repair : Bool) (info : CollectInfo) :
      PassChain roots s.awake [⟨s.awake, target, repair⟩]
          (s.awake.collectPass target roots repair info).2 ∧
        Reports roots [⟨s.awake, target, repair⟩] info
          (s.awake.collectPass target roots repair info).1 :=
    ⟨.single (p := ⟨s.awake, target, repair⟩) ht, reports_collectPass roots ⟨_, _, _⟩ info⟩
  have hrepair : s.awake.needsRepair = s.needsRepair := rfl
  unfold passList runPasses
  rw [if_neg (by simp [hon, hidle]), hrepair]
  split
  · have h := hone .old le_rfl true (.start .full)
    exact ⟨h.1, _, h.2⟩
  · cases mode with
    | quick =>
      have h := hone .new (by decide) false (.start .quick)
      exact ⟨h.1, _, h.2⟩
    | smart =>
      have h := passChain_smartPasses roots smartPassLimit (.start .smart) s.awake
      exact ⟨h.1, _, h.2⟩
    | full =>
      have h := hone .old le_rfl false (.start .full)
      exact ⟨h.1, _, h.2⟩

/-- **A request makes its passes**, counts them and ends. If the collector is switched off it does
nothing. -/
theorem chain_collect (hidle : s.collector.phase = .idle) (mode : Mode) :
    (s.passList mode roots = [] ∧ (s.collect mode roots).2 = s ∨
      ∃ t, PassChain roots s.awake (s.passList mode roots) t ∧
        (s.collect mode roots).2 = t.concluded (s.collect mode roots).1) ∧
    ∃ start, Reports roots (s.passList mode roots) (.start start) (s.collect mode roots).1 := by
  rcases hon : s.collector.enabled with _ | _
  · have hoff : (!s.collector.enabled || s.collector.phase ≠ .idle) = true := by simp [hon]
    unfold collect passList
    rw [if_pos hoff, if_pos hoff]
    exact ⟨.inl ⟨rfl, rfl⟩, mode, rfl, rfl⟩
  · obtain ⟨hchain, hreports⟩ := chain_runPasses roots hon hidle mode
    rw [collect_of_enabled roots hon hidle]
    exact ⟨.inr ⟨_, hchain, rfl⟩, hreports⟩

end Chain

end Space

namespace Heap

open Space

variable [Environment]

/-- The heap after a request, which may have had its pools pruned. -/
def attended (h : Heap) (mode : Mode) : Heap :=
  relieve { h with toSpace := (h.toSpace.collect mode h.roots).2 }

omit [Environment] in
/-- What is left to do after a request is to prune the pools, and to report it. -/
lemma yields_checkMemory {h : Heap} : Yields checkMemory h fun _ h' =>
    ∃ journal, h'.toSpace = { h.relieve.toSpace with journal } := by
  unfold checkMemory
  rw [yields_bind, yields_modify]
  dsimp only
  rw [yields_bind, yields_get]
  dsimp only
  split
  · rw [yields_bind, yields_modify]
    change ∃ journal, h.relieve.degrade.toSpace = _
    unfold degrade
    split <;> exact ⟨_, rfl⟩
  · change ∃ journal, h.relieve.recover.toSpace = _
    unfold recover
    split <;> exact ⟨_, rfl⟩

/-- A request collects, and then relieves the heap. -/
lemma yields_collect {h : Heap} (mode : Mode) : Yields (collect mode) h fun res h' =>
    (∃ journal, h'.toSpace = { (h.attended mode).toSpace with journal }) ∧
    ∀ info, res = .ok info → info = (h.toSpace.collect mode h.roots).1 := by
  unfold collect
  rw [yields_bind, yields_get]
  dsimp only
  rw [yields_bind, yields_set]
  dsimp only
  rw [yields_bind]
  refine Yields.mono yields_checkMemory fun res h' hspace => ?_
  rcases res with e | a
  · exact ⟨hspace, fun info he => by cases he⟩
  · exact ⟨hspace, fun info he => (Except.ok.inj he).symm⟩

variable {h : Heap} {op : Operation}

/-- **An operation that asks for a collection** collects, prunes the pools if the heap has reached
its redline, and does nothing else to the space. -/
theorem apply_request {mode : Mode} (hreq : h.request? op = some mode) :
    (∃ journal, (apply op h).2.toSpace = { (h.attended mode).toSpace with journal }) ∧
    ∀ answer, (apply op h).1 = .ok answer →
      answer = .info (some (h.toSpace.collect mode h.roots).1) := by
  suffices hy : Yields (perform op) h fun res h' =>
      (∃ journal, h'.toSpace = { (h.attended mode).toSpace with journal }) ∧
      ∀ answer, res = .ok answer → answer = .info (some (h.toSpace.collect mode h.roots).1) from
    yields_apply.1 hy
  cases op with
  | collect mode' =>
    obtain rfl := Option.some.inj hreq
    unfold perform
    rw [yields_bind]
    refine (yields_collect mode').mono fun res h' hc => ?_
    rcases res with e | info
    · exact ⟨hc.1, fun answer he => by cases he⟩
    · refine ⟨hc.1, fun answer he => ?_⟩
      rw [← hc.2 info rfl]
      exact (Except.ok.inj he).symm
  | collectIfRequired =>
    have hdue : (if h.collector.required && h.options.demandCollect then some Mode.smart
      else none) = some mode := hreq
    split at hdue
    · next hdue' =>
      obtain rfl := Option.some.inj hdue
      unfold perform
      rw [yields_map]
      unfold collectIfRequired
      rw [yields_bind, yields_get]
      dsimp only
      rw [if_pos hdue', yields_bind]
      refine (yields_collect .smart).mono fun res h' hc => ?_
      rcases res with e | info
      · exact ⟨hc.1, fun answer he => by cases he⟩
      · refine ⟨hc.1, fun answer he => ?_⟩
        rw [← hc.2 info rfl]
        exact (Except.ok.inj he).symm
    · cases hdue
  | _ => cases hreq

/-- Only a collection is told of as one. -/
lemma request_of_info {info : CollectInfo} (hok : (apply op h).1 = .ok (.info (some info))) :
    ∃ mode, h.request? op = some mode := by
  by_contra hnone
  suffices hy : Yields (perform op) h fun res _ => ∀ answer, res = .ok answer →
      ∀ info, answer ≠ .info (some info) from yields_apply.1 hy _ hok info rfl
  cases op with
  | collect mode => exact absurd ⟨mode, rfl⟩ hnone
  | collectIfRequired =>
    have hdue : ¬ (h.collector.required && h.options.demandCollect) = true := fun hdue =>
      hnone ⟨.smart, if_pos hdue⟩
    unfold perform collectIfRequired
    rw [yields_map, yields_bind, yields_get]
    dsimp only
    rw [if_neg hdue]
    rintro answer he info rfl
    cases he
  | _ => first | exact answers_map (by simp) | exact answers_bind (by simp)

/-- The passes that the operation makes. -/
def passes (h : Heap) (op : Operation) : List Pass :=
  match h.request? op with
  | some mode => h.toSpace.passList mode h.roots
  | none => []

lemma passes_of_request?_eq_none (hreq : h.request? op = none) : h.passes op = [] := by
  unfold passes
  rw [hreq]

lemma request_of_mem_passes {p : Pass} (hp : p ∈ h.passes op) :
    ∃ mode, h.request? op = some mode ∧ p ∈ h.toSpace.passList mode h.roots := by
  unfold passes at hp
  split at hp
  · next mode hreq => exact ⟨mode, hreq, hp⟩
  · cases hp

omit [Environment] in
lemma not_asks_collect (hreq : h.request? op = none) : ¬ h.Asks op .collect := by
  rintro ⟨mode, hmode⟩
  rw [hreq] at hmode
  cases hmode

/-- Beside the collection that it asks for, an operation does nothing that bears on what is live. -/
lemma rests_request (hs : h.toSpace.Sound) {mode : Mode} (hreq : h.request? op = some mode) :
    Rests (h.toSpace.collect mode h.roots).2 (apply op h).2.toSpace := by
  obtain ⟨⟨journal, hspace⟩, -⟩ := apply_request hreq
  have hcollect := (passRun_collect hs mode h.roots).sound hs
  rw [hspace]
  exact (Rests.relieve (h := { h with toSpace := (h.toSpace.collect mode h.roots).2 })
    hcollect).trans (.journal _ _)

/-- **An operation that asks for a collection makes its passes**, and does nothing else that bears
on what is live. What it tells of the passes is right. -/
theorem chain_apply (hs : h.toSpace.Sound) {mode : Mode} (hreq : h.request? op = some mode) :
    ∃ s t, PassChain h.roots s (h.passes op) t ∧ s.Sound ∧ Rests h.toSpace s ∧
      Rests t (apply op h).2.toSpace ∧
      ∀ answer, (apply op h).1 = .ok answer → ∃ info, answer = .info (some info) ∧
        info.passes = (h.passes op).length ∧
        info.reclaimed = ((h.passes op).map (·.reclaimed h.roots)).sum := by
  have hpasses : h.passes op = h.toSpace.passList mode h.roots := by
    unfold passes
    rw [hreq]
  obtain ⟨-, hanswer⟩ := apply_request hreq
  obtain ⟨hchain, start, hreports⟩ := chain_collect h.roots hs.idle mode
  have hafter := rests_request hs hreq
  have hinfo (answer : Answer) (hok : (apply op h).1 = .ok answer) :
      ∃ info, answer = .info (some info) ∧ info.passes = (h.passes op).length ∧
        info.reclaimed = ((h.passes op).map (·.reclaimed h.roots)).sum := by
    refine ⟨_, hanswer answer hok, ?_, ?_⟩
    · rw [hreports.passes, hpasses]
      exact Nat.zero_add _
    · rw [hreports.reclaimed, hpasses]
      exact Nat.zero_add _
  rcases hchain with ⟨hnil, hsame⟩ | ⟨t, hchain, hend⟩
  · rw [hsame] at hafter
    rw [← hpasses] at hnil
    exact ⟨h.toSpace, h.toSpace, hnil ▸ .nil _, hs, .refl _, hafter, hinfo⟩
  · rw [hend] at hafter
    exact ⟨h.toSpace.awake, t, hpasses ▸ hchain, hs.awake, .awake _,
      (Rests.concluded t _).trans hafter, hinfo⟩

end Heap

end ScriptHeap
