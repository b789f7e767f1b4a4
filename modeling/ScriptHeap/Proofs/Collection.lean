import ScriptHeap.Proofs.Object
import ScriptHeap.Proofs.Sweep
import ScriptHeap.Proofs.Upkeep

/-!
One pass of a collection. A pass leaves the space sound. Of the collected generations it keeps the
marked records, of the others all, and a record that is kept stays what it is. As long as the root
tables cover the references to younger records when a pass starts, or the pass repairs them, it
keeps everything reachable and no record refers to a dead one afterwards.
-/

namespace ScriptHeap.Space

/-- What holds between any two operations. -/
structure Sound (s : Space) : Prop where
  store : s.toStore.Sound
  binned : s.Binned
  listed : s.Listed fun _ => False
  unmarked : s.Unmarked
  idle : s.collector.phase = .idle
  worklist : s.collector.worklist = []
  objects : ∀ id r o, s.arena.live? id = some r → r.body = .object o → o.Sound

/-- The live records are the same, up to their bodies and parts of their headers, and so are the
buckets. -/
structure Resembles (s s' : Space) : Prop where
  live : ∀ id r, s.arena.live? id = some r → ∃ q, s'.arena.live? id = some q ∧
    q.header.generation = r.header.generation ∧ q.header.marked = r.header.marked ∧
    q.header.rootLinks = r.header.rootLinks
  gone : ∀ id, s.arena.live? id = none → s'.arena.live? id = none
  buckets : s'.collector.buckets = s.collector.buckets
  phase : s'.collector.phase = s.collector.phase
  worklist : s'.collector.worklist = s.collector.worklist
  rootCapacity : s'.collector.rootCapacity = s.collector.rootCapacity

namespace Resembles

variable {s s' : Space} (h : Resembles s s')
include h

lemma bucket (g : Gen) : s'.bucket g = s.bucket g := congrArg (fun b => b.get g) h.buckets

lemma live' {id : RecordId} {q : Record} (hq : s'.arena.live? id = some q) :
    ∃ r, s.arena.live? id = some r ∧ q.header.generation = r.header.generation ∧
      q.header.marked = r.header.marked ∧ q.header.rootLinks = r.header.rootLinks := by
  rcases hr : s.arena.live? id with _ | r
  · simp [h.gone id hr] at hq
  · obtain ⟨q', hq', e⟩ := h.live id r hr
    rw [hq] at hq'
    exact ⟨r, rfl, Option.some.inj hq' ▸ e⟩

lemma sound (hs : s.Sound) (hstore : s'.toStore.Sound)
    (hobj : ∀ id q o, s'.arena.live? id = some q → q.body = .object o → o.Sound) : s'.Sound := by
  refine ⟨hstore, ⟨fun g id => ?_, fun g => ?_⟩, ⟨fun g id q hq => ?_, fun g id q hq hid => ?_,
    fun g id hid => ?_, fun g => ?_, fun g => ?_⟩, fun id q hq => ?_, h.phase.trans hs.idle,
    h.worklist.trans hs.worklist, hobj⟩
  · rw [h.bucket, hs.binned.mem]
    constructor
    · rintro ⟨r, hr, rfl⟩
      obtain ⟨q, hq, e, -⟩ := h.live id r hr
      exact ⟨q, hq, e⟩
    · rintro ⟨q, hq, rfl⟩
      obtain ⟨r, hr, e, -⟩ := h.live' hq
      exact ⟨r, hr, e.symm⟩
  · rw [h.bucket]
    exact hs.binned.nodup g
  · obtain ⟨r, hr, -, -, e⟩ := h.live' hq
    rw [h.bucket, e, hs.listed.mem g id r hr]
  · obtain ⟨r, hr, e, -⟩ := h.live' hq
    rw [e]
    exact hs.listed.elder g id r hr (h.bucket g ▸ hid)
  · refine (hs.listed.live g id (h.bucket g ▸ hid)).imp_right fun ⟨r, hr⟩ => ?_
    obtain ⟨q, hq, -⟩ := h.live id r hr
    exact ⟨q, hq⟩
  · rw [h.bucket]
    exact hs.listed.nodup g
  · rw [h.bucket, h.rootCapacity]
    exact hs.listed.length_le g
  · obtain ⟨r, hr, -, e, -⟩ := h.live' hq
    exact e.trans (hs.unmarked id r hr)

end Resembles

/-- Nothing changed that bears on what is live, listed or marked. -/
structure Quiet (s s' : Space) : Prop where
  arena : s'.arena = s.arena
  pools : s'.pools = s.pools
  buckets : s'.collector.buckets = s.collector.buckets
  phase : s'.collector.phase = s.collector.phase
  worklist : s'.collector.worklist = s.collector.worklist
  overflow : s'.collector.overflow = s.collector.overflow
  pendingFull : s'.collector.pendingFull = s.collector.pendingFull
  rootCapacity : s'.collector.rootCapacity = s.collector.rootCapacity

namespace Quiet

lemma refl (s : Space) : Quiet s s := ⟨rfl, rfl, rfl, rfl, rfl, rfl, rfl, rfl⟩

lemma trans {s t u : Space} (h : Quiet s t) (k : Quiet t u) : Quiet s u :=
  ⟨k.arena.trans h.arena, k.pools.trans h.pools, k.buckets.trans h.buckets,
    k.phase.trans h.phase, k.worklist.trans h.worklist, k.overflow.trans h.overflow,
    k.pendingFull.trans h.pendingFull, k.rootCapacity.trans h.rootCapacity⟩

variable {s s' : Space} (h : Quiet s s')
include h

lemma resembles : Resembles s s' :=
  ⟨fun id r hr => ⟨r, by rw [h.arena, hr], rfl, rfl, rfl⟩, fun id hr => by rw [h.arena, hr],
    h.buckets, h.phase, h.worklist, h.rootCapacity⟩

lemma bucket (g : Gen) : s'.bucket g = s.bucket g := h.resembles.bucket g

lemma needsRepair : s'.needsRepair = s.needsRepair := by
  unfold Space.needsRepair
  rw [h.overflow, h.pendingFull]

lemma sound (hs : s.Sound) : s'.Sound := by
  have hstore : s'.toStore = s.toStore :=
    (congrArg (Store.mk s'.arena) h.pools).trans (congrArg (Store.mk · s.pools) h.arena)
  exact h.resembles.sound hs (hstore ▸ hs.store) fun id q o hq =>
    hs.objects id q o (h.arena ▸ hq)

lemma covered {pending : List (RecordId × RecordId)} (hc : s.Covered pending) :
    s'.Covered pending := by
  intro hn x y g hx hcross
  simp only [h.bucket]
  exact hc (h.needsRepair ▸ hn) x y g hx (h.arena ▸ hcross)

lemma marks (hs : s.Sound) {target : Gen} {roots : List RecordId} {repair : Bool}
    {id : RecordId} : s'.Marks target roots repair id ↔ s.Marks target roots repair id := by
  have hperm : s'.permanents target = s.permanents target :=
    permanents_congr (h.arena ▸ .refl _) h.bucket
  have hcleared : s'.clearedArena target = s.clearedArena target := by
    simp only [clearedArena, holders, h.bucket, h.arena]
  have hfirst : s'.firstArena target roots = s.firstArena target roots := by
    unfold firstArena
    rw [hcleared, hperm]
  have helders : s'.elders target repair = s.elders target repair :=
    elders_congr (h.arena ▸ .refl _) h.bucket
  rw [marks_iff (h.worklist.trans hs.worklist) (h.sound hs).unmarked,
    marks_iff hs.worklist hs.unmarked]
  unfold FirstSpread SecondSpread
  rw [hcleared, hperm, hfirst, helders]

end Quiet

/-! ### The mark phase -/

section Mark

variable {s : Space} {target : Gen} {roots : List RecordId} {repair : Bool} (hs : s.Sound)
include hs

lemma collector_mark : (s.mark target roots repair).2.collector =
    { s.collector with phase := .marking, worklist := [] } := by
  rw [mark_eq _ _ _ _ hs.worklist]

lemma bucket_mark (g : Gen) : (s.mark target roots repair).2.bucket g = s.bucket g := by
  unfold bucket
  rw [collector_mark hs]
  rfl

lemma needsRepair_mark : (s.mark target roots repair).2.needsRepair = s.needsRepair := by
  unfold needsRepair
  rw [collector_mark hs]

lemma listed_mark : (s.mark target roots repair).2.Listed fun _ => False := by
  refine listed_of_rootLinks hs.listed (alike_mark hs.worklist) (fun id r q hr hq => ?_)
    (fun g => by rw [bucket_mark hs]) ?_
  · obtain ⟨marked, links, h⟩ := live?_mark target roots repair hs.unmarked hr hs.worklist
    rw [Option.some.inj (hq.symm.trans h)]
    rfl
  · rw [collector_mark hs]

lemma store_mark : (s.mark target roots repair).2.toStore.Sound := by
  have hshape : s.arena.SameShape (s.mark target roots repair).2.arena :=
    (alike_mark hs.worklist).shape
  rw [mark_eq _ _ _ _ hs.worklist] at hshape ⊢
  exact hs.store.of_sameShape hshape

lemma covered_mark (h : s.Covered []) : (s.mark target roots repair).2.Covered [] := by
  intro hn x y g hx hcross
  simp only [bucket_mark hs]
  exact h (needsRepair_mark hs ▸ hn) x y g hx (hcross.of_alike (alike_mark hs.worklist))

/-- A record of the collected generations is reclaimed unless it is marked. -/
lemma reclaim_iff {id : RecordId} {r m : Record}
    (hr : s.arena.live? id = some r) (hg : r.header.generation ≤ target)
    (hm : (s.mark target roots repair).2.arena.live? id = some m) :
    m.fate = .reclaim ↔ ¬ s.Marks target roots repair id := by
  obtain ⟨marked, links, h⟩ := live?_mark target roots repair hs.unmarked hr hs.worklist
  obtain rfl := Option.some.inj (hm.symm.trans h)
  have hmarks : s.Marks target roots repair id ↔ marked = true :=
    ⟨fun ⟨q, hq, e⟩ => by rw [Option.some.inj (hq.symm.trans hm)] at e; exact e,
      fun e => ⟨_, hm, e⟩⟩
  rw [hmarks]
  unfold Record.fate Header.fate Record.visited
  rcases marked with _ | _
  · rcases hp : r.header.permanent with _ | _
    · simp
    · -- permanent records are seeds of the marking
      have : s.Marks target roots repair id := marks_seed hs.worklist hs.unmarked
        (.inr ((mem_permanents hs.binned hr).2 ⟨hp, hg⟩)) hr hg
      simp [hmarks] at this
  · simp only [if_true, not_true, iff_false]
    split <;> simp

end Mark

/-! ### The sweep phase -/

section Sweep

variable {s s' : Space} {target : Gen} (h : Swept s s' target)
include h

/-- A record that is there after a sweep was there before, no older than now. If it has moved up
it is listed for the generation it left. -/
lemma Swept.ages {id : RecordId} {q : Record} (hq : s'.arena.live? id = some q) :
    ∃ r, s.arena.live? id = some r ∧ q.lasting = r.lasting ∧
      (q.header.generation = r.header.generation ∨
        r.header.generation < Gen.old ∧ q.header.generation = r.header.generation.next ∧
        (id ∈ (s'.bucket r.header.generation).roots ∨ s'.collector.overflow = true)) := by
  rcases hr : s.arena.live? id with _ | r
  · simp [h.vacant id hr] at hq
  · refine ⟨r, rfl, ?_⟩
    by_cases hg : r.header.generation ≤ target
    · by_cases hf : r.fate = .reclaim
      · simp [h.reclaimed id r hr hg hf] at hq
      · obtain ⟨p, hp, hcore, hnew⟩ := h.aged id r hr hg hf
        obtain rfl := Option.some.inj (hq.symm.trans hp)
        refine ⟨(Record.lasting_of_core hcore).trans r.lasting_aged, ?_⟩
        rw [Record.generation_of_core hcore, r.generation_aged]
        split
        · next hf => exact .inr ⟨Record.lt_old_of_promote hf, rfl, hnew hf⟩
        · exact .inl rfl
    · obtain ⟨p, hp, hcore⟩ := h.elder id r hr (not_le.1 hg)
      obtain rfl := Option.some.inj (hq.symm.trans hp)
      exact ⟨Record.lasting_of_core hcore, .inl (Record.generation_of_core hcore)⟩

lemma needsRepair_of_swept (hn : s'.needsRepair = false) : s.needsRepair = false := by
  unfold needsRepair at hn ⊢
  rw [Bool.or_eq_false_iff] at hn ⊢
  refine ⟨?_, (pendingFull_of_setup h.setup).symm.trans hn.2⟩
  rcases ho : s.collector.overflow with _ | _
  · rfl
  · exact absurd hn.1 (by simp [h.overflow ho])

/-- **A sweep uncovers no reference.** One that runs from an elder to a younger record only now
does so because its holder has moved up. -/
theorem covered_of_swept (hc : s.Covered []) : s'.Covered [] := by
  rintro hn x y _ hxy ⟨r', q', hr', hy, hq', hp, rfl, hlt⟩
  obtain ⟨r, hr, er, hx⟩ := h.ages hr'
  obtain ⟨q, hq, eq, hyg⟩ := h.ages hq'
  rw [Record.body_of_lasting er] at hy
  rw [Record.permanent_of_lasting eq] at hp
  have hle : q.header.generation ≤ q'.header.generation := by
    rcases hyg with e | ⟨-, e, -⟩
    · exact e.ge
    · exact e ▸ Gen.le_next _
  by_cases hold : q.header.generation < r.header.generation
  · have hcross : s.arena.Crosses x y q.header.generation := ⟨r, q, hr, hy, hq, hp, rfl, hold⟩
    obtain ⟨g, hg, hmem⟩ := hc (needsRepair_of_swept h hn) x y _ hxy hcross
    exact ⟨g, hg.trans hle, h.roots g x hmem⟩
  · have hge : r.header.generation ≤ q'.header.generation := (not_lt.1 hold).trans hle
    rcases hx with e | ⟨-, e, hnew⟩
    · exact absurd (e ▸ hlt) (not_lt.2 hge)
    · rcases hnew with hmem | ho
      · exact ⟨_, hge, hmem⟩
      · simp [needsRepair, ho] at hn

end Sweep

/-! ### A whole pass -/

/-- The root tables can be trusted for a pass over the generations up to `target`, or the pass does
without them. -/
def Ready (s : Space) (target : Gen) (repair : Bool) : Prop :=
  s.Covered [] ∧ s.needsRepair = false ∨ repair = true ∧ target = Gen.old

/-- What a pass does. -/
structure Passes (s s' : Space) (target : Gen) (roots : List RecordId) (repair : Bool) :
    Prop where
  sound : s'.Sound
  /-- What is there afterwards was there before, and stayed what it was. -/
  ages : ∀ id q, s'.arena.live? id = some q → ∃ r, s.arena.live? id = some r ∧
    q.lasting = r.lasting ∧ (q.header.generation = r.header.generation ∨
      r.header.generation < Gen.old ∧ q.header.generation = r.header.generation.next)
  survives : ∀ id r, s.arena.live? id = some r →
    ((∃ q, s'.arena.live? id = some q) ↔
      (r.header.generation ≤ target → s.Marks target roots repair id))
  covered : s.Covered [] ∨ repair = true → s'.Covered []
  pendingFull : s'.collector.pendingFull = (s.collector.pendingFull && !repair)
  overflow : repair = false → s.collector.overflow = true → s'.collector.overflow = true
  rootCapacity : s'.collector.rootCapacity = s.collector.rootCapacity

/-- The upkeep that a pass ends with. -/
def upkeep (s : Space) (target : Gen) (repair : Bool) : Space :=
  if repair then s.rebuildRoots else s.resetRoots target

lemma tidied_upkeep {s : Space} {target : Gen} (repair : Bool) (hb : s.Binned)
    (hl : s.Listed (· < target)) : Tidied s (s.upkeep target repair) repair := by
  unfold upkeep
  rcases repair with _ | _
  · exact tidied_resetRoots hl
  · exact tidied_rebuildRoots hb

/-- The space in which the upkeep of a pass begins. -/
def beforeUpkeep [Environment] (s : Space) (target : Gen) (roots : List RecordId) (repair : Bool) :
    Space :=
  (((s.emit (.passStarted target repair)).mark target roots repair).2.sweep target).2

lemma collectPass_eq [Environment] (s : Space) (target : Gen) (roots : List RecordId)
    (repair : Bool) (info : CollectInfo) : ∃ stats, (s.collectPass target roots repair info).2 =
      { (s.beforeUpkeep target roots repair).upkeep target repair with
        collector := { ((s.beforeUpkeep target roots repair).upkeep target repair).collector with
          phase := .idle
          stats } } := ⟨_, rfl⟩

section Phases

variable {s s2 s3 : Space} {target : Gen} {roots : List RecordId} {repair : Bool} (hs : s.Sound)
  (hw : Swept (s.mark target roots repair).2 s2 target) (ht : Tidied s2 s3 repair)
include hs hw ht

/-- A record that is there after the phases was there before them. -/
lemma ages_of_phases {id : RecordId} {q : Record} (hq : s3.arena.live? id = some q) :
    ∃ r, s.arena.live? id = some r ∧ q.lasting = r.lasting ∧
      (q.header.generation = r.header.generation ∨
        r.header.generation < Gen.old ∧ q.header.generation = r.header.generation.next) := by
  have halike : s.arena.Alike (s.mark target roots repair).2.arena := alike_mark hs.worklist
  obtain ⟨p, hp, ep⟩ := ht.alike.live' hq
  obtain ⟨m, hm, em, hg⟩ := hw.ages hp
  obtain ⟨r, hr, er⟩ := halike.live' hm
  refine ⟨r, hr, ?_, ?_⟩
  · exact (Record.lasting_of_core ep).trans (em.trans (Record.lasting_of_core er))
  · rw [Record.generation_of_core ep, ← Record.generation_of_core er]
    exact hg.imp_right fun ⟨h1, h2, _⟩ => ⟨h1, h2⟩

lemma survives_of_phases {id : RecordId} {r : Record} (hr : s.arena.live? id = some r) :
    (∃ q, s3.arena.live? id = some q) ↔
      (r.header.generation ≤ target → s.Marks target roots repair id) := by
  have halike : s.arena.Alike (s.mark target roots repair).2.arena := alike_mark hs.worklist
  obtain ⟨m, hm, em⟩ := halike.live hr
  rw [← Record.generation_of_core em]
  by_cases hg : m.header.generation ≤ target
  · have hf := reclaim_iff hs hr (Record.generation_of_core em ▸ hg) hm
    rw [forall_prop_of_true hg]
    constructor
    · rintro ⟨q, hq⟩
      by_contra hn
      obtain ⟨p, hp, -⟩ := ht.alike.live' hq
      have hgone := hw.reclaimed id m hm hg (hf.2 hn)
      simp [hgone] at hp
    · intro hmarks
      obtain ⟨p, hp, -⟩ := hw.aged id m hm hg fun e => hf.1 e hmarks
      obtain ⟨q, hq, -⟩ := ht.alike.live hp
      exact ⟨q, hq⟩
  · refine iff_of_true ?_ fun h => absurd h hg
    obtain ⟨p, hp, -⟩ := hw.elder id m hm (not_le.1 hg)
    obtain ⟨q, hq, -⟩ := ht.alike.live hp
    exact ⟨q, hq⟩

lemma sound_of_phases (stats : Stats) :
    ({ s3 with collector := { s3.collector with phase := .idle, stats } } : Space).Sound := by
  refine ⟨?_, hw.binned.of_alike ht.alike ht.arrivals, ?_, fun id q hq => ?_, rfl, ?_,
    fun id q o hq ho => ?_⟩
  · have hstore : s3.toStore = { s2.toStore with arena := s3.arena } :=
      congrArg (Store.mk s3.arena) ht.pools
    change s3.toStore.Sound
    rw [hstore]
    exact hw.store.of_sameShape ht.alike.shape
  · exact ⟨ht.listed.mem, ht.listed.elder, ht.listed.live, ht.listed.nodup, ht.listed.length_le⟩
  · obtain ⟨p, hp, -⟩ := ht.alike.live' hq
    exact (ht.marks id p q hp hq).trans (hw.unmarked id p hp)
  · refine ht.worklist.trans ((worklist_of_setup hw.setup).trans ?_)
    exact congrArg (fun c => c.worklist) (collector_mark hs)
  · obtain ⟨r, hr, e, -⟩ := ages_of_phases hs hw ht hq
    exact hs.objects id r o hr (Record.body_of_lasting e ▸ ho)

/-- The pass from its phases. -/
lemma passes_of_phases (stats : Stats) :
    Passes s { s3 with collector := { s3.collector with phase := .idle, stats } } target roots
      repair := by
  have hcollector : (s.mark target roots repair).2.collector =
      { s.collector with phase := .marking, worklist := [] } := collector_mark hs
  refine ⟨sound_of_phases hs hw ht stats, fun id q => ages_of_phases hs hw ht,
    fun id r => survives_of_phases hs hw ht, fun h => ?_, ?_, fun hr ho => ?_, ?_⟩
  · exact ht.covered (h.imp_left fun hc => covered_of_swept hw (covered_mark hs hc))
  · refine ht.pendingFull.trans ?_
    rw [pendingFull_of_setup hw.setup]
    exact congrArg (fun c => c.pendingFull && !repair) hcollector
  · refine ht.overflow hr (hw.overflow ?_)
    rw [hcollector]
    exact ho
  · refine ht.rootCapacity.trans ((rootCapacity_of_setup hw.setup).trans ?_)
    exact congrArg (fun c => c.rootCapacity) hcollector

end Phases

/-- The sweep of a pass. -/
lemma swept_beforeUpkeep [Environment] {s : Space} (hs : s.Sound) {target : Gen}
    (ht : target < Gen.eternal) (roots : List RecordId) (repair : Bool) :
    Swept ((s.emit (.passStarted target repair)).mark target roots repair).2
      (s.beforeUpkeep target roots repair) target := by
  have hquiet : Quiet s (s.emit (.passStarted target repair)) :=
    ⟨rfl, rfl, rfl, rfl, rfl, rfl, rfl, rfl⟩
  have hs0 := hquiet.sound hs
  exact swept_sweep (store_mark hs0) (hs0.binned.of_alike (alike_mark hs0.worklist)
    fun g => by rw [bucket_mark hs0]) (listed_mark hs0) ht

theorem passes_collectPass [Environment] {s : Space} (hs : s.Sound) {target : Gen}
    (ht : target < Gen.eternal) (roots : List RecordId) (repair : Bool) (info : CollectInfo) :
    Passes s (s.collectPass target roots repair info).2 target roots repair := by
  have hquiet : Quiet s (s.emit (.passStarted target repair)) :=
    ⟨rfl, rfl, rfl, rfl, rfl, rfl, rfl, rfl⟩
  have hw := swept_beforeUpkeep hs ht roots repair
  obtain ⟨stats, heq⟩ := collectPass_eq s target roots repair info
  have hp := passes_of_phases (hquiet.sound hs) hw (tidied_upkeep repair hw.binned hw.listed) stats
  rw [← heq] at hp
  exact ⟨hp.sound, hp.ages, fun id r hr => (hp.survives id r hr).trans (by rw [hquiet.marks hs]),
    hp.covered, hp.pendingFull, hp.overflow, hp.rootCapacity⟩

/-! ### What a pass keeps -/

lemma Passes.survivor {s s' : Space} {target : Gen} {roots : List RecordId} {repair : Bool}
    (hp : Passes s s' target roots repair) {id : RecordId} {r : Record}
    (hr : s.arena.live? id = some r)
    (h : r.header.generation ≤ target → s.Marks target roots repair id) :
    ∃ q, s'.arena.live? id = some q ∧ q.lasting = r.lasting ∧
      (q.header.generation = r.header.generation ∨
        r.header.generation < Gen.old ∧ q.header.generation = r.header.generation.next) := by
  obtain ⟨q, hq⟩ := (hp.survives id r hr).2 h
  obtain ⟨r', hr', e⟩ := hp.ages id q hq
  obtain rfl := Option.some.inj (hr.symm.trans hr')
  exact ⟨q, hq, e⟩

section Keeps

variable {s s' : Space} {target : Gen} {roots : List RecordId} {repair : Bool} (hs : s.Sound)
  (ht : target < Gen.eternal) (hp : Passes s s' target roots repair)
include hs ht hp

/-- **A pass keeps exactly the right records**, as long as it can trust the root tables. -/
theorem Passes.live_iff_reaches (hready : s.Ready target repair) {id : RecordId} {r : Record}
    (hr : s.arena.live? id = some r) (hg : r.header.generation ≤ target) :
    (∃ q, s'.arena.live? id = some q) ↔ s.arena.Reaches (s.Anchored target roots) id := by
  rw [hp.survives id r hr, forall_prop_of_true hg]
  exact ⟨reaches_of_marks hs.worklist hs.unmarked hs.binned ht,
    fun h => marks_of_reaches hs.worklist hs.unmarked hs.binned ht hready h hr hg⟩

/-- Garbage is no exception: whatever a pass leaves refers to live records only. -/
theorem Passes.closed (hready : s.Ready target repair) (hc : s.arena.Closed) :
    s'.arena.Closed := by
  intro x q y hq hy
  obtain ⟨r, hr, e, -⟩ := hp.ages x q hq
  rw [Record.body_of_lasting e] at hy
  obtain ⟨p, hp'⟩ := hc x r y hr hy
  have hx : s.arena.Reaches (s.Anchored target roots) x := by
    by_cases hg : r.header.generation ≤ target
    · exact (hp.live_iff_reaches hs ht hready hr hg).1 ⟨q, hq⟩
    · exact .base (.inr ⟨r, hr, .inr (not_le.1 hg)⟩) hr
  refine (hp.survives y p hp').2 fun hg => ?_
  exact marks_of_reaches hs.worklist hs.unmarked hs.binned ht hready (.step hx hr hy hp') hp' hg

end Keeps

end ScriptHeap.Space
