import ScriptHeap.Proofs.PassChain

/-!
The age of records. A record is born into the generation that is allocated into. A pass that
collects its generation and keeps it notes the first time that it has come through, and moves it up
the second time, until it is old. Nothing else changes the age of a record while it lives: not a
pass over younger generations, and no other operation. All this holds whatever the root tables tell,
since a pass marks every record that it keeps.
-/

namespace ScriptHeap

/-- The generation of a record, and whether the record has come through a collection of it. -/
structure Age where
  generation : Gen
  survived : Bool
deriving DecidableEq, Repr

namespace Age

def newborn (g : Gen) : Age := ⟨g, false⟩

/-- The age after a pass over the generations up to `target` that the record has come through. -/
def pass (a : Age) (target : Gen) : Age :=
  if a.generation ≤ target ∧ a.generation < Gen.old then
    if a.survived then newborn a.generation.next else ⟨a.generation, true⟩
  else a

/-- The age after several passes. -/
def passes (a : Age) (targets : List Gen) : Age := targets.foldl pass a

/-- A pass moves a record up by one generation at most, and no further than to the old one. -/
lemma generation_pass (a : Age) (target : Gen) : (a.pass target).generation = a.generation ∨
    a.generation < Gen.old ∧ (a.pass target).generation = a.generation.next := by
  unfold pass
  split
  · next h =>
    split
    · exact .inr ⟨h.2, rfl⟩
    · exact .inl rfl
  · exact .inl rfl

/-- **A record grows no younger, and none becomes eternal.** -/
lemma generation_passes (a : Age) (targets : List Gen) :
    a.generation ≤ (a.passes targets).generation ∧
      ((a.passes targets).generation = Gen.eternal → a.generation = Gen.eternal) := by
  induction targets generalizing a with
  | nil => exact ⟨le_refl _, id⟩
  | cons t ts ih =>
    obtain ⟨hle, heternal⟩ := ih (a.pass t)
    rcases a.generation_pass t with e | ⟨hlt, e⟩
    · exact ⟨e ▸ hle, fun h => e ▸ heternal h⟩
    · refine ⟨(Gen.le_next _).trans (e ▸ hle), fun h => ?_⟩
      have hnext : a.generation.next = Gen.eternal := e.symm.trans (heternal h)
      have hold : a.generation.next ≤ Gen.old := Gen.next_le hlt
      rw [hnext] at hold
      exact absurd hold (by decide)

/-- No pass changes the age of an eternal record. -/
lemma pass_eternal {a : Age} (h : a.generation = Gen.eternal) (target : Gen) :
    a.pass target = a := by
  unfold pass
  rw [if_neg fun hlt => ?_]
  have hold : a.generation < Gen.old := hlt.2
  rw [h] at hold
  exact absurd hold (by decide)

lemma passes_eternal {a : Age} (h : a.generation = Gen.eternal) (targets : List Gen) :
    a.passes targets = a := by
  induction targets with
  | nil => rfl
  | cons t ts ih =>
    change (a.pass t).passes ts = a
    rw [pass_eternal h, ih]

end Age

namespace Record

def age (r : Record) : Age := ⟨r.header.generation, r.header.survived⟩

lemma age_of_core {r q : Record} (h : r.core = q.core) : r.age = q.age :=
  congrArg (fun r => r.age) h

/-- A sweep ages the records that it finds marked. -/
lemma age_aged {r : Record} (hm : r.header.marked = true) {target : Gen}
    (hg : r.header.generation ≤ target) : r.aged.age = r.age.pass target := by
  by_cases hlt : r.header.generation < Gen.old
  · by_cases hs : r.header.survived = true
    · simp [aged, Header.aged, age, Age.pass, Age.newborn, hm, hlt, hs, hg]
    · simp [aged, Header.aged, age, Age.pass, hm, hlt, hs, hg]
  · simp [aged, Header.aged, age, Age.pass, hm, hlt]

end Record

namespace Space

/-! ### Passes -/

/-- What a pass does to the age of records, and which of them it cannot reclaim. -/
structure Pass.Ages [Environment] (p : Pass) (roots : List RecordId) : Prop where
  age : ∀ id r q, p.start.arena.live? id = some r → (p.finish roots).arena.live? id = some q →
    q.age = r.age.pass p.target
  /-- What is there afterwards was there before. -/
  before : ∀ id q, (p.finish roots).arena.live? id = some q →
    ∃ r, p.start.arena.live? id = some r
  elder : ∀ id r, p.start.arena.live? id = some r → p.target < r.header.generation →
    ∃ q, (p.finish roots).arena.live? id = some q
  permanent : ∀ id r, p.start.arena.live? id = some r → r.header.permanent = true →
    ∃ q, (p.finish roots).arena.live? id = some q

section Pass

variable [Environment] {p : Pass} (hs : p.start.Sound) (ht : p.target ≤ Gen.old)
  (roots : List RecordId)
include hs ht

/-- A record of the collected generations that comes through was marked. -/
lemma age_of_pass {id : RecordId} {r q : Record} (hr : p.start.arena.live? id = some r)
    (hq : (p.finish roots).arena.live? id = some q) : q.age = r.age.pass p.target := by
  have hw := swept_swept hs ht roots
  obtain ⟨stats, -, hfinish⟩ := finish_eq p roots
  rw [hfinish] at hq
  obtain ⟨q', hq', e⟩ := (tidied_tidied hs ht roots).alike.live' hq
  obtain ⟨marked, links, hm⟩ := live?_marked hs roots hr
  rw [Record.age_of_core e]
  by_cases hg : r.header.generation ≤ p.target
  · have hfate : (r.visited marked links).fate ≠ .reclaim := fun hf => by
      have hgone := hw.reclaimed id _ hm hg hf
      rw [hgone] at hq'
      cases hq'
    have hmarks := fun hn => hfate ((reclaim_iff (hs.emit _) hr hg hm).2 hn)
    obtain ⟨m, hm', hmarked⟩ := not_not.1 hmarks
    obtain rfl := Option.some.inj (hm'.symm.trans hm)
    obtain ⟨q'', hq'', ecore, -⟩ := hw.aged id _ hm hg hfate
    obtain rfl := Option.some.inj (hq''.symm.trans hq')
    exact (Record.age_of_core ecore).trans (Record.age_aged hmarked hg)
  · obtain ⟨q'', hq'', ecore⟩ := hw.elder id _ hm (not_le.1 hg)
    obtain rfl := Option.some.inj (hq''.symm.trans hq')
    refine (Record.age_of_core ecore).trans ?_
    rw [Age.pass, if_neg fun h => hg h.1]
    rfl

/-- **A pass ages what it keeps**, and it keeps elder and permanent records. -/
theorem ages_of_pass : p.Ages roots := by
  have hp := passes_finish hs ht roots
  refine ⟨fun id r q => age_of_pass hs ht roots, fun id q hq => ?_, fun id r hr hlt => ?_,
    fun id r hr hperm => ?_⟩
  · obtain ⟨r, hr, -⟩ := hp.ages id q hq
    exact ⟨r, hr⟩
  · exact (hp.survives id r hr).2 fun hg => absurd hg (not_le.2 hlt)
  · -- permanent records are seeds of the marking
    exact (hp.survives id r hr).2 fun hg => marks_seed hs.worklist hs.unmarked
      (.inr ((mem_permanents hs.binned hr).2 ⟨hperm, hg⟩)) hr hg

end Pass

section Chain

variable [Environment] {roots : List RecordId} {s t : Space} {ps : List Pass}

/-- No record comes about while a request makes its passes. -/
lemma PassChain.before (h : PassChain roots s ps t) (hs : s.Sound) {id : RecordId} {q : Record}
    (hq : t.arena.live? id = some q) : ∃ r, s.arena.live? id = some r := by
  induction h with
  | nil => exact ⟨q, hq⟩
  | cons ht _ ih =>
    obtain ⟨r, hr⟩ := ih (passes_finish hs ht roots).sound hq
    exact (ages_of_pass hs ht roots).before id r hr

/-- The age of a record that comes through all passes. -/
lemma PassChain.age (h : PassChain roots s ps t) (hs : s.Sound) {id : RecordId} {r q : Record}
    (hr : s.arena.live? id = some r) (hq : t.arena.live? id = some q) :
    q.age = r.age.passes (ps.map (·.target)) := by
  induction h generalizing r with
  | nil =>
    obtain rfl := Option.some.inj (hr.symm.trans hq)
    rfl
  | @cons p ps s ht hrest ih =>
    obtain ⟨m, hm⟩ := hrest.before (passes_finish hs ht roots).sound hq
    have hm' := (ages_of_pass hs ht roots).age id r m hr hm
    rw [ih (passes_finish hs ht roots).sound hm hq, hm', List.map_cons]
    rfl

lemma PassChain.permanent (h : PassChain roots s ps t) (hs : s.Sound) {id : RecordId} {r : Record}
    (hr : s.arena.live? id = some r) (hperm : r.header.permanent = true) :
    ∃ q, t.arena.live? id = some q := by
  induction h generalizing r with
  | nil => exact ⟨r, hr⟩
  | @cons p ps s ht _ ih =>
    have hp := passes_finish hs ht roots
    obtain ⟨m, hm⟩ := (ages_of_pass hs ht roots).permanent id r hr hperm
    obtain ⟨r', hr', e, -⟩ := hp.ages id m hm
    obtain rfl := Option.some.inj (hr.symm.trans hr')
    exact ih hp.sound hm ((Record.permanent_of_lasting e).trans hperm)

lemma PassChain.eternal (h : PassChain roots s ps t) (hs : s.Sound) {id : RecordId} {r : Record}
    (hr : s.arena.live? id = some r) (hg : r.header.generation = Gen.eternal) :
    ∃ q, t.arena.live? id = some q := by
  induction h generalizing r with
  | nil => exact ⟨r, hr⟩
  | @cons p ps s ht _ ih =>
    have hp := ages_of_pass hs ht roots
    obtain ⟨m, hm⟩ := hp.elder id r hr (hg ▸ lt_of_le_of_lt ht Gen.old_lt_eternal)
    have hage := (hp.age id r m hr hm).trans (Age.pass_eternal hg p.target)
    exact ih (passes_finish hs ht roots).sound hm ((congrArg Age.generation hage).trans hg)

end Chain

/-! ### Changes without a collection -/

/-- Records live on at the age that they have, and others are born. -/
structure Spares (s s' : Space) : Prop where
  live : ∀ id r, s.arena.live? id = some r → ∃ q, s'.arena.live? id = some q ∧ q.age = r.age
  born : ∀ id q, s.arena.live? id = none → s'.arena.live? id = some q →
    q.age = .newborn s.collector.allocGeneration

namespace Spares

variable {s t u : Space}

lemma of_live? (h : ∀ id, (t.arena.live? id).map Record.age = (s.arena.live? id).map Record.age) :
    Spares s t := by
  refine ⟨fun id r hr => ?_, fun id q hn hq => ?_⟩
  · have hage := h id
    rw [hr] at hage
    exact Option.map_eq_some_iff.1 hage
  · have hage := h id
    rw [hn, hq] at hage
    cases hage

lemma of_alike (h : s.arena.Alike t.arena) : Spares s t :=
  of_live? (h.live?_map_of Record.age_of_core)

lemma of_modify {id : RecordId} {f : Record → Record} (ht : t.arena = s.arena.modify id f)
    (hf : ∀ r, (f r).age = r.age) : Spares s t :=
  of_live? fun j => ht ▸ Arena.live?_modify_map (fun r _ => hf r) j

lemma trans (h : Spares s t) (k : Spares t u)
    (halloc : t.collector.allocGeneration = s.collector.allocGeneration) : Spares s u := by
  refine ⟨fun id r hr => ?_, fun id q hn hq => ?_⟩
  · obtain ⟨m, hm, e⟩ := h.live id r hr
    obtain ⟨q, hq, e'⟩ := k.live id m hm
    exact ⟨q, hq, e'.trans e⟩
  · rcases hm : t.arena.live? id with _ | m
    · exact (k.born id q hm hq).trans (congrArg Age.newborn halloc)
    · obtain ⟨q', hq', e⟩ := k.live id m hm
      obtain rfl := Option.some.inj (hq.symm.trans hq')
      exact e.trans (h.born id m hn hm)

end Spares

lemma spares_allocate [Environment] {s : Space} (hs : s.toStore.Sound) (info : TypeInfo)
    (extra : Nat) (body : Body) : Spares s (s.allocate info extra body).2 := by
  have hbirth := births_allocate hs info extra body
  refine ⟨fun id r hr => ⟨r, (hbirth.live hr).2, rfl⟩, fun id q hn hq => ?_⟩
  by_cases hid : id = (s.allocate info extra body).1.id
  · obtain ⟨seq, size, hborn⟩ := live?_allocate_self hs info extra body
    rw [hid, hborn] at hq
    obtain rfl := Option.some.inj hq
    rfl
  · rw [hbirth.others id hid, hn] at hq
    cases hq

variable [Environment] {strict : Prop} {may : Command → Prop} {limit : Nat} {d d' : Draft}

/-- **No change but a collection reclaims a record or ages one.** -/
theorem Change.spares (h : Change strict may limit d d') (hs : d.space.Sound)
    (hmay : ¬ may .collect) : Spares d.space d'.space := by
  cases h with
  | allocate extra body _ _ _ _ _ _ _ => exact spares_allocate hs.store _ extra body
  | write _ _ _ _ _ _ _ => exact .of_modify rfl fun _ => rfl
  | redirect _ _ _ _ _ _ => exact .of_modify rfl fun _ => rfl
  | install _ _ _ _ _ => exact .of_modify rfl fun _ => rfl
  | note _ => exact .of_alike (notes_recordReference _ _ _).relinked.alike
  | noteAll _ => exact .of_alike (notes_recordReferences _ _).relinked.alike
  | refLinks x refLinks => exact .of_modify rfl fun _ => rfl
  | pin x => exact .of_modify rfl fun _ => rfl
  | unpin x => exact .of_modify rfl fun _ => rfl
  | collect _ _ hc _ => exact absurd hc hmay
  | prune => exact .of_live? fun id => congrArg _ (live?_prune hs id)
  | _ => exact .of_live? fun _ => rfl

/-- Nothing but the host chooses the generation to allocate into. -/
lemma Change.allocGeneration (h : Change strict may limit d d') (hcollect : ¬ may .collect)
    (hinto : ¬ may .allocateInto) :
    d'.space.collector.allocGeneration = d.space.collector.allocGeneration := by
  cases h with
  | note _ =>
    exact allocGeneration_of_setup (setup_of_bare (notes_recordReference _ _ _).relinked.bare)
  | noteAll _ =>
    exact allocGeneration_of_setup (setup_of_bare (notes_recordReferences _ _).relinked.bare)
  | collect _ _ hc _ => exact absurd hc hcollect
  | allocateInto _ hg => exact absurd hg hinto
  | _ => rfl

/-- **Changes without a collection spare every record.** -/
theorem Changes.spares (h : Changes strict may limit d d') (hs : d.space.Sound)
    (hcollect : ¬ may .collect) (hinto : ¬ may .allocateInto) : Spares d.space d'.space ∧
      d'.space.collector.allocGeneration = d.space.collector.allocGeneration := by
  induction h with
  | refl => exact ⟨.of_live? fun _ => rfl, rfl⟩
  | tail hsteps hstep ih =>
    obtain ⟨hspares, halloc⟩ := ih
    have hstep' := hstep.spares (Changes.sound hsteps hs).1 hcollect
    exact ⟨hspares.trans hstep' halloc, (hstep.allocGeneration hcollect hinto).trans halloc⟩

end Space

namespace Heap

open Space

variable [Environment]

/-- The passes of a run, in order. -/
def passesAlong : Heap → List Operation → List Pass
  | _, [] => []
  | h, op :: ops => h.passes op ++ passesAlong (apply op h).2 ops

/-- The record stays live throughout the run. -/
def StaysLive (h : Heap) (ops : List Operation) (id : RecordId) : Prop :=
  ∀ past, past <+: ops → (run h past).arena.isLive id = true

/-! ### Operations -/

variable {h : Heap} {op : Operation}

/-- **An operation that asks for no collection spares every record.** -/
theorem spares_apply (hs : h.toSpace.Sound) (hreq : h.request? op = none) :
    Spares h.toSpace (apply op h).2.toSpace := by
  by_cases hinto : h.Asks op .allocateInto
  · obtain ⟨g, rfl⟩ := hinto
    exact .of_live? fun _ => rfl
  · obtain ⟨P, hP, -⟩ := evolves_apply hs op False.elim
    exact (hP.changes.spares hs (not_asks_collect hreq) hinto).1

lemma sound_apply (hs : h.toSpace.Sound) (op : Operation) : (apply op h).2.toSpace.Sound :=
  (sound_run [op] hs).1

section Request

variable (hs : h.toSpace.Sound)
include hs

/-- A record that an operation brings about is new, and no pass takes part in it. -/
theorem newborn_apply {id : RecordId} {q : Record} (hn : h.arena.live? id = none)
    (hq : (apply op h).2.arena.live? id = some q) :
    h.passes op = [] ∧ q.age = .newborn h.collector.allocGeneration := by
  rcases hreq : h.request? op with _ | mode
  · exact ⟨passes_of_request?_eq_none hreq, (spares_apply hs hreq).born id q hn hq⟩
  · obtain ⟨s, t, hchain, hsound, hbefore, hafter, -⟩ := chain_apply hs hreq
    rw [hafter.live] at hq
    obtain ⟨r, hr⟩ := hchain.before hsound hq
    rw [hbefore.live, hn] at hr
    cases hr

/-- The passes of an operation age a record that is live before and after it, and nothing else
does. -/
theorem age_apply {id : RecordId} {r q : Record} (hr : h.arena.live? id = some r)
    (hq : (apply op h).2.arena.live? id = some q) :
    q.age = r.age.passes ((h.passes op).map (·.target)) := by
  rcases hreq : h.request? op with _ | mode
  · obtain ⟨q', hq', hage⟩ := (spares_apply hs hreq).live id r hr
    obtain rfl := Option.some.inj (hq.symm.trans hq')
    rw [passes_of_request?_eq_none hreq]
    exact hage
  · obtain ⟨s, t, hchain, hsound, hbefore, hafter, -⟩ := chain_apply hs hreq
    rw [hafter.live] at hq
    exact hchain.age hsound ((hbefore.live id).trans hr) hq

/-- No operation reclaims a permanent record, or an eternal one. -/
theorem lives_apply {id : RecordId} {r : Record} (hr : h.arena.live? id = some r)
    (hlasts : r.header.permanent = true ∨ r.header.generation = Gen.eternal) :
    ∃ q, (apply op h).2.arena.live? id = some q := by
  rcases hreq : h.request? op with _ | mode
  · obtain ⟨q, hq, -⟩ := (spares_apply hs hreq).live id r hr
    exact ⟨q, hq⟩
  · obtain ⟨s, t, hchain, hsound, hbefore, hafter, -⟩ := chain_apply hs hreq
    have hr' : s.arena.live? id = some r := (hbefore.live id).trans hr
    simp only [hafter.live]
    rcases hlasts with hperm | hg
    · exact hchain.permanent hsound hr' hperm
    · exact hchain.eternal hsound hr' hg

lemma ages_passes (op : Operation) :
    ∀ p ∈ h.passes op, p.target ≤ Gen.old ∧ p.Ages h.roots := by
  intro p hp
  obtain ⟨mode, hreq, -⟩ := request_of_mem_passes hp
  obtain ⟨s, t, hchain, hsound, -⟩ := chain_apply hs hreq
  obtain ⟨hstart, ht⟩ := hchain.starts hsound p hp
  exact ⟨ht, ages_of_pass hstart ht h.roots⟩

end Request

/-! ### Runs -/

lemma StaysLive.rest {ops : List Operation} {id : RecordId} (hl : h.StaysLive (op :: ops) id) :
    (apply op h).2.StaysLive ops id := fun past hpast =>
  hl (op :: past) (List.cons_prefix_cons.2 ⟨rfl, hpast⟩)

/-- The passes of a run age a record that stays live throughout. -/
theorem age_run (ops : List Operation) (hs : h.toSpace.Sound) {id : RecordId} {r : Record}
    (hr : h.arena.live? id = some r) (hl : h.StaysLive ops id) :
    ∃ q, (run h ops).arena.live? id = some q ∧
      q.age = r.age.passes ((h.passesAlong ops).map (·.target)) := by
  induction ops generalizing h r with
  | nil => exact ⟨r, hr, rfl⟩
  | cons op ops ih =>
    obtain ⟨m, hm⟩ := Arena.isLive_iff.1 (hl [op] (by simp))
    obtain ⟨q, hq, hage⟩ := ih (sound_apply hs op) hm hl.rest
    refine ⟨q, hq, hage.trans ?_⟩
    have hone : m.age = r.age.passes ((h.passes op).map (·.target)) := age_apply hs hr hm
    rw [hone, passesAlong, List.map_append]
    exact List.foldl_append.symm

/-- An eternal record lives on, and stays at its age. -/
theorem eternal_run (ops : List Operation) (hs : h.toSpace.Sound) {id : RecordId} {r : Record}
    (hr : h.arena.live? id = some r) (hg : r.header.generation = Gen.eternal) :
    ∃ q, (run h ops).arena.live? id = some q ∧ q.age = r.age := by
  induction ops generalizing h r with
  | nil => exact ⟨r, hr, rfl⟩
  | cons op ops ih =>
    obtain ⟨m, hm⟩ : ∃ m, (apply op h).2.arena.live? id = some m :=
      lives_apply hs hr (.inr hg)
    have hage : m.age = r.age := by
      rw [age_apply hs hr hm]
      exact Age.passes_eternal hg _
    obtain ⟨q, hq, e⟩ := ih (sound_apply hs op) hm ((congrArg Age.generation hage).trans hg)
    exact ⟨q, hq, e.trans hage⟩

/-- The global object is eternal from the start. -/
lemma age_fresh (o : HeapOptions) {id : RecordId} {r : Record}
    (hr : (fresh o).arena.live? id = some r) : r.age = .newborn Gen.eternal := by
  have hsize : (fresh o).arena.cells.size = 1 := rfl
  have hlt := Arena.lt_size_of_get? (Arena.live?_eq_some.1 hr)
  rw [hsize] at hlt
  obtain rfl : id = 0 := Nat.lt_one_iff.1 hlt
  exact (Option.some.inj (hr : some _ = some r)) ▸ rfl

/-- **The life of a record in a run.** It is born at the age of no pass into the generation that is
allocated into, which for the global object is the eternal one. Each pass of an operation ages what
it keeps, and an answer tells how many passes there were. While a record stays live nothing but the
passes changes its age, so it never gets younger or becomes eternal. An eternal record lives on at
its age, and a permanent one lives through any operation. -/
theorem ages_run (o : HeapOptions) (ops : List Operation) :
    let h := run (fresh o) ops
    (∀ id r, (fresh o).arena.live? id = some r → r.age = .newborn Gen.eternal) ∧
    (∀ op id q, h.arena.live? id = none → (apply op h).2.arena.live? id = some q →
      h.passes op = [] ∧ q.age = .newborn h.collector.allocGeneration) ∧
    (∀ op, (∀ p ∈ h.passes op, p.target ≤ Gen.old ∧ p.Ages h.roots) ∧
      ∀ info, (apply op h).1 = .ok (.info (some info)) →
        info.passes = (h.passes op).length) ∧
    (∀ later id r, h.arena.live? id = some r → h.StaysLive later id →
      ∃ q, (run h later).arena.live? id = some q ∧
        q.age = r.age.passes ((h.passesAlong later).map (·.target)) ∧
        r.header.generation ≤ q.header.generation ∧
        (q.header.generation = Gen.eternal → r.header.generation = Gen.eternal)) ∧
    (∀ later id r, h.arena.live? id = some r → r.header.generation = Gen.eternal →
      ∃ q, (run h later).arena.live? id = some q ∧ q.age = r.age) ∧
    ∀ op id r, h.arena.live? id = some r → r.header.permanent = true →
      (apply op h).2.arena.isLive id = true := by
  intro h
  have hs : h.toSpace.Sound := (sound_typed_run o ops).1
  refine ⟨fun id r => age_fresh o, fun op id q => newborn_apply hs,
    fun op => ⟨ages_passes hs op, fun info hok => ?_⟩, fun later id r hr hl => ?_,
    fun later id r => eternal_run later hs, fun op id r hr hperm =>
      Arena.isLive_iff.2 (lives_apply hs hr (.inl hperm))⟩
  · obtain ⟨mode, hreq⟩ := request_of_info hok
    obtain ⟨s, t, -, -, -, -, hinfo⟩ := chain_apply hs hreq
    obtain ⟨info', e, hcount, -⟩ := hinfo _ hok
    obtain rfl := Option.some.inj (Answer.info.inj e)
    exact hcount
  · obtain ⟨q, hq, hage⟩ := age_run later hs hr hl
    have hgen : q.header.generation
        = (r.age.passes ((h.passesAlong later).map (·.target))).generation :=
      congrArg Age.generation hage
    have hpasses := r.age.generation_passes ((h.passesAlong later).map (·.target))
    rw [← hgen] at hpasses
    exact ⟨q, hq, hage, hpasses⟩

end Heap

end ScriptHeap
