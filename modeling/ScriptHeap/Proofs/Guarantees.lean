import Mathlib
import ScriptHeap.Proofs.Runs

/-!
What the heap promises to its host after an orderly run: which records a collection keeps, that no
reference dangles, and what the root tables list. A smart request is the exception. Once a table is
full it goes on without repairing the tables, and the records it may lose are told exactly.
-/

namespace ScriptHeap

/-! ### What is in use -/

/-- A record with this body keeps the record at `y` alive: an object through the slots in use, a
native record through what its payload reports. -/
def Body.RefersTo (b : Body) (y : RecordId) : Prop :=
  match b with
  | .object o => ∃ i < o.count, o.slotAt i = some y
  | .native (.closure this scope _) => this = some y ∨ y ∈ scope
  | .native (.returned value) => value = some y
  | .native (.thrown value _) => y = value
  | .native (.probe _ refs) => y ∈ refs
  | _ => False

lemma Body.mem_references {b : Body} {y : RecordId} : y ∈ b.references ↔ b.RefersTo y := by
  cases b with
  | object o => exact Object.mem_references
  | native payload =>
    cases payload <;> simp [references, RefersTo, Payload.references]
  | _ => simp [references, RefersTo]

namespace Heap

open Space

/-- The heap itself keeps the record at `id` alive: it is the global object or in a slot of it, a
frame holds it, it is the result or the exception, or an initializer that has not run yet. -/
def Holds (h : Heap) (id : RecordId) : Prop :=
  id = h.global ∨
  (∃ r o, h.arena.live? h.global = some r ∧ r.body = .object o ∧
    ∃ i < o.count, o.slotAt i = some id) ∨
  (∃ f ∈ h.frames, f.function = some id ∨ f.this = some id ∨ some id ∈ f.locals ∨
    f.result = some id) ∨
  h.result = some id ∨ h.exception = some id ∨ id ∈ h.initializers

lemma mem_frameReferences {h : Heap} {id : RecordId} : id ∈ h.frameReferences ↔
    ∃ f ∈ h.frames, f.function = some id ∨ f.this = some id ∨ some id ∈ f.locals ∨
      f.result = some id := by
  simp only [frameReferences, Frame.references, List.mem_flatMap, List.mem_filterMap, id_eq,
    exists_eq_right, List.mem_append, List.mem_cons, List.not_mem_nil, or_false, or_assoc,
    eq_comm (a := some id)]

/-- **What the heap roots are.** -/
lemma mem_roots {h : Heap} {id : RecordId} : id ∈ h.roots ↔ h.Holds id := by
  have hglobal : id ∈ ((h.arena.object? h.global).map Object.references).getD [] ↔
      ∃ r o, h.arena.live? h.global = some r ∧ r.body = .object o ∧
        ∃ i < o.count, o.slotAt i = some id := by
    unfold Arena.object?
    rcases h.arena.live? h.global with _ | ⟨header, type, body⟩
    · simp
    · cases body with
      | object o => simp [Body.object?, Object.mem_references]
      | _ => simp [Body.object?]
  simp only [roots, Holds, List.mem_append, List.mem_cons, Option.mem_toList, hglobal,
    mem_frameReferences, or_assoc]

/-! ### Requests at the heap -/

lemma live?_relieve {h : Heap} (hs : h.toSpace.Sound) (id : RecordId) :
    h.relieve.arena.live? id = h.arena.live? id := by
  unfold relieve
  split
  · exact live?_prune hs id
  · rfl

lemma live?_checkMemory {h : Heap} (hs : h.toSpace.Sound) :
    Yields checkMemory h fun _ h' => ∀ id, h'.arena.live? id = h.arena.live? id := by
  unfold checkMemory
  rw [yields_bind, yields_modify]
  dsimp only
  rw [yields_bind, yields_get]
  dsimp only
  have hrel := live?_relieve hs
  split
  · rw [yields_bind, yields_modify]
    intro id
    refine Eq.trans ?_ (hrel id)
    unfold degrade
    split <;> rfl
  · intro id
    refine Eq.trans ?_ (hrel id)
    unfold recover
    split <;> rfl

/-- Whether a request succeeds or is refused for memory, it leaves the records that its passes
left. -/
lemma live?_apply_collect [Environment] {h : Heap} (hs : h.toSpace.Sound) (mode : Mode)
    (id : RecordId) :
    (apply (.collect mode) h).2.arena.live? id =
      (h.toSpace.collect mode h.roots).2.arena.live? id := by
  suffices hy : Yields (perform (.collect mode)) h fun _ h' =>
      ∀ id, h'.arena.live? id = (h.toSpace.collect mode h.roots).2.arena.live? id from
    yields_apply.1 hy id
  have hcollect := (passRun_collect hs mode h.roots).sound hs
  unfold perform
  rw [yields_bind]
  unfold collect
  rw [yields_bind, yields_get]
  dsimp only
  rw [yields_bind, yields_set]
  dsimp only
  rw [yields_bind]
  refine Yields.mono (live?_checkMemory (h := { h with
    toSpace := (h.toSpace.collect mode h.roots).2 }) hcollect) fun res h' hl => ?_
  rcases res with e | a <;> exact hl

lemma steady_of_orderly [Environment] {o : HeapOptions} {ops : List Operation}
    (hord : Orderly (fresh o) ops) : (run (fresh o) ops).toSpace.Steady [] :=
  steady_run ops (steady_fresh o).1 hord

/-! ### Quick and full collections -/

/-- **A quick or full collection keeps exactly the right records.** Of the generations up to its
target it keeps those that can be reached from the heap roots, from permanent records or from
records above the target. It keeps all records above the target, and whatever it keeps stays what
it is. The heap roots are what the heap itself holds, and what can be reached is what records refer
to. -/
theorem collect_keeps_reachable [Environment] {o : HeapOptions} {ops : List Operation}
    (hord : Orderly (fresh o) ops) (mode : Mode) (hmode : mode ≠ .smart)
    (hon : (run (fresh o) ops).collector.enabled = true) :
    let h := run (fresh o) ops
    let h' := (apply (.collect mode) h).2
    let target := h.toSpace.requestTarget mode
    (∀ id r, h.arena.live? id = some r → r.header.generation ≤ target →
      (h'.arena.isLive id = true ↔ h.arena.Reaches (h.toSpace.Anchored target h.roots) id)) ∧
    (∀ id r, h.arena.live? id = some r → target < r.header.generation →
      h'.arena.isLive id = true) ∧
    (∀ id q, h'.arena.live? id = some q → ∃ r, h.arena.live? id = some r ∧ q.type = r.type ∧
      q.body = r.body ∧ q.header.permanent = r.header.permanent ∧ q.header.seq = r.header.seq ∧
      q.header.size = r.header.size) ∧
    (∀ id, id ∈ h.roots ↔ h.Holds id) ∧
    ∀ (b : Body) (y : RecordId), y ∈ b.references ↔ b.RefersTo y := by
  intro h h' target
  have hs : h.toSpace.Steady [] := steady_of_orderly hord
  have hlive (id : RecordId) :
      h'.arena.live? id = (h.toSpace.collect mode h.roots).2.arena.live? id :=
    live?_apply_collect hs.toSound mode id
  have hiff {id : RecordId} {r : Record} (hr : h.arena.live? id = some r) :=
    live_collect_iff hs hmode h.roots hon hr
  refine ⟨fun id r hr hg => ?_, fun id r hr hg => ?_, fun id q hq => ?_, fun id => mem_roots,
    fun b y => Body.mem_references⟩
  · rw [Arena.isLive_iff, hlive, hiff hr, forall_prop_of_true hg]
  · rw [Arena.isLive_iff, hlive, hiff hr]
    exact fun hle => absurd hle (not_le.2 hg)
  · rw [hlive] at hq
    obtain ⟨r, hr, e, -⟩ := (passRun_collect hs.toSound mode h.roots).ages hq
    exact ⟨r, hr, Record.type_of_lasting e, Record.body_of_lasting e,
      Record.permanent_of_lasting e, congrArg (fun r => r.header.seq) e,
      congrArg (fun r => r.header.size) e⟩

/-- What the result of the last script refers to survives a quick collection. -/
theorem quick_collect_keeps_child :
    let h := run (fresh (.tuned .balanced)) [.createPlainObject, .createPlainObject,
      .setProperty 1 (-1) (some 2), .setResult (some 1)]
    (apply (.collect .quick) h).2.arena.isLive 2 = true := by
  have hord : Orderly (fresh (.tuned .balanced)) [.createPlainObject, .createPlainObject,
      .setProperty 1 (-1) (some 2), .setResult (some 1)] :=
    ⟨trivial, trivial, trivial, trivial, trivial⟩
  have hkeep := (collect_keeps_reachable hord .quick (by decide) rfl).1
  generalize hh : run (fresh (.tuned .balanced)) [.createPlainObject, .createPlainObject,
      .setProperty 1 (-1) (some 2), .setResult (some 1)] = h at hkeep ⊢
  have htarget : h.toSpace.requestTarget .quick = .new := by subst hh; rfl
  have hroot : (1 : RecordId) ∈ h.roots := by subst hh; decide +kernel
  obtain ⟨r, hr, hchild⟩ : ∃ r, h.arena.live? 1 = some r ∧ 2 ∈ r.body.references := by
    subst hh
    exact ⟨_, rfl, by decide +kernel⟩
  obtain ⟨q, hq, hg⟩ : ∃ q, h.arena.live? 2 = some q ∧ q.header.generation ≤ .new := by
    subst hh
    exact ⟨_, rfl, by decide +kernel⟩
  rw [htarget] at hkeep
  exact (hkeep 2 q hq hg).2 (.step (.base (.inl hroot) hr) hr hchild hq)

/-! ### Smart collections -/

/-- **When a smart collection loses a record in use.** It keeps whatever can be reached from the
heap roots, from permanent records or from eternal ones, and keeps it as it is, exactly if every
pass that it starts with a table known to be full marks what is in use in the generations that the
pass collects. All other passes can trust the tables. What the heap roots are and what records refer
to is spelled out. -/
theorem smart_collect_keeps_iff [Environment] {o : HeapOptions} {ops : List Operation}
    (hord : Orderly (fresh o) ops) :
    let h := run (fresh o) ops
    let h' := (apply (.collect .smart) h).2
    ((∀ id, h.toSpace.InUse h.roots id → ∃ r q, h.arena.live? id = some r ∧
      h'.arena.live? id = some q ∧ q.type = r.type ∧ q.body = r.body) ↔
    ∀ p ∈ h.toSpace.passList .smart h.roots, p.start.collector.overflow = true →
      p.repair = false → p.Keeps h.roots) ∧
    (∀ id, id ∈ h.roots ↔ h.Holds id) ∧
    ∀ (b : Body) (y : RecordId), y ∈ b.references ↔ b.RefersTo y := by
  intro h h'
  have hs : h.toSpace.Steady [] := steady_of_orderly hord
  have hlive (id : RecordId) :
      h'.arena.live? id = (h.toSpace.collect .smart h.roots).2.arena.live? id :=
    live?_apply_collect hs.toSound .smart id
  refine ⟨?_, fun id => mem_roots, fun b y => Body.mem_references⟩
  rw [← collect_keeps_iff hs .smart h.roots]
  refine forall_congr' fun id => forall_congr' fun _ => ?_
  simp only [hlive]
  constructor
  · rintro ⟨-, q, -, hq, -⟩
    exact ⟨q, hq⟩
  · rintro ⟨q, hq⟩
    obtain ⟨r, hr, e, -⟩ := (passRun_collect hs.toSound .smart h.roots).ages hq
    exact ⟨r, q, hr, hq, Record.type_of_lasting e, Record.body_of_lasting e⟩

/-- No room in the root tables, and a quota of one. -/
def cramped : HeapOptions := { HeapOptions.tuned .balanced with workQuota := 1, rootCapacity := 0 }

/-- A frame holds three objects that have survived a collection. The first of them, which is young,
gets the only reference to another young object. -/
def crampedRun : List Operation :=
  [.setAllocGeneration .young, .createPlainObject, .setAllocGeneration .new, .createPlainObject,
    .createPlainObject, .pushFrame ⟨none, none, [some 1, some 2, some 3], none⟩, .collect .full,
    .setAllocGeneration .young, .createPlainObject, .setProperty 1 (-1) (some 4)]

/-- Here the first pass promotes the holder alone and has no room to list it. The second one trusts
the tables and takes the child for garbage. -/
theorem smart_collect_loses_child :
    let h := run (fresh cramped) crampedRun
    h.toSpace.InUse h.roots 4 ∧ (apply (.collect .smart) h).2.arena.isLive 4 = false ∧
      ∃ p ∈ h.toSpace.passList .smart h.roots,
        p.start.collector.overflow = true ∧ p.repair = false ∧ ¬ p.Keeps h.roots := by
  have hord : Orderly (fresh cramped) crampedRun :=
    ⟨trivial, trivial, trivial, trivial, trivial, trivial, nofun, trivial, trivial, trivial,
      trivial⟩
  have hkeep := (smart_collect_keeps_iff hord).1.2
  have hlost : (apply (.collect .smart) (run (fresh cramped) crampedRun)).2.arena.isLive 4
      = false := by cbv
  have hroot : (run (fresh cramped) crampedRun).roots.contains 1 = true := by cbv
  have hchild : ((run (fresh cramped) crampedRun).arena.live? 1).map (·.body.references)
      = some [4] := by cbv
  have hlive : (run (fresh cramped) crampedRun).arena.isLive 4 = true := by cbv
  generalize run (fresh cramped) crampedRun = h at *
  obtain ⟨r, hr, hrefs⟩ := Option.map_eq_some_iff.1 hchild
  obtain ⟨q, hq⟩ := Arena.isLive_iff.1 hlive
  have hparent : h.toSpace.InUse h.roots 1 :=
    .base (.inl (List.contains_iff_mem.1 hroot)) hr
  have huse : h.toSpace.InUse h.roots 4 := .step hparent hr (by simp [hrefs]) hq
  refine ⟨huse, hlost, ?_⟩
  by_contra hall
  push Not at hall
  obtain ⟨-, q', -, hq', -⟩ := hkeep hall 4 huse
  rw [Arena.isLive_iff.2 ⟨q', hq'⟩] at hlost
  cases hlost

/-! ### Between operations -/

/-- **The root tables are in order.** They list exactly the live records whose links say so, once
each, all of them elder than the generation of the table and no more than fit. Unless the tables are
known to need repair, a live record that refers to a younger one is listed for the generation of
that one or for a younger generation, permanent targets excepted. What a record refers to is spelled
out. -/
theorem rootTables_run [Environment] {o : HeapOptions} {ops : List Operation}
    (hord : Orderly (fresh o) ops) :
    let s := (run (fresh o) ops).toSpace
    (∀ g id, id ∈ (s.bucket g).roots ↔
      ∃ r, s.arena.live? id = some r ∧ r.header.rootLinks.contains g = true) ∧
    (∀ g, (s.bucket g).roots.Nodup) ∧
    (∀ g id r, id ∈ (s.bucket g).roots → s.arena.live? id = some r → g < r.header.generation) ∧
    (∀ g, (s.bucket g).roots.length ≤ o.rootCapacity) ∧
    (s.collector.overflow = false → s.collector.pendingFull = false →
      ∀ x r y q, s.arena.live? x = some r → y ∈ r.body.references → s.arena.live? y = some q →
        q.header.permanent = false → q.header.generation < r.header.generation →
        ∃ g ≤ q.header.generation, x ∈ (s.bucket g).roots) ∧
    ∀ (b : Body) (y : RecordId), y ∈ b.references ↔ b.RefersTo y := by
  intro s
  have hs : s.Steady [] := steady_of_orderly hord
  have hcap : s.collector.rootCapacity = o.rootCapacity :=
    (sound_run ops (steady_fresh o).1.toSound).2.trans (steady_fresh o).2
  refine ⟨fun g id => ⟨fun hid => ?_, fun ⟨r, hr, hg⟩ => (hs.listed.mem g id r hr).2 hg⟩,
    hs.listed.nodup, fun g id r hid hr => hs.listed.elder g id r hr hid,
    fun g => hcap ▸ hs.listed.length_le g, fun ho hp x r y q hr hy hq hperm hlt => ?_,
    fun b y => Body.mem_references⟩
  · obtain ⟨r, hr⟩ := (hs.listed.live g id hid).resolve_left not_false
    exact ⟨r, hr, (hs.listed.mem g id r hr).1 hid⟩
  · have hrepair : s.needsRepair = false := by simp [needsRepair, ho, hp]
    have hcross : s.arena.Crosses x y q.header.generation :=
      ⟨r, q, hr, hy, hq, hperm, rfl, hlt⟩
    exact hs.covered hrepair x y _ List.not_mem_nil hcross

/-- An elder holder of a new record is listed. -/
theorem rootTables_store :
    let s := (run (fresh (.tuned .balanced)) [.setAllocGeneration .old, .createPlainObject,
      .setAllocGeneration .new, .createPlainObject, .setProperty 1 (-1) (some 2)]).toSpace
    ∃ g ≤ Gen.new, 1 ∈ (s.bucket g).roots := by
  intro s
  have hord : Orderly (fresh (.tuned .balanced)) [.setAllocGeneration .old, .createPlainObject,
      .setAllocGeneration .new, .createPlainObject, .setProperty 1 (-1) (some 2)] :=
    ⟨trivial, trivial, trivial, trivial, trivial, trivial⟩
  obtain ⟨-, -, -, -, hcovered, -⟩ := rootTables_run hord
  exact hcovered rfl rfl 1 _ 2 _ rfl (by decide +kernel) rfl rfl (by decide +kernel)

/-- **No reference dangles**, not even one that garbage holds. So whatever an operation does next,
no record that is live before refers to the place of a new one. What a record refers to is spelled
out. -/
theorem no_dangling_run [Environment] {o : HeapOptions} {ops : List Operation}
    (hord : Orderly (fresh o) ops) :
    let h := run (fresh o) ops
    (∀ x r y, h.arena.live? x = some r → y ∈ r.body.references → h.arena.isLive y = true) ∧
    (∀ op id, (apply op h).1 = .ok (.record id) ∨
        (h.arena.isLive id = false ∧ (apply op h).2.arena.isLive id = true) →
      h.arena.isLive id = false ∧
        ∀ x r, h.arena.live? x = some r → id ∉ r.body.references) ∧
    ∀ (b : Body) (y : RecordId), y ∈ b.references ↔ b.RefersTo y := by
  intro h
  have hs : h.toSpace.Steady [] := steady_of_orderly hord
  have hclosed (x : RecordId) (r : Record) (y : RecordId) (hr : h.arena.live? x = some r)
      (hy : y ∈ r.body.references) : h.arena.isLive y = true :=
    Arena.isLive_iff.2 (hs.closed x r y hr hy)
  refine ⟨hclosed, fun op id hnew => ?_, fun b y => Body.mem_references⟩
  have hdead : h.arena.isLive id = false := by
    rcases hnew with ha | ⟨hdead, -⟩
    · simp [Arena.isLive, fresh_of_apply hs.toSound op ha]
    · exact hdead
  refine ⟨hdead, fun x r hr hid => ?_⟩
  rw [hclosed x r id hr hid] at hdead
  cases hdead

/-- The record that is allocated after a probe is none that the probe refers to. -/
theorem no_dangling_probe :
    let h := run (fresh (.tuned .balanced)) [.createPlainObject,
      .createNative .native (.probe "probe" [1])]
    h.arena.isLive 1 = true ∧ ∀ x r, h.arena.live? x = some r → 3 ∉ r.body.references := by
  intro h
  have hord : Orderly (fresh (.tuned .balanced)) [.createPlainObject,
      .createNative .native (.probe "probe" [1])] := by
    refine ⟨trivial, fun y hy => ?_, trivial⟩
    obtain rfl := List.mem_singleton.1 hy
    decide +kernel
  obtain ⟨hclosed, hfresh, -⟩ := no_dangling_run hord
  exact ⟨hclosed 2 _ 1 rfl (by decide +kernel), (hfresh .createPlainObject 3 (.inl rfl)).2⟩

end Heap

end ScriptHeap
