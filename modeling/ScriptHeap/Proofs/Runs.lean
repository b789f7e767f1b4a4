import ScriptHeap.Proofs.Cloning

/-!
Runs. Every operation is a sequence of changes, and one of an orderly run a strict one. So a run
keeps the space sound, and an orderly run keeps it steady: records refer to live records only, and
the root tables cover the references to younger records. From this follow the promises that the
heap makes to its host.
-/

namespace ScriptHeap

open Heap Space

variable [Environment]

/-- The operation keeps to the rules of the heap in this state: what it puts into a payload is
live, a deep clone succeeds, and no smart request starts a pass with a table known to be full
unless it repairs the tables. -/
def Operation.Orderly (h : Heap) : Operation → Prop
  | .createNative _ payload => ∀ y ∈ payload.references, h.arena.isLive y = true
  | .setNative _ payload => ∀ y ∈ payload.references, h.arena.isLive y = true
  | .editNative id edit => ∀ p p', ((h.arena.live? id).bind (·.body.payload?)) = some p →
    edit p = some p' → ∀ y ∈ p'.references, y ∈ p.references ∨ h.arena.isLive y = true
  | .cloneObject id deep => deep = true → ∃ answer, (apply (.cloneObject id deep) h).1 = .ok answer
  | .collect mode => mode = .smart → h.toSpace.Calm .smart h.roots
  | .collectIfRequired =>
    (h.collector.required && h.options.demandCollect) = true → h.toSpace.Calm .smart h.roots
  | _ => True

namespace Heap

/-- The collection that the operation asks for. -/
def request? (h : Heap) : Operation → Option Mode
  | .collect mode => some mode
  | .collectIfRequired =>
    if h.collector.required && h.options.demandCollect then some .smart else none
  | _ => none

/-- What the host asks for by the operation. -/
def Asks (h : Heap) (op : Operation) : Command → Prop
  | .collect => ∃ mode, h.request? op = some mode
  | .allocateInto => ∃ g, op = .setAllocGeneration g

/-- Each operation of the run keeps to the rules. -/
def Orderly : Heap → List Operation → Prop
  | _, [] => True
  | h, op :: ops => op.Orderly h ∧ Orderly (apply op h).2 ops

lemma yields_apply {op : Operation} {h : Heap} {Q : Except Failure Answer → Heap → Prop} :
    Yields (perform op) h Q ↔ Q (apply op h).1 (apply op h).2 := by
  unfold Yields apply EStateM.run
  rcases perform op h with ⟨a, h'⟩ | ⟨e, h'⟩ <;> rfl

omit [Environment] in
lemma isLive_held {h : Heap} {y : RecordId} (hy : h.arena.isLive y = true) : h.Held y :=
  .inl (Arena.isLive_iff.1 hy)

variable {strict : Prop} {may : Command → Prop} {h : Heap}

lemma leads_map {α β : Type} {m : HeapM α} {f : α → β} (hm : Leads strict may m h) :
    Leads strict may (f <$> m) h := yields_map.2 hm

lemma leads_then {α β : Type} {m : HeapM α} {b : β} (hm : Leads strict may m h) :
    Leads strict may (do let _ ← m; return b) h := hm.bind fun _ _ => leads_pure b

/-- **Every operation but a clone leads to changes that leave nothing to note.** -/
theorem leads_perform (op : Operation) (hord : strict → op.Orderly h)
    (hclone : ∀ id deep, op ≠ .cloneObject id deep) : Leads strict (h.Asks op) (perform op) h := by
  cases op with
  | defineType d => exact .single (.define d)
  | addStandardSpace space =>
    refine leads_then ?_
    unfold Leads Heap.addStandardSpace
    rw [yields_modify]
    split <;> exact .of_eq rfl rfl
  | allocateRecord type extra => exact leads_map (leads_allocateRecord type extra)
  | createObject type extra => exact leads_map (leads_createObject type extra)
  | createPlainObject => exact leads_map (leads_createObject .object 0)
  | createString text =>
    exact leads_map (leads_allocateBody .string 0 (fits_builtin rfl rfl) (fun o e => by cases e)
      rfl)
  | createNumber bits =>
    exact leads_map (leads_allocateBody .number 0 (fits_builtin rfl rfl) (fun o e => by cases e)
      rfl)
  | createBoolean b =>
    exact leads_map (leads_allocateBody .boolean 0 (fits_builtin rfl rfl) (fun o e => by cases e)
      rfl)
  | createNative type payload =>
    exact leads_map (leads_createNative type payload fun hs y hy => isLive_held (hord hs y hy))
  | setNative id payload =>
    exact leads_then (leads_setNative id payload fun hs y hy => isLive_held (hord hs y hy))
  | editNative id edit =>
    refine leads_map (leads_editNative id edit fun hs r p p' hr hb he y hy => ?_)
    refine (hord hs p p' ?_ he y hy).elim (fun hy => .inr ⟨id, r, hr, ?_⟩) isLive_held
    · rw [hr, Option.bind_some, hb]
      rfl
    · rw [hb]
      exact hy
  | cloneObject id deep => exact absurd rfl (hclone id deep)
  | setProperty id slot v => exact leads_map (leads_setProperty id slot v)
  | setPropertyName id slot name => exact leads_map (leads_setPropertyName id slot name)
  | setPropertyByName id name v => exact leads_map (leads_setPropertyByName id name v)
  | deleteProperty id slot => exact leads_then (leads_deleteProperty id slot)
  | deletePropertyByName id name => exact leads_then (leads_deletePropertyByName id name)
  | growObject id count => exact leads_then (leads_growObject id count)
  | insertSlots id n offset => exact leads_then (leads_insertSlots id n offset)
  | removeSlot id slot compact => exact leads_then (leads_removeSlot id slot compact)
  | editFrame edit =>
    refine leads_map ?_
    unfold Heap.editFrame
    refine leads_get ?_
    split
    · exact .refl _
    · split <;> exact .of_eq rfl rfl
  | collect mode =>
    refine (leads_collect mode ⟨mode, rfl⟩ fun hs => ?_).bind fun _ _ => leads_pure _
    by_cases hmode : mode = .smart
    · exact hmode ▸ hord hs hmode
    · exact calm_of_ne_smart hmode h.roots
  | collectIfRequired =>
    exact leads_map (leads_collectIfRequired (fun hdue => ⟨.smart, if_pos hdue⟩) hord)
  | enableCollector on => exact leads_map (.single (.enable on))
  | setAllocGeneration g => exact leads_map (.single (.allocateInto g ⟨g, rfl⟩))
  | makePermanent id => exact leads_then (leads_makePermanent id)
  | makeTransient id => exact leads_then (leads_makeTransient id)
  | printReport => exact leads_then (.single (.emit _))
  | _ => exact .of_eq rfl rfl

/-- **Every operation is a sequence of changes under the limit**, whether it succeeds or is refused.
An orderly one leaves nothing to note. -/
theorem evolves_apply (hs : h.toSpace.Sound) (op : Operation) (hord : strict → op.Orderly h) :
    ∃ P, Evolves strict (h.Asks op) [] P h (apply op h).2 ∧ (strict → P = []) := by
  by_cases hclone : ∃ id deep, op = .cloneObject id deep
  · obtain ⟨id, deep, rfl⟩ := hclone
    have hy : Yields (perform (.cloneObject id deep)) h fun res h' => ∃ P,
        Evolves strict (h.Asks (.cloneObject id deep)) [] P h h' ∧
          (deep = false ∨ (∃ answer, res = .ok answer) → P = []) := by
      refine yields_map.2 ((evolves_cloneObject strict hs id deep).mono ?_)
      rintro (e | copy) h' ⟨P, hP, hnone, -⟩
      · refine ⟨P, hP.mono nofun, fun hok => hnone (.inl (hok.resolve_right ?_))⟩
        rintro ⟨_, he⟩
        cases he
      · exact ⟨P, hP.mono nofun, fun _ => hnone (.inr ⟨copy, rfl⟩)⟩
    obtain ⟨P, hP, hnone⟩ := yields_apply.1 hy
    refine ⟨P, hP, fun hstrict => hnone ?_⟩
    rcases hdeep : deep with _ | _
    · exact .inl rfl
    · exact .inr (hdeep ▸ hord hstrict hdeep)
  · refine ⟨[], yields_apply.1 (leads_perform op hord fun id deep e => hclone ⟨id, deep, e⟩),
      fun _ => rfl⟩

/-! ### New records -/

/-- If the computation succeeds it tells the place of a record that was not live. -/
def TellsFresh (m : HeapM RecordId) (h : Heap) : Prop :=
  Yields m h fun res _ => ∀ id, res = .ok id → h.arena.live? id = none

lemma tellsFresh_allocateBody (hs : h.toSpace.Sound) (type : TypeId) (extra : Nat) (body : Body) :
    TellsFresh (allocateBody type extra body) h := by
  refine yields_allocateBody (fun info _ _ id he => ?_) fun e h' _ _ id he => by cases he
  obtain rfl := Except.ok.inj he
  exact (births_allocate hs.store info extra body).fresh

omit [Environment] in
lemma tellsFresh_get {f : Heap → HeapM RecordId} (hf : TellsFresh (f h) h) :
    TellsFresh (get >>= f) h := hf

omit [Environment] in
lemma tellsFresh_refuse (f : Fault) : TellsFresh (refuse f) h := fun id he => by cases he

lemma tellsFresh_createObject (hs : h.toSpace.Sound) (type : TypeId) (extra : Nat) :
    TellsFresh (createObject type extra) h := by
  unfold createObject
  refine tellsFresh_get ?_
  split
  · exact tellsFresh_refuse _
  · exact tellsFresh_allocateBody hs _ _ _

lemma tellsFresh_allocateRecord (hs : h.toSpace.Sound) (type : TypeId) (extra : Nat) :
    TellsFresh (allocateRecord type extra) h := by
  unfold allocateRecord
  refine tellsFresh_get ?_
  split
  · exact tellsFresh_refuse _
  · exact tellsFresh_allocateBody hs _ _ _

lemma tellsFresh_createNative (hs : h.toSpace.Sound) (type : TypeId) (payload : Payload) :
    TellsFresh (createNative type payload) h := by
  unfold createNative
  refine tellsFresh_get ?_
  split
  · exact tellsFresh_refuse _
  · unfold TellsFresh
    rw [yields_bind]
    refine Yields.mono (tellsFresh_allocateBody hs type 0 (.native payload)) fun res h' hf => ?_
    rcases res with e | id
    · exact fun id he => by cases he
    · exact fun j he => Except.ok.inj he ▸ hf id rfl

omit [Environment] in
lemma answers_map {α : Type} {m : HeapM α} {f : α → Answer} {Q : Answer → Prop}
    (hf : ∀ a, Q (f a)) :
    Yields (f <$> m) h fun res _ => ∀ answer, res = .ok answer → Q answer := by
  rw [yields_map]
  unfold Yields
  split
  · exact fun answer he => Except.ok.inj he ▸ hf _
  · exact fun answer he => by cases he

omit [Environment] in
lemma answers_bind {α : Type} {m : HeapM α} {f : α → Answer} {Q : Answer → Prop}
    (hf : ∀ a, Q (f a)) : Yields (do let a ← m; return f a) h fun res _ =>
      ∀ answer, res = .ok answer → Q answer := by
  rw [yields_bind]
  unfold Yields
  split
  · exact fun answer he => Except.ok.inj he ▸ hf _
  · exact fun answer he => by cases he

omit [Environment] in
lemma answers_fresh {m : HeapM RecordId} (hm : TellsFresh m h) : Yields (Answer.record <$> m) h
    fun res _ => ∀ answer, res = .ok answer → ∀ id, answer = .record id →
      h.arena.live? id = none := by
  rw [yields_map]
  refine Yields.mono hm fun res _ hf => ?_
  rintro answer he id rfl
  rcases res with e | j
  · cases he
  · obtain rfl := Answer.record.inj (Except.ok.inj he)
    exact hf j rfl

/-- **An operation never tells the place of a record that was live**, wherever it got the place
from. -/
theorem fresh_of_apply (hs : h.toSpace.Sound) (op : Operation) {id : RecordId}
    (ha : (apply op h).1 = .ok (.record id)) : h.arena.live? id = none := by
  suffices hy : Yields (perform op) h fun res _ => ∀ answer, res = .ok answer →
      ∀ id, answer = .record id → h.arena.live? id = none from
    yields_apply.1 hy _ ha id rfl
  cases op with
  | allocateRecord type extra => exact answers_fresh (tellsFresh_allocateRecord hs type extra)
  | createObject type extra => exact answers_fresh (tellsFresh_createObject hs type extra)
  | createPlainObject => exact answers_fresh (tellsFresh_createObject hs .object 0)
  | createString text => exact answers_fresh (tellsFresh_allocateBody hs _ _ _)
  | createNumber bits => exact answers_fresh (tellsFresh_allocateBody hs _ _ _)
  | createBoolean b => exact answers_fresh (tellsFresh_allocateBody hs _ _ _)
  | createNative type payload => exact answers_fresh (tellsFresh_createNative hs type payload)
  | cloneObject id deep =>
    exact answers_fresh ((evolves_cloneObject False hs id deep).mono fun _ _ ⟨_, _, _, hf⟩ => hf)
  | _ => first | exact answers_map (by simp) | exact answers_bind (by simp)

/-! ### Runs -/

lemma steady_freshSpace (o : HeapOptions) : (Space.fresh o).Steady [] := by
  have hnone (id : RecordId) : (Space.fresh o).arena.live? id = none := by
    simp [Space.fresh, Store.empty, Arena.empty, Arena.live?, Arena.get?]
  have hbucket (g : Gen) : (Space.fresh o).bucket g = .empty :=
    Vector.getElem_replicate g.isLt
  have hbinned : (Space.fresh o).Binned := by
    refine ⟨fun g id => ?_, fun g => ?_⟩
    · simp [hnone, hbucket, Bucket.empty]
    · simp [hbucket, Bucket.empty]
  have hlisted : (Space.fresh o).Listed fun _ => False := by
    refine ⟨fun g id r hr => ?_, fun g id r hr => ?_, fun g id hid => ?_, fun g => ?_, fun g => ?_⟩
    · simp [hnone] at hr
    · simp [hnone] at hr
    · simp [hbucket, Bucket.empty] at hid
    · simp [hbucket, Bucket.empty]
    · simp [hbucket, Bucket.empty]
  have hunmarked : (Space.fresh o).Unmarked := fun id r hr => by simp [hnone] at hr
  have hclosed : (Space.fresh o).arena.Closed := fun x r y hr => by simp [hnone] at hr
  have hcovered : (Space.fresh o).Covered [] := by
    intro _ x y g _ hcross
    obtain ⟨r, hr, -⟩ := hcross.holder
    simp [hnone] at hr
  refine ⟨⟨Store.sound_empty _, hbinned, hlisted, hunmarked, rfl, rfl, fun id r o hr => ?_⟩,
    hclosed, hcovered⟩
  simp [hnone] at hr

lemma typed_freshSpace (o : HeapOptions) : (Space.fresh o).Typed := by
  have hget (i : TypeId) : (Space.fresh o).types.get? i =
      (TypeRegistry.builtinDefs[i]?).map (TypeInfo.make i) :=
    get?_defineAll TypeRegistry.builtinDefs .empty i
  refine ⟨fun i info hi => ?_, fun i d hd => ⟨.make i d, ?_, rfl⟩, fun id r hr => ?_⟩
  · rw [hget] at hi
    obtain ⟨d, -, rfl⟩ := Option.map_eq_some_iff.1 hi
    rfl
  · rw [hget, hd, Option.map_some]
  · simp [Space.fresh, Store.empty, Arena.empty, Arena.live?, Arena.get?] at hr

/-- A fresh heap comes about by allocating the global object, without regard to a limit. -/
lemma changes_fresh (o : HeapOptions) : ∃ s, Changes True (· = .allocateInto) HeapOptions.unlimited
    ⟨[], Space.fresh o⟩ ⟨[], s⟩ ∧ Quiet s (Heap.fresh o).toSpace ∧
    Retains s (Heap.fresh o).toSpace := by
  let type := TypeInfo.make TypeId.object TypeRegistry.objectDef
  let body : Body := .object (.empty true)
  let s1 : Space := { Space.fresh o with
    collector := { (Space.fresh o).collector with allocGeneration := .eternal } }
  let s2 : Space := (s1.allocate type 0 body).2
  let s3 : Space := s2.modifyHeader (s1.allocate type 0 body).1.id ({ · with permanent := true })
  have hrefs : body.references = [] := Object.references_empty true
  have hbody : ∀ o, body = .object o → o.Sound := fun o e =>
    Body.object.inj e ▸ Object.sound_empty true
  have hfits (ht : s1.Typed) : body.fits type.kind = true := rfl
  have hadmits : s1.Admits HeapOptions.unlimited TypeId.object
      (type.instanceSize + 0 + body.storageBytes) := .inr (Nat.min_le_right _ _)
  have h1 : Change True (· = .allocateInto) HeapOptions.unlimited ⟨[], Space.fresh o⟩ ⟨[], s1⟩ :=
    .allocateInto .eternal rfl
  have h2 : Change True (· = .allocateInto) HeapOptions.unlimited ⟨[], s1⟩ ⟨[], s2⟩ :=
    .allocate 0 body (by rfl) hfits hadmits hbody (by simp [hrefs]) (by simp) (by simp [hrefs])
  have hpin : Change True (· = .allocateInto) HeapOptions.unlimited ⟨[], s2⟩ ⟨[], s3⟩ := .pin _
  have hc : Changes True (· = .allocateInto) HeapOptions.unlimited ⟨[], Space.fresh o⟩ ⟨[], s3⟩ :=
    ((Changes.single h1).trans (.single h2)).trans (.single hpin)
  exact ⟨s3, hc, ⟨rfl, rfl, rfl, rfl, rfl, rfl, rfl, rfl⟩, ⟨.refl _, rfl, rfl, rfl⟩⟩

/-- A fresh heap holds the global object alone. -/
lemma steady_fresh (o : HeapOptions) : (Heap.fresh o).toSpace.Steady [] ∧
    (Heap.fresh o).collector.rootCapacity = o.rootCapacity := by
  have hs := steady_freshSpace o
  obtain ⟨s, hc, hq, -⟩ := changes_fresh o
  have h := hc.steady trivial hs
  exact ⟨⟨hq.sound h.toSound, hq.arena ▸ h.closed, hq.covered h.covered⟩,
    hq.rootCapacity.trans (hc.sound hs.toSound).2⟩

/-- A fresh heap comes about from nothing by a turnover. -/
lemma turnover_fresh (o : HeapOptions) :
    Turnover HeapOptions.unlimited (Space.fresh o) (Heap.fresh o).toSpace := by
  obtain ⟨s, hc, -, hr⟩ := changes_fresh o
  exact (hc.turnover (steady_freshSpace o).toSound).trans (.retain hr)

/-- **Any run keeps the space sound.** -/
theorem sound_run (ops : List Operation) (hs : h.toSpace.Sound) : (run h ops).toSpace.Sound ∧
    (run h ops).collector.rootCapacity = h.collector.rootCapacity := by
  induction ops generalizing h with
  | nil => exact ⟨hs, rfl⟩
  | cons op ops ih =>
    obtain ⟨P, hP, -⟩ := evolves_apply hs op False.elim
    obtain ⟨hs', hcap⟩ := hP.changes.sound hs
    obtain ⟨hs'', hcap'⟩ := ih hs'
    exact ⟨hs'', hcap'.trans hcap⟩

/-- **What a run does to the stock of records**, it does under the limit of the heap. -/
theorem turnover_run (ops : List Operation) (hs : h.toSpace.Sound) :
    (run h ops).options = h.options ∧
      Turnover h.options.maxMemory h.toSpace (run h ops).toSpace := by
  induction ops generalizing h with
  | nil => exact ⟨rfl, .refl _⟩
  | cons op ops ih =>
    obtain ⟨P, hP, -⟩ := evolves_apply hs op False.elim
    obtain ⟨ho, ht⟩ := ih (hP.changes.sound hs).1
    rw [hP.options] at ho ht
    exact ⟨ho, (hP.changes.turnover hs).trans ht⟩

/-- A run from a fresh heap keeps the heap sound, its types and which types have a pool. -/
lemma sound_typed_run (o : HeapOptions) (ops : List Operation) :
    (run (Heap.fresh o) ops).toSpace.Sound ∧ (run (Heap.fresh o) ops).toSpace.Typed ∧
      (run (Heap.fresh o) ops).pools.maxTypes = o.maxTypes := by
  have hs := (steady_fresh o).1.toSound
  have hstart := (turnover_fresh o).kept (steady_freshSpace o).toSound.store (typed_freshSpace o)
  have hrun := (turnover_run ops hs).2.kept hs.store hstart.2.1
  exact ⟨(sound_run ops hs).1, hrun.2.1, hrun.2.2.trans hstart.2.2⟩

/-- **An orderly run keeps the space steady.** -/
theorem steady_run (ops : List Operation) (hs : h.toSpace.Steady []) (hord : Orderly h ops) :
    (run h ops).toSpace.Steady [] := by
  induction ops generalizing h with
  | nil => exact hs
  | cons op ops ih =>
    obtain ⟨hop, hrest⟩ := hord
    obtain ⟨P, hP, hnone⟩ := evolves_apply hs.toSound op fun _ : True => hop
    obtain rfl := hnone trivial
    exact ih (hP.changes.steady trivial hs) hrest

end Heap

end ScriptHeap
