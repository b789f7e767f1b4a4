import Mathlib
import ScriptHeap.Proofs.Charge
import ScriptHeap.Proofs.PassChain
import ScriptHeap.Proofs.Refusals

/-!
Memory pressure. A request prunes the pools at the redline and fails at the hard limit, and it alone
decides whether the heap is degraded. Redline and limit may be in either order, so a request may
prune without failing, or fail without a pruning. A degraded heap above its redline lives on what
its pools provide.
-/

namespace ScriptHeap

open Heap Space

namespace Store

/-- After a pruning no record waits. -/
lemma waiting_prune (s : Store) : s.prune.2.pools.waiting = [] := by
  simp [Store.prune, TypePools.waiting, TypePool.clear, List.flatMap_map]

/-- What is pooled waits in a pool. -/
lemma Sound.mem_waiting_of_pooled {s : Store} (hs : s.Sound) {id : RecordId} {k : Husk}
    (hk : s.arena.get? id = some (.pooled k)) : id ∈ s.pools.waiting :=
  TypePools.mem_waiting.2 ⟨k.type, (hs.mem_free _ _).2 ⟨k, hk, rfl⟩⟩

end Store

namespace Heap

variable {h : Heap}

/-! ### The policy -/

section Policy

@[simp] lemma usedMemory_degrade (h : Heap) : h.degrade.usedMemory = h.usedMemory := by
  unfold degrade
  split <;> rfl

@[simp] lemma toStore_degrade (h : Heap) : h.degrade.toStore = h.toStore := by
  unfold degrade
  split <;> rfl

@[simp] lemma degraded_degrade (h : Heap) : h.degrade.degraded = true := by
  unfold degrade
  split
  · next hd => exact hd
  · rfl

@[simp] lemma usedMemory_recover (h : Heap) : h.recover.usedMemory = h.usedMemory := by
  unfold recover
  split <;> rfl

@[simp] lemma toStore_recover (h : Heap) : h.recover.toStore = h.toStore := by
  unfold recover
  split <;> rfl

lemma degraded_recover (h : Heap) :
    h.recover.degraded = true ↔ h.degraded = true ∧ h.options.redline ≤ h.usedMemory := by
  unfold recover
  split
  · next hd =>
    rw [Bool.and_eq_true, decide_eq_true_eq] at hd
    simp only [Bool.false_eq_true, false_iff, not_and, Nat.not_le]
    exact fun _ => hd.2
  · next hd =>
    rw [Bool.and_eq_true, decide_eq_true_eq] at hd
    exact ⟨fun hdeg => ⟨hdeg, Nat.not_lt.1 fun hlt => hd ⟨hdeg, hlt⟩⟩, And.left⟩

lemma degraded_relieve (h : Heap) : h.relieve.degraded = h.degraded := by
  unfold relieve
  split <;> rfl

lemma options_relieve (h : Heap) : h.relieve.options = h.options := by
  unfold relieve
  split <;> rfl

/-- Whether or not it was pruned, a heap at its redline has empty pools then. -/
lemma waiting_relieve (h : Heap) (hline : h.options.redline ≤ h.relieve.usedMemory) :
    h.relieve.pools.waiting = [] := by
  unfold relieve at hline ⊢
  split at hline
  · next hred =>
    rw [if_pos hred]
    exact h.toStore.waiting_prune
  · next hred => exact absurd hline hred

/-- The heap once the policy has been applied to it. -/
def settle (h : Heap) : Heap :=
  if h.exhausted then h.degrade.withFault (.memoryExceeded h.options.maxMemory) else h.recover

lemma run_checkMemory (h : Heap) : checkMemory.run h =
    if h.relieve.exhausted then .error .outOfMemory h.relieve.settle
    else .ok () h.relieve.settle := by
  have hrun : checkMemory.run h = (if h.relieve.exhausted then (do
      modify degrade
      refuse (.memoryExceeded h.relieve.options.maxMemory) : HeapM Unit)
      else modify recover).run h.relieve := rfl
  rw [hrun, settle]
  cases h.relieve.exhausted <;> rfl

variable [Environment]

lemma run_collect (mode : Mode) (h : Heap) : (collect mode).run h =
    if (h.attended mode).exhausted then .error .outOfMemory (h.attended mode).settle
    else .ok (h.toSpace.collect mode h.roots).1 (h.attended mode).settle := by
  have hrun : (collect mode).run h = (do
      checkMemory
      return (h.toSpace.collect mode h.roots).1 : HeapM CollectInfo).run
        { h with toSpace := (h.toSpace.collect mode h.roots).2 } := rfl
  have hattended : relieve { h with toSpace := (h.toSpace.collect mode h.roots).2 } =
      h.attended mode := rfl
  rw [hrun, EStateM.run_bind, run_checkMemory, hattended]
  cases (h.attended mode).exhausted <;> rfl

/-- The outcome of a request, and the heap afterwards. -/
lemma apply_request_eq {op : Operation} {mode : Mode} (hreq : h.request? op = some mode) :
    apply op h = (if (h.attended mode).exhausted then .error .outOfMemory
      else .ok (.info (some (h.toSpace.collect mode h.roots).1)), (h.attended mode).settle) := by
  have hrun : (perform op).run h = (do
      let info ← collect mode
      return .info (some info) : HeapM Answer).run h := by
    cases op with
    | collect mode' =>
      obtain rfl := Option.some.inj hreq
      rfl
    | collectIfRequired =>
      have hdue : (if h.collector.required && h.options.demandCollect then some Mode.smart
        else none) = some mode := hreq
      split at hdue
      · next hdue' =>
        obtain rfl := Option.some.inj hdue
        have hsome : collectIfRequired.run h = (do
            let info ← collect .smart
            return some info : HeapM (Option CollectInfo)).run h := by
          unfold collectIfRequired
          rw [run_get_bind, if_pos hdue']
        unfold perform
        rw [EStateM.run_map, hsome, EStateM.run_bind, EStateM.run_bind]
        cases (collect .smart).run h <;> rfl
      · cases hdue
    | _ => cases hreq
  rw [EStateM.run_bind, run_collect] at hrun
  unfold apply
  rw [hrun]
  cases (h.attended mode).exhausted <;> rfl

omit [Environment] in
lemma settle_spec (h : Heap) : h.settle.usedMemory = h.usedMemory ∧ h.settle.toStore = h.toStore ∧
    (h.settle.degraded = true ↔
      h.exhausted = true ∨ h.degraded = true ∧ h.options.redline ≤ h.usedMemory) := by
  unfold settle
  split
  · next hex => exact ⟨usedMemory_degrade h, toStore_degrade h,
      iff_of_true (degraded_degrade h) (.inl hex)⟩
  · next hex =>
    exact ⟨usedMemory_recover h, toStore_recover h,
      (degraded_recover h).trans (or_iff_right hex).symm⟩

/-- **What a request comes to.** It fails if and only if the heap is at its hard limit afterwards,
it leaves nothing pooled if the heap is at its redline afterwards, and it decides on the
degradation. -/
theorem request_policy (hs : h.toSpace.Sound) {op : Operation} {mode : Mode}
    (hreq : h.request? op = some mode) :
    let h' := (apply op h).2
    ((apply op h).1 = if h.options.maxMemory ≤ h'.usedMemory then .error .outOfMemory
      else .ok (.info (some (h.toSpace.collect mode h.roots).1))) ∧
    (h.options.redline ≤ h'.usedMemory →
      h'.pools.pooledCount = 0 ∧ ∀ id k, h'.arena.get? id ≠ some (.pooled k)) ∧
    (h'.degraded = true ↔ h.options.maxMemory ≤ h'.usedMemory ∨
      h.degraded = true ∧ h.options.redline ≤ h'.usedMemory) := by
  intro h'
  have happly := apply_request_eq hreq
  have hsound : h'.toSpace.Sound := (sound_run [op] hs).1
  have hafter : h' = (h.attended mode).settle := congrArg Prod.snd happly
  have hoptions : (h.attended mode).options = h.options := options_relieve _
  have hbefore : (h.attended mode).degraded = h.degraded := degraded_relieve _
  obtain ⟨hused, hstore, hdegraded⟩ := settle_spec (h.attended mode)
  rw [← hafter] at hused hstore hdegraded
  have hexhausted : (h.attended mode).exhausted = true ↔ h.options.maxMemory ≤ h'.usedMemory := by
    rw [exhausted, hoptions, hused, decide_eq_true_iff]
  refine ⟨?_, fun hline => ?_, ?_⟩
  · rw [happly]
    simp only [hexhausted]
  · have hempty : h'.pools.waiting = [] := by
      rw [hstore]
      refine waiting_relieve _ ?_
      rw [hused] at hline
      exact hline
    refine ⟨congrArg List.length hempty, fun id k hk => ?_⟩
    have hwaits := hsound.store.mem_waiting_of_pooled hk
    rw [hempty] at hwaits
    cases hwaits
  · rw [hdegraded, hexhausted, hbefore, hoptions, hused]

end Policy

/-! ### Operations that leave the policy alone -/

/-- Whatever the outcome, nothing has changed but the space and the last fault. -/
def Confined {α : Type} (m : HeapM α) (h : Heap) : Prop :=
  Yields m h fun _ h' => ∃ s f, h' = { h with toSpace := s, fault := f }

section Confined

variable {α β : Type} {m : HeapM α}

lemma Confined.bind {f : α → HeapM β} (hm : Confined m h) (hf : ∀ a h', Confined (f a) h') :
    Confined (m >>= f) h := by
  unfold Confined
  rw [yields_bind]
  refine Yields.mono hm fun res h' hc => ?_
  rcases res with e | a
  · exact hc
  · obtain ⟨s, fault, rfl⟩ := hc
    exact hf a _

lemma Confined.map {f : α → β} (hm : Confined m h) : Confined (f <$> m) h := yields_map.2 hm

lemma confined_pure (a : α) : Confined (pure a) h := ⟨h.toSpace, h.fault, rfl⟩

lemma confined_throw (e : Failure) : Confined (throw e : HeapM α) h := ⟨h.toSpace, h.fault, rfl⟩

lemma confined_refuse (f : Fault) : Confined (refuse f : HeapM α) h := ⟨h.toSpace, some f, rfl⟩

lemma confined_get {f : Heap → HeapM α} (hf : Confined (f h) h) : Confined (get >>= f) h := hf

lemma confined_set (s : Space) : Confined (set { h with toSpace := s }) h := ⟨s, h.fault, rfl⟩

lemma confined_modifySpace (f : Space → Space) : Confined (modifySpace f) h :=
  ⟨f h.toSpace, h.fault, rfl⟩

lemma Confined.thenReturn {b : β} (hm : Confined m h) : Confined (do let _ ← m; return b) h :=
  hm.bind fun _ _ => confined_pure b

variable [Environment]

lemma confined_allocateBody (type : TypeId) (extra : Nat) (body : Body) :
    Confined (allocateBody type extra body) h := by
  unfold allocateBody
  refine confined_get ?_
  split
  · exact confined_refuse _
  · dsimp only
    split
    · exact (confined_set _).thenReturn
    · exact confined_refuse _

lemma confined_allocateRecord (type : TypeId) (extra : Nat) :
    Confined (allocateRecord type extra) h := by
  unfold allocateRecord
  refine confined_get ?_
  split
  · exact confined_refuse _
  · exact confined_allocateBody _ _ _

lemma confined_createNative (type : TypeId) (payload : Payload) :
    Confined (createNative type payload) h := by
  unfold createNative
  refine confined_get ?_
  split
  · exact confined_refuse _
  · exact (confined_allocateBody _ _ _).bind fun _ _ => (confined_modifySpace _).thenReturn

omit [Environment] in
lemma confined_setNative (id : RecordId) (payload : Payload) :
    Confined (setNative id payload) h := by
  unfold setNative
  refine confined_get ?_
  dsimp only
  split
  · exact confined_modifySpace _
  · exact confined_refuse _

omit [Environment] in
lemma confined_editNative (id : RecordId) (edit : Payload → Option Payload) :
    Confined (editNative id edit) h := by
  unfold editNative
  refine confined_get ?_
  split
  · exact confined_pure _
  · exact (confined_modifySpace _).thenReturn

lemma confined_copyRecord (id : RecordId) : Confined (copyRecord id) h := by
  unfold copyRecord
  refine confined_get ?_
  split
  · exact confined_refuse _
  · split
    · exact (confined_allocateBody _ _ _).bind fun _ _ => (confined_modifySpace _).thenReturn
    · exact confined_refuse _

lemma confined_cloneSlot (copy : RecordId) (c : Cloning) (slot : Nat) (child : RecordId) :
    Confined (cloneSlot copy c slot child) h := by
  unfold cloneSlot
  refine confined_get ?_
  split
  · exact confined_pure _
  · split
    · exact Confined.thenReturn (confined_modifySpace _)
    · exact (confined_copyRecord _).bind fun _ _ => Confined.thenReturn (confined_modifySpace _)

lemma confined_cloneSlots (copy : RecordId) (values : List Slot) (c : Cloning) :
    Confined (cloneSlots copy values c) h := by
  unfold cloneSlots
  induction values.zipIdx generalizing c h with
  | nil => exact confined_pure _
  | cons entry entries ih =>
    obtain ⟨v, slot⟩ := entry
    rw [List.foldlM_cons]
    refine Confined.bind ?_ fun c' h' => ih c'
    cases v with
    | some child => exact confined_cloneSlot copy c slot child
    | none => exact confined_pure c

lemma confined_settleCopies (fuel : Nat) (c : Cloning) : Confined (settleCopies fuel c) h := by
  induction fuel generalizing c h with
  | zero => exact confined_pure _
  | succ fuel ih =>
    unfold settleCopies
    split
    · exact confined_pure _
    · refine confined_get ?_
      split
      · exact confined_throw _
      · exact (confined_cloneSlots _ _ _).bind fun c' h' => ih c'

lemma confined_cloneObject (id : RecordId) (deep : Bool) : Confined (cloneObject id deep) h := by
  unfold cloneObject
  refine confined_get ((confined_copyRecord id).bind fun copy h' => ?_)
  split
  · exact (confined_settleCopies _ _).bind fun _ _ => (confined_modifySpace _).thenReturn
  · exact (confined_modifySpace _).thenReturn

omit [Environment] in
lemma confined_editObject (id : RecordId) (f : Object → Except Failure (α × Object)) :
    Confined (editObject id f) h := by
  unfold editObject
  refine confined_get ?_
  split
  · exact confined_refuse _
  · exact confined_refuse _
  · split
    · exact confined_refuse _
    · exact (confined_set _).thenReturn

omit [Environment] in
lemma confined_reserve (id : RecordId) (count : Nat) : Confined (reserve id count) h := by
  unfold reserve
  refine confined_get ?_
  split
  · exact confined_refuse _
  · exact confined_pure _

omit [Environment] in
lemma confined_requireLive (v : Slot) : Confined (requireLive v) h := by
  unfold requireLive
  split
  · refine confined_get ?_
    split
    · exact confined_refuse _
    · exact confined_pure _
  · exact confined_pure _

omit [Environment] in
lemma confined_makePermanent (id : RecordId) : Confined (makePermanent id) h := by
  unfold makePermanent
  refine confined_get ?_
  split
  · exact confined_modifySpace _
  · exact confined_refuse _

omit [Environment] in
lemma confined_makeTransient (id : RecordId) : Confined (makeTransient id) h := by
  unfold makeTransient
  refine confined_get ?_
  split
  · exact confined_refuse _
  · split
    · exact confined_modifySpace _
    · exact confined_pure _

lemma confined_createObject (type : TypeId) (extra : Nat) :
    Confined (createObject type extra) h := by
  unfold createObject
  refine confined_get ?_
  split
  · exact confined_refuse _
  · exact confined_allocateBody _ _ _

lemma confined_setProperty (id : RecordId) (slot : Int) (v : Slot) :
    Confined (setProperty id slot v) h := by
  unfold setProperty
  refine (confined_requireLive v).bind fun _ h₁ => confined_get ?_
  refine (confined_reserve id _).bind fun _ h₂ => ?_
  exact (confined_editObject id _).bind fun _ _ => (confined_modifySpace _).thenReturn

lemma confined_setPropertyName (id : RecordId) (slot : Int) (q : QName) :
    Confined (setPropertyName id slot q) h :=
  confined_get ((confined_reserve id _).bind fun _ _ => confined_editObject id _)

lemma confined_setPropertyByName (id : RecordId) (q : QName) (v : Slot) :
    Confined (setPropertyByName id q v) h := by
  unfold setPropertyByName
  refine confined_get ?_
  split
  · exact confined_throw _
  · split
    · exact confined_setProperty _ _ _
    · have happend : Confined (appendNamed id q) h := by
        refine confined_get ((confined_reserve id _).bind fun _ _ => ?_)
        exact (confined_editObject id _).bind fun _ _ => (confined_setPropertyName _ _ _).thenReturn
      exact happend.bind fun _ _ => confined_setProperty _ _ _

lemma confined_deletePropertyByName (id : RecordId) (q : QName) :
    Confined (deletePropertyByName id q) h := by
  unfold deletePropertyByName
  refine confined_get ?_
  split
  · exact confined_throw _
  · split
    · exact confined_refuse _
    · exact confined_get (confined_editObject id _)

/-- **Nothing but a request decides on the degradation.** -/
theorem degraded_apply {op : Operation} (hreq : h.request? op = none) :
    (apply op h).2.degraded = h.degraded := by
  suffices hy : Yields (perform op) h fun _ h' => h'.degraded = h.degraded from yields_apply.1 hy
  have hof {m : HeapM Answer} (hm : Confined m h) :
      Yields m h fun _ h' => h'.degraded = h.degraded :=
    hm.mono fun _ h' ⟨s, f, hspace⟩ => hspace ▸ rfl
  cases op with
  | defineType d => exact hof ⟨_, _, rfl⟩
  | addStandardSpace space =>
    change (if h.standardSpaces.contains space then h else _ : Heap).degraded = h.degraded
    split <;> rfl
  | allocateRecord type extra => exact hof (confined_allocateRecord type extra).map
  | createObject type extra => exact hof (confined_createObject type extra).map
  | createPlainObject => exact hof (confined_createObject .object 0).map
  | createString text => exact hof (confined_allocateBody _ _ _).map
  | createNumber bits => exact hof (confined_allocateBody _ _ _).map
  | createBoolean b => exact hof (confined_allocateBody _ _ _).map
  | createNative type payload => exact hof (confined_createNative type payload).map
  | setNative id payload => exact hof (confined_setNative id payload).thenReturn
  | editNative id edit => exact hof (confined_editNative id edit).map
  | cloneObject id deep => exact hof (confined_cloneObject id deep).map
  | setProperty id slot v => exact hof (confined_setProperty id slot v).map
  | setPropertyName id slot q => exact hof (confined_setPropertyName id slot q).map
  | setPropertyByName id q v => exact hof (confined_setPropertyByName id q v).map
  | deleteProperty id slot => exact hof (confined_get (confined_editObject id _)).thenReturn
  | deletePropertyByName id q => exact hof (confined_deletePropertyByName id q).thenReturn
  | growObject id count =>
    exact hof (confined_get
      ((confined_reserve id count).bind fun _ _ => confined_editObject id _)).thenReturn
  | insertSlots id n offset =>
    exact hof (confined_get
      ((confined_reserve id _).bind fun _ _ => confined_editObject id _)).thenReturn
  | removeSlot id slot compact => exact hof (confined_get (confined_editObject id _)).thenReturn
  | editFrame edit =>
    refine yields_map.2 ?_
    unfold editFrame
    rw [yields_bind, yields_get]
    dsimp only
    split
    · rfl
    · split <;> rfl
  | collect mode => cases hreq
  | collectIfRequired =>
    have hdue : ¬ (h.collector.required && h.options.demandCollect) = true := fun hdue => by
      rw [request?, if_pos hdue] at hreq
      cases hreq
    refine hof (Confined.map (confined_get ?_))
    rw [if_neg hdue]
    exact confined_pure none
  | enableCollector on => exact hof ⟨_, _, rfl⟩
  | setAllocGeneration g => exact hof ⟨_, _, rfl⟩
  | makePermanent id => exact hof (confined_makePermanent id).thenReturn
  | makeTransient id => exact hof (confined_makeTransient id).thenReturn
  | _ => rfl

end Confined

/-! ### Allocation under pressure -/

/-- The type of the record that the operation allocates first. The type has to be known, and of the
kind that the operation is for. -/
def allocates? (h : Heap) : Operation → Option TypeId
  | .allocateRecord type _ => (h.types.get? type).map fun _ => type
  | .createObject type _ => ((h.types.get? type).filter (·.kind = .object)).map fun _ => type
  | .createPlainObject => some .object
  | .createString _ => some .string
  | .createNumber _ => some .number
  | .createBoolean _ => some .boolean
  | .createNative type _ => ((h.types.get? type).filter (·.kind = .native)).map fun _ => type
  | .cloneObject id _ => ((h.arena.live? id).filter (·.body.object?.isSome)).map (·.type)
  | _ => none

section Allocation

variable [Environment] {type : TypeId} {info : TypeInfo}

/-- A place of the arena is refused while the heap is throttled, whatever the limit. -/
lemma run_allocateBody_throttled (hinfo : h.types.get? type = some info)
    (hthrottled : h.throttled = true) (hfree : h.pools.hasFree type = false) (extra : Nat)
    (body : Body) : (allocateBody type extra body).run h = .error .outOfMemory
      (h.withFault (.allocationRefused (info.instanceSize + extra + body.storageBytes)
        info.name)) := by
  have hrefused : ¬ h.admits type (info.instanceSize + extra + body.storageBytes) = true := by
    rw [admits_iff hfree, hthrottled]
    exact fun hroom => Bool.noConfusion hroom.2
  unfold allocateBody
  rw [run_get_bind, hinfo]
  dsimp only
  rw [if_neg hrefused]
  exact run_refuse _ h

/-- A record that waits is taken out of its pool, whatever the limit and the redline. -/
lemma run_allocateBody_pooled (hs : h.toStore.Sound) (ht : h.toSpace.Typed)
    (hinfo : h.types.get? type = some info) (hfree : h.pools.hasFree type = true) (extra : Nat)
    (body : Body) : ∃ id k h', h.arena.get? id = some (.pooled k) ∧ k.type = type ∧
      (allocateBody type extra body).run h = .ok id h' := by
  obtain rfl := ht.ids type info hinfo
  rcases allocateBody_cases hinfo extra body with ⟨-, hrun⟩ | ⟨hrefused, -⟩
  · rcases hs.allocate_cases info extra body with ⟨id, rest, k, hf, hk, e⟩ | ⟨hnil, -⟩
    · have hid : (h.toSpace.allocate info extra body).1.id = id := congrArg (·.1.id) e
      obtain ⟨k', hk', htype⟩ := (hs.mem_free info.id id).1 (by simp [hf])
      exact ⟨id, k', _, hk', htype, hid ▸ hrun⟩
    · simp [TypePools.hasFree, hnil] at hfree
  · simp [admits, hfree] at hrefused

lemma run_createObject (hinfo : h.types.get? type = some info) (hkind : info.kind = .object)
    (extra : Nat) : (createObject type extra).run h =
      (allocateBody type 0 (.object (info.instantiate extra))).run h := by
  unfold createObject
  rw [run_get_bind, hinfo, Option.filter_some, if_pos (decide_eq_true hkind)]

/-- The operation starts with the allocation, and what follows does not fail unless the operation
goes in steps. -/
lemma run_allocates (ht : h.toSpace.Typed) {op : Operation} (hop : h.allocates? op = some type) :
    ∃ info extra body, ∃ f : RecordId → HeapM Answer, h.types.get? type = some info ∧
      (perform op).run h = (allocateBody type extra body >>= f).run h ∧
      (op.goesInSteps = false → ∀ id h₁, ∃ h₂, (f id).run h₁ = .ok (.record id) h₂) := by
  have hplain (id : RecordId) (h₁ : Heap) :
      ∃ h₂, (pure (.record id) : HeapM Answer).run h₁ = .ok (.record id) h₂ := ⟨h₁, rfl⟩
  have hbuiltin {i : Nat} {d : TypeDef} (hd : TypeRegistry.builtinDefs[i]? = some d) :
      ∃ info, h.types.get? i = some info := (ht.builtin i d hd).imp fun _ => And.left
  cases op with
  | allocateRecord type' extra =>
    obtain ⟨info, hinfo, rfl⟩ := Option.map_eq_some_iff.1 hop
    refine ⟨info, extra, initialBody info, fun id => pure (.record id), hinfo, ?_,
      fun _ => hplain⟩
    unfold perform allocateRecord
    rw [EStateM.run_map, run_get_bind, hinfo, ← EStateM.run_map]
    rfl
  | createObject type' extra =>
    obtain ⟨info, hfilter, rfl⟩ := Option.map_eq_some_iff.1 hop
    obtain ⟨hinfo, hkind⟩ := Option.filter_eq_some_iff.1 hfilter
    refine ⟨info, 0, .object (info.instantiate extra), fun id => pure (.record id), hinfo, ?_,
      fun _ => hplain⟩
    unfold perform
    rw [EStateM.run_map, run_createObject hinfo (of_decide_eq_true hkind), ← EStateM.run_map]
    rfl
  | createPlainObject =>
    obtain rfl := Option.some.inj hop
    obtain ⟨info, hinfo, hdef⟩ := ht.builtin 0 TypeRegistry.objectDef rfl
    have hinfo : h.types.get? TypeId.object = some info := hinfo
    have hkind : info.kind = .object := congrArg (·.kind) hdef
    refine ⟨info, 0, .object (info.instantiate 0), fun id => pure (.record id), hinfo, ?_,
      fun _ => hplain⟩
    unfold perform createPlainObject
    rw [EStateM.run_map, run_createObject hinfo hkind, ← EStateM.run_map]
    rfl
  | createString text =>
    obtain rfl := Option.some.inj hop
    obtain ⟨info, hinfo⟩ := hbuiltin (i := 1) rfl
    exact ⟨info, 0, .string text, fun id => pure (.record id), hinfo, rfl, fun _ => hplain⟩
  | createNumber bits =>
    obtain rfl := Option.some.inj hop
    obtain ⟨info, hinfo⟩ := hbuiltin (i := 2) rfl
    exact ⟨info, 0, .number bits, fun id => pure (.record id), hinfo, rfl, fun _ => hplain⟩
  | createBoolean b =>
    obtain rfl := Option.some.inj hop
    obtain ⟨info, hinfo⟩ := hbuiltin (i := 3) rfl
    exact ⟨info, 0, .boolean b, fun id => pure (.record id), hinfo, rfl, fun _ => hplain⟩
  | createNative type' payload =>
    obtain ⟨info, hfilter, rfl⟩ := Option.map_eq_some_iff.1 hop
    refine ⟨info, 0, .native payload, fun id => do
      modifySpace (·.recordReferences id)
      return .record id, (Option.filter_eq_some_iff.1 hfilter).1, ?_, fun _ id h₁ => ⟨_, rfl⟩⟩
    unfold perform createNative
    rw [EStateM.run_map, run_get_bind, hfilter, EStateM.run_bind, EStateM.run_bind]
    cases (allocateBody type' 0 (.native payload)).run h <;> rfl
  | cloneObject id deep =>
    obtain ⟨r, hfilter, rfl⟩ := Option.map_eq_some_iff.1 hop
    obtain ⟨hr, hobject⟩ := Option.filter_eq_some_iff.1 hfilter
    obtain ⟨o, ho⟩ := Option.isSome_iff_exists.1 hobject
    have hbody : r.body = .object o := by
      rcases hb : r.body <;> simp_all [Body.object?]
    obtain ⟨info, hinfo, -⟩ := ht.fits id r hr
    have hcopy : (copyRecord id).run h = (do
        let copy ← allocateBody r.type 0 (.object o)
        modifySpace (·.modifyHeader copy ({ · with refLinks := r.header.refLinks }))
        return copy : HeapM RecordId).run h := by
      unfold copyRecord
      rw [run_get_bind, hr]
      dsimp only
      rw [hbody]
    refine ⟨info, 0, .object o, fun copy => Answer.record <$> (do
      modifySpace (·.modifyHeader copy ({ · with refLinks := r.header.refLinks }))
      if deep then
        let c ← settleCopies h.cloneFuel ⟨[(id, copy)], [copy]⟩
        modifySpace fun s =>
          (Environment.arrange s.collector.stats.totalAllocated c.copies).foldl recordReferences s
      else modifySpace (·.recordReferences copy)
      return copy), hinfo, ?_, fun hsteps copy h₁ => ?_⟩
    · unfold perform cloneObject
      rw [← map_bind, EStateM.run_map, EStateM.run_map, run_get_bind]
      generalize h.cloneFuel = fuel
      rw [EStateM.run_bind, hcopy, EStateM.run_bind, EStateM.run_bind]
      cases (allocateBody r.type 0 (.object o)).run h <;> rfl
    · obtain rfl : deep = false := hsteps
      exact ⟨_, rfl⟩
  | _ => cases hop

/-- **An operation whose record would need a place of the arena** is refused while the heap is
throttled, and leaves the heap as it was but for the last fault. -/
lemma apply_throttled (ht : h.toSpace.Typed) (hthrottled : h.throttled = true) {op : Operation}
    (hop : h.allocates? op = some type) (hfree : h.pools.hasFree type = false) :
    ∃ fault, apply op h = (.error .outOfMemory, h.withFault fault) := by
  obtain ⟨info, extra, body, f, hinfo, hrun, -⟩ := run_allocates ht hop
  rw [run_bind_error (run_allocateBody_throttled hinfo hthrottled hfree extra body)] at hrun
  exact ⟨_, by rw [apply, hrun]⟩

/-- **An operation whose record waits in a pool** gets it. -/
lemma apply_pooled (hs : h.toStore.Sound) (ht : h.toSpace.Typed) {op : Operation}
    (hop : h.allocates? op = some type) (hfree : h.pools.hasFree type = true)
    (hsteps : op.goesInSteps = false) : ∃ id k, h.arena.get? id = some (.pooled k) ∧
      k.type = type ∧ (apply op h).1 = .ok (.record id) := by
  obtain ⟨info, extra, body, f, hinfo, hrun, hrest⟩ := run_allocates ht hop
  obtain ⟨id, k, h₁, hk, htype, halloc⟩ :=
    run_allocateBody_pooled hs ht hinfo hfree extra body
  obtain ⟨h₂, hf⟩ := hrest hsteps id h₁
  rw [run_bind_ok halloc, hf] at hrun
  exact ⟨id, k, hk, htype, by rw [apply, hrun]⟩

end Allocation

/-- **Memory pressure.** In any state that a run leads to, a request for a collection fails for lack
of memory if and only if the heap is at its hard limit afterwards; if the heap is at its redline
afterwards, nothing is pooled any more; and the heap is degraded afterwards if it is at its limit,
or if it was degraded before and is still at its redline. No other operation changes that. In a
degraded heap at its redline, an operation whose record would need a place of the arena fails for
lack of memory and leaves nothing but a fault behind, and one whose record waits in its pool takes
it from there. The same goes for each of the allocations that a deep clone makes. -/
theorem pressure_run [Environment] (o : HeapOptions) (ops : List Operation) :
    let h := run (Heap.fresh o) ops
    (∀ op mode, h.request? op = some mode →
      let h' := (apply op h).2
      ((apply op h).1 = if o.maxMemory ≤ h'.usedMemory then .error .outOfMemory
        else .ok (.info (some (h.toSpace.collect mode h.roots).1))) ∧
      (o.redline ≤ h'.usedMemory →
        h'.pools.pooledCount = 0 ∧ ∀ id k, h'.arena.get? id ≠ some (.pooled k)) ∧
      (h'.degraded = true ↔
        o.maxMemory ≤ h'.usedMemory ∨ h.degraded = true ∧ o.redline ≤ h'.usedMemory)) ∧
    (∀ op, h.request? op = none → (apply op h).2.degraded = h.degraded) ∧
    (h.degraded = true → o.redline ≤ h.usedMemory → ∀ op type, h.allocates? op = some type →
      (h.pools.hasFree type = false →
        ∃ fault, apply op h = (.error .outOfMemory, { h with fault := some fault })) ∧
      (h.pools.hasFree type = true → op.goesInSteps = false → ∃ id k,
        h.arena.get? id = some (.pooled k) ∧ k.type = type ∧
          (apply op h).1 = .ok (.record id))) ∧
    ∀ h₁ : Heap, h₁.toSpace.Sound → h₁.toSpace.Typed → h₁.degraded = true →
      h₁.options.redline ≤ h₁.usedMemory → ∀ type info, h₁.types.get? type = some info →
      ∀ extra body,
        (h₁.pools.hasFree type = false → ∃ fault, (allocateBody type extra body).run h₁ =
          .error .outOfMemory { h₁ with fault := some fault }) ∧
        (h₁.pools.hasFree type = true → ∃ id k h₂, h₁.arena.get? id = some (.pooled k) ∧
          k.type = type ∧ (allocateBody type extra body).run h₁ = .ok id h₂) := by
  intro h
  obtain ⟨hs, ht, -⟩ := sound_typed_run o ops
  have hoptions : h.options = o := (turnover_run ops (steady_fresh o).1.toSound).1
  have hthrottled {h : Heap} (hdegraded : h.degraded = true)
      (hline : h.options.redline ≤ h.usedMemory) : h.throttled = true := by
    rw [throttled, hdegraded, Bool.true_and, decide_eq_true hline]
  refine ⟨fun op mode hreq => hoptions ▸ request_policy hs hreq, fun op => degraded_apply,
    fun hdegraded hline op type hop => ⟨fun hfree => ?_, fun hfree => ?_⟩,
    fun h₁ hs₁ ht₁ hdegraded hline type info hinfo extra body => ⟨fun hfree => ?_, fun hfree => ?_⟩⟩
  · rw [← hoptions] at hline
    exact apply_throttled ht (hthrottled hdegraded hline) hop hfree
  · exact apply_pooled hs.store ht hop hfree
  · exact ⟨_, run_allocateBody_throttled hinfo (hthrottled hdegraded hline) hfree extra body⟩
  · exact run_allocateBody_pooled hs₁.store ht₁ hinfo hfree extra body

end Heap

end ScriptHeap
