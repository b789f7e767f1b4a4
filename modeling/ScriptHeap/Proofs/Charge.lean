import Mathlib
import ScriptHeap.Proofs.Accounting

/-!
What an allocation is charged. It is admitted for the size of its type, the extra bytes and the
storage of the body together, as a machine word. The header of the record keeps its size in 32 bits,
and the charge, like every refund later on, is what the header says. So a record of 4 GiB or more is
admitted for its size but charged for the rest of it modulo 2^32, and gives back what it was
charged.
-/

namespace ScriptHeap

open Heap Space

namespace Store

variable {s : Store}

/-- A pruning leaves the live records alone. -/
lemma Sound.bytesAt_prune [Environment] (hs : s.Sound) (j : RecordId) :
    s.prune.2.arena.bytesAt j = ((s.arena.live? j).map Record.bytes).getD 0 := by
  have hget : s.prune.2.arena.get? j = if j ∈ s.pools.waiting then none else s.arena.get? j :=
    get?_releaseAll s.pools.waiting s.arena j
  split at hget
  · next hmem =>
    obtain ⟨k, hk⟩ := hs.live?_waiting hmem
    rw [Arena.bytesAt_of_none hget, Arena.live?, hk]
    rfl
  · next hmem =>
    rcases hc : s.arena.get? j with _ | (r | k)
    · rw [Arena.bytesAt_of_none (hget.trans hc), Arena.live?, hc]
      rfl
    · rw [Arena.bytesAt_of_get? (hget.trans hc), Arena.live?, hc]
      rfl
    · exact absurd (TypePools.mem_waiting.2 ⟨k.type, (hs.mem_free _ _).2 ⟨k, hc, rfl⟩⟩) hmem

/-- A record that is reclaimed before a pruning gives back all its bytes. -/
lemma Sound.bytes_prune_reclaim [Environment] (hs : s.Sound) {id : RecordId} {r : Record}
    (hr : s.arena.live? id = some r) :
    (s.reclaim id).2.prune.2.arena.bytes + r.bytes = s.prune.2.arena.bytes := by
  have hreclaimed (j : RecordId) := (hs.reclaim id).bytesAt_prune j
  simp only [live?_reclaim] at hreclaimed
  have hchange := Arena.bytes_change (a := s.prune.2.arena)
    (b := (s.reclaim id).2.prune.2.arena) id fun j hj => by
      rw [hreclaimed, if_neg hj, hs.bytesAt_prune]
  rw [hreclaimed, if_pos rfl, hs.bytesAt_prune, hr] at hchange
  exact hchange

end Store

namespace Space

variable [Environment] {limit : Nat} {s t : Space}

/-- **Freeing a record and pruning refunds what it is charged.** -/
theorem usedMemory_prune_reclaim (hs : s.toStore.Sound) (hm : s.Metered) {id : RecordId}
    {r : Record} (hr : s.arena.live? id = some r) :
    (s.reclaim id).prune.2.usedMemory + r.bytes = s.prune.2.usedMemory := by
  have hprune (t : Space) : Turn 0 t t.prune.2 := .prune
  have hfreed : Turn 0 s (s.reclaim id) := .reclaim id
  have hpruned := (hprune (s.reclaim id)).metered (hfreed.store hs) (hfreed.metered hs hm)
  rw [hpruned.used, ((hprune s).metered hs hm).used]
  exact hs.bytes_prune_reclaim hr

/-- The account is kept whatever the bodies of the records. -/
lemma Turnover.account (h : Turnover limit s t) (hs : s.toStore.Sound) (hm : s.Metered) :
    t.toStore.Sound ∧ t.Metered := by
  induction h with
  | refl => exact ⟨hs, hm⟩
  | tail _ hstep ih => exact ⟨hstep.store ih.1, hstep.metered ih.1 ih.2⟩

/-- A place of the arena is charged the header and the storage of its new record. -/
lemma usedMemory_allocate (hs : s.toStore.Sound) {info : TypeInfo}
    (hfree : s.pools.hasFree info.id = false) (extra : Nat) (body : Body) :
    (s.allocate info extra body).2.usedMemory =
      s.usedMemory + ((info.instanceSize + extra) % 2 ^ 32 + body.storageBytes) := by
  have hsize : (info.instanceSize + extra).toUInt32.toNat = (info.instanceSize + extra) % 2 ^ 32 :=
    UInt32.toNat_ofNat'
  rcases hs.allocate_cases info extra body with ⟨id, rest, k, hf, -, -⟩ | ⟨-, r, -, e⟩
  · simp [TypePools.hasFree, hf] at hfree
  · have hused : (s.allocate info extra body).2.usedMemory =
        ((s.usedMemory : Int) + (s.toStore.allocate info extra body).1.delta).toNat := rfl
    rw [hused, e, ← hsize]
    exact Int.toNat_natCast _

/-- The new record carries the charge. -/
lemma bytes_of_allocate (hs : s.toStore.Sound) {info : TypeInfo}
    (hfree : s.pools.hasFree info.id = false) (extra : Nat) (body : Body) :
    ∃ r, (s.allocate info extra body).2.arena.live? (s.allocate info extra body).1.id = some r ∧
      r.bytes = (info.instanceSize + extra) % 2 ^ 32 + body.storageBytes := by
  rcases hs.allocate_cases info extra body with ⟨id, rest, k, hf, -, -⟩ | ⟨-, r, hr, e⟩
  · simp [TypePools.hasFree, hf] at hfree
  · have hid : (s.allocate info extra body).1.id = (s.arena.insert r).1 := congrArg (·.1.id) e
    have hborn : (s.arena.insert r).2.live? (s.arena.insert r).1 = some r :=
      Arena.live?_eq_some.2 ((Arena.get?_insert s.arena r _ hs.vacant_lt).trans (if_pos rfl))
    refine ⟨{ r with header := { r.header with generation := s.collector.allocGeneration } },
      ?_, ?_⟩
    · rw [hid, arena_allocate, e, Arena.live?_modifyHeader, if_pos rfl, hborn]
      rfl
    · rw [hr]
      exact congrArg (· + body.storageBytes) UInt32.toNat_ofNat'

end Space

namespace Heap

variable {h : Heap} {type : TypeId} {info : TypeInfo}

/-- What is asked for decides whether a record is allocated, and nothing else. -/
lemma allocateBody_cases [Environment] (hinfo : h.types.get? type = some info) (extra : Nat)
    (body : Body) : (h.admits type (info.instanceSize + extra + body.storageBytes) = true ∧
      allocateBody type extra body h = .ok (h.toSpace.allocate info extra body).1.id
        { h with toSpace := (h.toSpace.allocate info extra body).2 }) ∨
    (h.admits type (info.instanceSize + extra + body.storageBytes) = false ∧
      ∃ h', allocateBody type extra body h = .error .outOfMemory h') := by
  have hget : allocateBody type extra body h =
      (if h.admits type (info.instanceSize + extra + body.storageBytes) then (do
        set { h with toSpace := (h.toSpace.allocate info extra body).2 }
        return (h.toSpace.allocate info extra body).1.id : HeapM RecordId)
      else refuse (.allocationRefused (info.instanceSize + extra + body.storageBytes)
        info.name)) h := by
    unfold allocateBody
    simp only [bind, EStateM.bind, get, getThe, MonadStateOf.get, EStateM.get, hinfo]
  rw [hget]
  cases h.admits type (info.instanceSize + extra + body.storageBytes) with
  | true => exact .inl ⟨rfl, rfl⟩
  | false => exact .inr ⟨rfl, _, rfl⟩

lemma admits_iff (hfree : h.pools.hasFree type = false) (bytes : Nat) :
    h.admits type bytes = true ↔
      min (h.usedMemory + bytes) HeapOptions.unlimited ≤ h.options.maxMemory ∧
        h.throttled = false := by
  simp [admits, hfree]

end Heap

section Runs

variable [Environment]

/-- **What an allocation is admitted for, and what it is charged.** In any state that a run leads
to, take a type with no record in its pool. A record of that type is admitted if the bytes asked for
fit under the limit and the heap is not throttled; its storage takes 8 bytes for each slot that an
object has room for, and the length of a text that needs storage of its own. It is charged for its
storage and for the rest of its own size modulo 2^32, which is what was asked for just below 4 GiB.
Whatever happens later, the record that lives in its place is charged its bytes, and gives back the
same when it is freed and the pools are pruned. -/
theorem charge_of_allocation (o : HeapOptions) (ops : List Operation) {type : TypeId}
    {info : TypeInfo} (hinfo : (run (Heap.fresh o) ops).types.get? type = some info)
    (hfree : (run (Heap.fresh o) ops).pools.hasFree type = false) (extra : Nat) (body : Body) :
    let h := run (Heap.fresh o) ops
    let storage := match body with
      | .object p => 8 * p.slots.size
      | .string text => if Environment.storesText text then text.utf8ByteSize else 0
      | _ => 0
    let asked := info.instanceSize + extra + storage
    ((∃ id h', allocateBody type extra body h = .ok id h') ↔
      min (h.usedMemory + asked) HeapOptions.unlimited ≤ o.maxMemory ∧ h.throttled = false) ∧
    ∀ id h', allocateBody type extra body h = .ok id h' →
      h'.usedMemory = h.usedMemory + ((info.instanceSize + extra) % 2 ^ 32 + storage) ∧
      (∃ r, h'.arena.live? id = some r ∧
        r.bytes = (info.instanceSize + extra) % 2 ^ 32 + storage) ∧
      (h'.usedMemory = h.usedMemory + asked ↔ info.instanceSize + extra < 2 ^ 32) ∧
      ((∀ p, body = .object p → p.Sound) → ∀ later r, (run h' later).arena.live? id = some r →
        (run h' later).usedMemory = (run h' later).arena.bytes ∧
        (run h' later).arena.bytesAt id = r.bytes ∧
        ((run h' later).toSpace.reclaim id).prune.2.usedMemory + r.bytes =
          (run h' later).toSpace.prune.2.usedMemory) := by
  intro h storage asked
  have hstorage : storage = body.storageBytes := body.storageBytes_eq.symm
  clear_value storage
  subst hstorage
  obtain ⟨hs, ht, -⟩ := sound_typed_run o ops
  have hm : h.toSpace.Metered := accounted_run o ops
  have hoptions : h.options = o := (turnover_run ops (steady_fresh o).1.toSound).1
  obtain rfl := ht.ids type info hinfo
  have hadmits := admits_iff hfree asked
  rw [hoptions] at hadmits
  rcases allocateBody_cases hinfo extra body with ⟨hadm, hrun⟩ | ⟨hadm, h₁, hrun⟩
  swap
  · have hrefused (id : RecordId) (h' : Heap) :
        ¬ allocateBody info.id extra body h = .ok id h' := fun hok => by
      cases hrun.symm.trans hok
    refine ⟨⟨fun ⟨id, h', hok⟩ => absurd hok (hrefused id h'), fun hroom => ?_⟩,
      fun id h' hok => absurd hok (hrefused id h')⟩
    cases hadm.symm.trans (hadmits.2 hroom)
  refine ⟨⟨fun _ => hadmits.1 hadm, fun _ => ⟨_, _, hrun⟩⟩, fun id h' hok => ?_⟩
  obtain ⟨rfl, rfl⟩ := EStateM.Result.ok.inj (hrun.symm.trans hok)
  have hcharged := usedMemory_allocate hs.store hfree extra body
  refine ⟨hcharged, bytes_of_allocate hs.store hfree extra body, ?_, fun hbody later r hr => ?_⟩
  · calc (h.toSpace.allocate info extra body).2.usedMemory = h.usedMemory + asked
        ↔ (info.instanceSize + extra) % 2 ^ 32 = info.instanceSize + extra := by
          rw [hcharged, Nat.add_left_cancel_iff, Nat.add_right_cancel_iff]
      _ ↔ info.instanceSize + extra < 2 ^ 32 := Nat.mod_eq_iff_lt (by decide)
  · have hsound := (births_allocate hs.store info extra body).sound hs hbody
    obtain ⟨hstore, hmetered⟩ :=
      (turnover_run later (h := { h with toSpace := (h.toSpace.allocate info extra body).2 })
        hsound).2.account hsound.store (hm.allocate hs.store info extra body)
    exact ⟨hmetered.used, Arena.bytesAt_of_get? (Arena.live?_eq_some.1 hr),
      usedMemory_prune_reclaim hstore hmetered hr⟩

end Runs

/-- An object of 4 GiB and 48 bytes is admitted for its size and charged 48 bytes. -/
theorem charge_of_vast_object :
    let h := run (Heap.fresh (.tuned .balanced)) []
    ∃ id h', allocateBody .object 4294967296 (.object (.empty true)) h = .ok id h' ∧
      h'.usedMemory = h.usedMemory + 48 ∧ h'.usedMemory ≠ h.usedMemory + (48 + 4294967296) := by
  have hinfo : (run (Heap.fresh (.tuned .balanced)) []).types.get? TypeId.object =
      some (TypeInfo.make TypeId.object TypeRegistry.objectDef) := by rfl
  have hcharge := charge_of_allocation (.tuned .balanced) [] hinfo (by cbv) 4294967296
    (.object (.empty true))
  have hroom : min ((run (Heap.fresh (.tuned .balanced)) []).usedMemory +
      ((TypeInfo.make TypeId.object TypeRegistry.objectDef).instanceSize + 4294967296 +
        (Body.object (.empty true)).storageBytes)) HeapOptions.unlimited ≤
      (HeapOptions.tuned .balanced).maxMemory := Nat.min_le_right _ _
  obtain ⟨id, h', hok⟩ := hcharge.1.2 ⟨hroom, by cbv⟩
  obtain ⟨hcharged, -, hexact, -⟩ := hcharge.2 id h' hok
  exact ⟨id, h', hok, hcharged, fun e => absurd (hexact.1 e) (by decide)⟩

end ScriptHeap
