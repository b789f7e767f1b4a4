import Mathlib
import ScriptHeap.Proofs.Accounting

/-!
The hard limit on memory. New places and growing objects are admitted only if what they add fits
under the limit. A record that waits in a pool is taken without being asked for room, although it is
charged what the new record takes up more than the old one. So only an operation that takes a record
from a pool can carry a heap past its limit.
-/

namespace ScriptHeap

open Heap Space

/-! ### Counts of reuse -/

namespace TypePools

lemma reuse_update (p : TypePools) (type : TypeId) {f : TypePool → TypePool}
    (hf : ∀ q, (f q).reuse = q.reuse) (u : TypeId) :
    ((p.update type f).pool u).reuse = (p.pool u).reuse := by
  rw [pool_update]
  split
  · next h => rw [hf, h.1]
  · rfl

lemma reuse_clear (p : TypePools) (u : TypeId) :
    (({ p with pools := p.pools.map (·.clear) } : TypePools).pool u).reuse =
      (p.pool u).reuse := by
  simp only [pool, Array.getElem?_map]
  cases p.pools[u]? <;> rfl

end TypePools

namespace Space

/-- The second space charges no more than the first one or stays under the limit, unless there is
none or a record has been taken from a pool. -/
structure Within (limit : Nat) (s t : Space) : Prop where
  reuse_le : ∀ type, (s.pools.pool type).reuse ≤ (t.pools.pool type).reuse
  used : t.usedMemory ≤ s.usedMemory ∨ t.usedMemory ≤ limit ∨ HeapOptions.unlimited ≤ limit ∨
    ∃ type, (s.pools.pool type).reuse < (t.pools.pool type).reuse

variable {limit : Nat} {s t u : Space}

namespace Within

lemma refl (s : Space) : Within limit s s := ⟨fun _ => le_refl _, .inl (le_refl _)⟩

lemma trans (h : Within limit s t) (k : Within limit t u) : Within limit s u := by
  refine ⟨fun type => (h.reuse_le type).trans (k.reuse_le type), ?_⟩
  rcases k.used with hle | hle | hno | ⟨type, hlt⟩
  · rcases h.used with hle' | hle' | hno | ⟨type, hlt⟩
    · exact .inl (hle.trans hle')
    · exact .inr (.inl (hle.trans hle'))
    · exact .inr (.inr (.inl hno))
    · exact .inr (.inr (.inr ⟨type, hlt.trans_le (k.reuse_le type)⟩))
  · exact .inr (.inl hle)
  · exact .inr (.inr (.inl hno))
  · exact .inr (.inr (.inr ⟨type, (h.reuse_le type).trans_lt hlt⟩))

/-- What neither charges nor takes a record from a pool. -/
lemma of_refund (hr : ∀ type, (t.pools.pool type).reuse = (s.pools.pool type).reuse)
    (hu : t.usedMemory ≤ s.usedMemory) : Within limit s t :=
  ⟨fun type => (hr type).ge, .inl hu⟩

end Within

/-- A pool counts each record that is taken from it. -/
lemma reuse_allocate_of_free [Environment] (hs : s.toStore.Sound) {info : TypeInfo} {id : RecordId}
    {rest : List RecordId} (hf : s.pools.free info.id = id :: rest) (extra : Nat) (body : Body)
    (type : TypeId) : ((s.allocate info extra body).2.pools.pool type).reuse =
      (s.pools.pool type).reuse + if type = info.id then 1 else 0 := by
  have hlt : info.id < s.pools.maxTypes := by
    obtain ⟨k, hk, htype⟩ := (hs.mem_free info.id id).1 (by simp [hf])
    exact htype ▸ hs.pooled_lt id k hk
  rcases hs.allocate_cases info extra body with ⟨_, _, k, -, -, e⟩ | ⟨hnil, -⟩
  · change ((s.toStore.allocate info extra body).2.pools.pool type).reuse = _
    rw [e, TypePools.pool_update]
    split
    · next h =>
      rw [if_pos h.1, h.1]
      rfl
    · next h =>
      rw [if_neg fun he => h ⟨he, hlt⟩]
      rfl
  · simp [hf] at hnil

/-- A place that no pool provides is taken only if what it costs fits under the limit. -/
lemma within_allocate [Environment] (hs : s.toStore.Sound) {info : TypeInfo} {extra : Nat}
    {body : Body}
    (hadmits : s.Admits limit info.id (info.instanceSize + extra + body.storageBytes)) :
    Within limit s (s.allocate info extra body).2 := by
  rcases hs.allocate_cases info extra body with ⟨id, rest, k, hf, -, -⟩ | ⟨hf, r, -, e⟩
  · -- a record waits, so no room was asked for, and the pool counts it
    have hreuse := reuse_allocate_of_free hs hf extra body
    refine ⟨fun type => ?_, .inr (.inr (.inr ⟨info.id, ?_⟩))⟩
    · rw [hreuse]
      exact Nat.le_add_right _ _
    · rw [hreuse, if_pos rfl]
      exact Nat.lt_succ_self _
  · -- none waits, so the whole size was asked for, of which 32 bits are charged
    have hroom : min (s.usedMemory + (info.instanceSize + extra + body.storageBytes))
        HeapOptions.unlimited ≤ limit := by
      refine hadmits.resolve_left ?_
      simp [TypePools.hasFree, hf]
    have hreuse (type : TypeId) : ((s.allocate info extra body).2.pools.pool type).reuse =
        (s.pools.pool type).reuse := by
      change ((s.toStore.allocate info extra body).2.pools.pool type).reuse = _
      rw [e]
      exact TypePools.reuse_update _ _ (f := (·.countBirth)) (fun _ => rfl) type
    have hused : (s.allocate info extra body).2.usedMemory =
        s.usedMemory + ((info.instanceSize + extra).toUInt32.toNat + body.storageBytes) := by
      change ((s.usedMemory : Int) + (s.toStore.allocate info extra body).1.delta).toNat = _
      rw [e]
      dsimp only
      omega
    have hsize : (info.instanceSize + extra).toUInt32.toNat ≤ info.instanceSize + extra :=
      Nat.mod_le _ _
    refine ⟨fun type => (hreuse type).ge, ?_⟩
    rcases min_le_iff.1 hroom with hle | hno
    · exact .inr (.inl (by omega))
    · exact .inr (.inr (.inl hno))

variable [Environment]

/-- **No step but one that takes a record from a pool goes past the limit.** -/
theorem Turn.within (h : Turn limit s t) (hs : s.toStore.Sound) (ht : s.Typed) :
    Within limit s t := by
  have hrefund (s : Space) (released : Nat) :
      (s.track (-(released : Int))).usedMemory ≤ s.usedMemory := by
    change ((s.usedMemory : Int) + -(released : Int)).toNat ≤ s.usedMemory
    omega
  cases h with
  | retain h =>
    have hused : t.usedMemory = s.usedMemory := congrArg Prod.fst h.memory
    exact .of_refund (fun type => by rw [h.pools]) hused.le
  | reclaim id =>
    refine .of_refund (fun type => ?_) (hrefund _ _)
    change (((s.toStore.reclaim id).2.pools.pool type).reuse) = _
    unfold Store.reclaim
    split
    · rfl
    · split
      · exact TypePools.reuse_update _ _ (f := (·.park id)) (fun _ => rfl) type
      · rfl
  | prune => exact .of_refund (TypePools.reuse_clear s.pools) (hrefund _ _)
  | @allocate type info extra body hinfo _ hadmits =>
    obtain rfl := ht.ids type info hinfo
    exact within_allocate hs hadmits
  | @resize id r body _ _ hroom =>
    refine ⟨fun _ => le_refl _, ?_⟩
    change ((s.usedMemory : Int) + ((body.storageBytes : Int) - r.body.storageBytes)).toNat ≤
      s.usedMemory ∨ ((s.usedMemory : Int) +
        ((body.storageBytes : Int) - r.body.storageBytes)).toNat ≤ limit ∨ _
    rcases hroom with hle | hle
    · exact .inl (by omega)
    · by_cases hgrows : body.storageBytes ≤ r.body.storageBytes
      · exact .inl (by omega)
      · exact .inr (.inl (by omega))
  | define d => exact .of_refund (fun _ => rfl) (le_refl _)

theorem Turnover.within (h : Turnover limit s t) (hs : s.toStore.Sound) (ht : s.Typed) :
    Within limit s t := by
  induction h with
  | refl => exact .refl s
  | tail hsteps hstep ih =>
    obtain ⟨hs', ht', -⟩ := Turnover.kept hsteps hs ht
    exact ih.trans (hstep.within hs' ht')

end Space

/-! ### Runs -/

/-- A type with a record in its pool gets that record, whatever the limit and however degraded the
heap is, and the difference between the two is charged. -/
lemma allocateBody_of_hasFree [Environment] {h : Heap} (hs : h.toSpace.Sound) (ht : h.toSpace.Typed)
    (hm : h.toSpace.Metered) {type : TypeId} {info : TypeInfo}
    (hinfo : h.types.get? type = some info) (hfree : h.pools.hasFree type = true) (extra : Nat)
    (body : Body) : ∃ id k h', h.arena.get? id = some (.pooled k) ∧ k.type = type ∧
      allocateBody type extra body h = .ok id h' ∧ h'.usedMemory + k.size.toNat =
        h.usedMemory + ((info.instanceSize + extra).toUInt32.toNat + body.storageBytes) := by
  obtain rfl := ht.ids type info hinfo
  have hadmits (bytes : Nat) : h.admits info.id bytes = true := by
    rw [admits, hfree, Bool.true_or]
  have hallocate : allocateBody info.id extra body h =
      .ok (h.toSpace.allocate info extra body).1.id
        { h with toSpace := (h.toSpace.allocate info extra body).2 } := by
    simp [allocateBody, hinfo, hadmits, bind, EStateM.bind, get, getThe, MonadStateOf.get,
      EStateM.get, set, EStateM.set, pure, EStateM.pure]
  rcases hs.store.allocate_cases info extra body with ⟨id, rest, k, hf, hk, e⟩ | ⟨hf, -⟩
  · have htype : k.type = info.id := by
      obtain ⟨k', hk', htype⟩ := (hs.store.mem_free info.id id).1 (by simp [hf])
      obtain rfl := Cell.pooled.inj (Option.some.inj (hk.symm.trans hk'))
      exact htype
    have hid : (h.toSpace.allocate info extra body).1.id = id := congrArg (·.1.id) e
    have hafter := (hm.allocate hs.store info extra body).used
    have hbefore := hm.used
    have hcharged := bytes_allocate hs.store info extra body
    rw [e] at hcharged
    refine ⟨id, k, _, hk, htype, hid ▸ hallocate, ?_⟩
    dsimp only at hcharged ⊢
    omega
  · simp [TypePools.hasFree, hf] at hfree

/-- **What goes past the hard limit.** If an operation leaves more memory in use than before, it
stays under the limit, or there is none, or it has taken a record from a pool. A type with a record
in its pool gets that record, whatever the limit and however degraded the heap is, and is charged
the bytes of the new record less those of the old one. -/
theorem limit_run [Environment] (o : HeapOptions) (ops : List Operation) :
    let h := run (Heap.fresh o) ops
    (∀ op, h.usedMemory < (apply op h).2.usedMemory →
      (apply op h).2.usedMemory ≤ o.maxMemory ∨ HeapOptions.unlimited ≤ o.maxMemory ∨
        ∃ type, (h.pools.pool type).reuse < ((apply op h).2.pools.pool type).reuse) ∧
    ∀ type info, h.types.get? type = some info → h.pools.hasFree type = true →
      ∀ extra body, ∃ id k h', h.arena.get? id = some (.pooled k) ∧ k.type = type ∧
        allocateBody type extra body h = .ok id h' ∧ h'.usedMemory + k.size.toNat =
          h.usedMemory + ((info.instanceSize + extra).toUInt32.toNat + body.storageBytes) := by
  intro h
  obtain ⟨hs, ht, -⟩ := sound_typed_run o ops
  have hoptions : h.options = o := (turnover_run ops (steady_fresh o).1.toSound).1
  refine ⟨fun op hmore => ?_, fun type info hinfo hfree extra body => ?_⟩
  · have hstep := (turnover_run [op] hs).2
    rw [hoptions] at hstep
    exact (hstep.within hs.store ht).used.resolve_left (Nat.not_le.2 hmore)
  · exact allocateBody_of_hasFree hs ht (accounted_run o ops) hinfo hfree extra body

/-- A limit that leaves room for one object beside the global one. -/
def tight : HeapOptions := { HeapOptions.tuned .balanced with maxMemory := 100 }

/-- An object with a slot takes the place of an empty one that was garbage, and goes past the
limit. -/
theorem limit_passed :
    let h := run (Heap.fresh tight) [.createPlainObject, .collect .full]
    let h' := (apply (.createObject .object 1) h).2
    h.usedMemory ≤ tight.maxMemory ∧ tight.maxMemory < h'.usedMemory ∧
      ∃ type, (h.pools.pool type).reuse < (h'.pools.pool type).reuse := by
  have hlimit := (limit_run tight [.createPlainObject, .collect .full]).1
    (.createObject .object 1)
  have hbefore : (run (Heap.fresh tight) [.createPlainObject, .collect .full]).usedMemory = 96 := by
    cbv
  have hafter : (apply (.createObject .object 1)
      (run (Heap.fresh tight) [.createPlainObject, .collect .full])).2.usedMemory = 160 := by cbv
  rw [hbefore, hafter] at hlimit
  intro h h'
  refine ⟨hbefore.trans_le (by decide), Nat.lt_of_lt_of_eq (by decide) hafter.symm, ?_⟩
  exact ((hlimit (by decide)).resolve_left (by decide)).resolve_left (by decide)

end ScriptHeap
