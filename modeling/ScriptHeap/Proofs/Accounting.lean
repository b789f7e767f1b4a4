import Mathlib
import ScriptHeap.Proofs.Runs

/-!
Accounts of memory. What is charged for a space is always the sum of the bytes of its records, the
live ones with their bodies and the pooled ones without. Every charge and refund is logged, so the
level of the counter can be told at each moment in the past: it was never cut off at zero, and the
peak is the highest of these levels.
-/

namespace ScriptHeap

open Heap Space

variable [Environment]

/-! ### The bytes of an arena -/

/-- What the body of a record takes up beside its header. -/
lemma Body.storageBytes_eq (body : Body) : body.storageBytes = match body with
    | .object p => 8 * p.slots.size
    | .string text => if Environment.storesText text then text.utf8ByteSize else 0
    | _ => 0 := by
  cases body with
  | object p => exact Nat.mul_comm _ _
  | _ => rfl

namespace Arena

/-- The bytes charged for what occupies a place. -/
def bytesAt (a : Arena) (id : RecordId) : Nat := ((a.get? id).map Cell.bytes).getD 0

/-- The bytes charged for everything in the arena. -/
def bytes (a : Arena) : Nat := ∑ id ∈ Finset.range a.cells.size, a.bytesAt id

variable {a b : Arena}

lemma bytesAt_of_get? {id : RecordId} {c : Cell} (h : a.get? id = some c) :
    a.bytesAt id = c.bytes := by
  simp [bytesAt, h]

lemma bytesAt_of_none {id : RecordId} (h : a.get? id = none) : a.bytesAt id = 0 := by
  simp [bytesAt, h]

/-- Places behind the last one count for nothing. -/
lemma bytes_eq_sum {n : Nat} (h : a.cells.size ≤ n) :
    a.bytes = ∑ id ∈ Finset.range n, a.bytesAt id := by
  refine Finset.sum_subset (Finset.range_mono h) fun id _ hid => bytesAt_of_none ?_
  have hle : a.cells.size ≤ id := by simpa using hid
  simp [get?, Array.getElem?_eq_none hle]

lemma bytes_congr (h : ∀ id, b.bytesAt id = a.bytesAt id) : b.bytes = a.bytes := by
  rw [bytes_eq_sum (Nat.le_max_left b.cells.size a.cells.size),
    bytes_eq_sum (Nat.le_max_right b.cells.size a.cells.size)]
  exact Finset.sum_congr rfl fun id _ => h id

/-- If one place changes, the sum changes as this place does. -/
lemma bytes_change (id : RecordId) (h : ∀ j, j ≠ id → b.bytesAt j = a.bytesAt j) :
    b.bytes + a.bytesAt id = a.bytes + b.bytesAt id := by
  obtain ⟨n, han, hbn, hn⟩ : ∃ n, a.cells.size ≤ n ∧ b.cells.size ≤ n ∧ id < n :=
    ⟨a.cells.size + b.cells.size + (id + 1), by omega, by omega, Nat.le_add_left _ _⟩
  -- both sums run over the same places, behind the last one of either arena
  have hid : id ∈ Finset.range n := Finset.mem_range.2 hn
  have hrest : ∑ j ∈ (Finset.range n).erase id, b.bytesAt j =
      ∑ j ∈ (Finset.range n).erase id, a.bytesAt j :=
    Finset.sum_congr rfl fun j hj => h j (Finset.ne_of_mem_erase hj)
  calc b.bytes + a.bytesAt id
      = ∑ j ∈ (Finset.range n).erase id, b.bytesAt j + b.bytesAt id + a.bytesAt id := by
        rw [Finset.sum_erase_add _ _ hid, ← bytes_eq_sum hbn]
    _ = ∑ j ∈ (Finset.range n).erase id, a.bytesAt j + a.bytesAt id + b.bytesAt id := by
        rw [hrest, Nat.add_right_comm]
    _ = a.bytes + b.bytesAt id := by
        rw [Finset.sum_erase_add _ _ hid, ← bytes_eq_sum han]

lemma bytes_put {id : RecordId} {c : Cell} (hg : a.get? id = some c) (d : Cell) :
    (a.put id d).bytes + c.bytes = a.bytes + d.bytes := by
  have hget := get?_put d (lt_size_of_get? hg)
  have hchange := bytes_change (a := a) (b := a.put id d) id fun j hj => by
    rw [bytesAt, bytesAt, hget, if_neg hj]
  rwa [bytesAt_of_get? hg, bytesAt_of_get? ((hget id).trans (if_pos rfl))] at hchange

lemma bytes_release {id : RecordId} {c : Cell} (hg : a.get? id = some c) :
    (a.release id).bytes + c.bytes = a.bytes := by
  have hget := get?_release a id
  have hchange := bytes_change (a := a) (b := a.release id) id fun j hj => by
    rw [bytesAt, bytesAt, hget, if_neg hj]
  rwa [bytesAt_of_get? hg, bytesAt_of_none ((hget id).trans (if_pos rfl))] at hchange

/-- Several places are released, each one once. -/
lemma bytes_releaseAll (ids : List RecordId) (a : Arena) (hn : ids.Nodup) :
    (ids.foldl .release a).bytes + (ids.map a.bytesAt).sum = a.bytes := by
  induction ids generalizing a with
  | nil => simp
  | cons id ids ih =>
    obtain ⟨hid, hn⟩ := List.nodup_cons.1 hn
    have hrest : ids.map (a.release id).bytesAt = ids.map a.bytesAt := by
      refine List.map_congr_left fun j hj => ?_
      have hne : j ≠ id := fun e => hid (e ▸ hj)
      rw [bytesAt, bytesAt, get?_release, if_neg hne]
    have hone : (a.release id).bytes + a.bytesAt id = a.bytes := by
      rcases hg : a.get? id with _ | c
      · rw [bytesAt_of_none hg, release, hg, Nat.add_zero]
      · rw [bytesAt_of_get? hg, bytes_release hg]
    rw [List.foldl_cons, List.map_cons, List.sum_cons]
    calc (ids.foldl .release (a.release id)).bytes + (a.bytesAt id + (ids.map a.bytesAt).sum)
        = (ids.foldl .release (a.release id)).bytes + (ids.map (a.release id).bytesAt).sum +
            a.bytesAt id := by rw [hrest, ← Nat.add_assoc, Nat.add_right_comm]
      _ = (a.release id).bytes + a.bytesAt id := by rw [ih (a.release id) hn]
      _ = a.bytes := hone

lemma SameStock.bytes (h : a.SameStock b) : b.bytes = a.bytes := by
  refine bytes_congr fun id => ?_
  rcases ha : a.get? id with _ | (r | k)
  · rw [bytesAt_of_none ha, bytesAt_of_none ((h.shape.get?_eq_none id).2 ha)]
  · have hstock := h.stock id
    rw [live?_eq_some.2 ha] at hstock
    obtain ⟨q, hq, e⟩ := Option.map_eq_some_iff.1 hstock
    have hsize : q.header.size = r.header.size := congrArg Stock.size e
    have hstorage : q.body.storageBytes = r.body.storageBytes := congrArg Stock.storage e
    rw [bytesAt_of_get? ha, bytesAt_of_get? (live?_eq_some.1 hq), Cell.bytes, Cell.bytes,
      Record.bytes, Record.bytes, hsize, hstorage]
  · rw [bytesAt_of_get? ha, bytesAt_of_get? ((h.shape.get?_pooled id k).2 ha)]

end Arena

/-! ### What the store charges -/

namespace Store

variable {s : Store}

/-- An allocation charges what the new record takes up more than the pooled one. -/
lemma bytes_allocate (hs : s.Sound) (info : TypeInfo) (extra : Nat) (body : Body) :
    ((s.allocate info extra body).2.arena.bytes : Int) =
      s.arena.bytes + (s.allocate info extra body).1.delta := by
  rcases hs.allocate_cases info extra body with ⟨id, rest, k, -, hk, e⟩ | ⟨-, r, hr, e⟩
  · have hput := Arena.bytes_put hk (.live ⟨.fresh k.seq (info.instanceSize + extra).toUInt32,
      info.id, body⟩)
    rw [e]
    simp only [Cell.bytes, Record.bytes, Header.fresh] at hput ⊢
    omega
  · have hget (j : RecordId) := Arena.get?_insert s.arena r j hs.vacant_lt
    have hchange := Arena.bytes_change (a := s.arena) (b := (s.arena.insert r).2)
      (s.arena.insert r).1 fun j hj => by rw [Arena.bytesAt, Arena.bytesAt, hget, if_neg hj]
    rw [Arena.bytesAt_of_none (hs.get?_insert_none r),
      Arena.bytesAt_of_get? ((hget _).trans (if_pos rfl))] at hchange
    rw [e]
    simp only [Cell.bytes, Record.bytes, hr, Header.fresh] at hchange ⊢
    omega

/-- A record that is reclaimed gives back its storage, and all of its bytes if no pool takes it. -/
lemma bytes_reclaim (s : Store) (id : RecordId) :
    ((s.reclaim id).2.arena.bytes : Int) = s.arena.bytes + -((s.reclaim id).1 : Int) := by
  unfold reclaim
  split
  · simp
  · next r hr =>
    have hg := Arena.live?_eq_some.1 hr
    split
    · have hput := Arena.bytes_put hg (.pooled r.husk)
      simp only [Cell.bytes, Record.bytes, Record.husk] at hput ⊢
      omega
    · have hrelease := Arena.bytes_release hg
      simp only [Cell.bytes] at hrelease ⊢
      omega

/-- A pruning gives back the bytes of every pooled record. -/
lemma bytes_prune (hs : s.Sound) :
    (s.prune.2.arena.bytes : Int) = s.arena.bytes + -(s.prune.1 : Int) := by
  have hall := Arena.bytes_releaseAll s.pools.waiting s.arena hs.waiting_nodup
  have hsum : s.prune.1 = (s.pools.waiting.map s.arena.bytesAt).sum := by
    have hsize : s.pools.waiting.map s.arena.bytesAt =
        s.pools.waiting.map fun id => ((s.arena.get? id).map (·.size.toNat)).getD 0 := by
      refine List.map_congr_left fun id hid => ?_
      obtain ⟨k, hk⟩ := hs.live?_waiting hid
      rw [Arena.bytesAt_of_get? hk, hk]
      rfl
    rw [hsize, List.sum_eq_foldr, List.foldr_map]
    rfl
  have harena : s.prune.2.arena = s.pools.waiting.foldl .release s.arena := rfl
  rw [harena]
  omega

end Store

/-! ### The meter -/

/-- Where charges and refunds take a counter that stops at zero, the latest one first. -/
def level : List Int → Nat
  | [] => 0
  | delta :: past => ((level past : Int) + delta).toNat

namespace Space

/-- The counter shows the bytes of the records. It was never cut off at zero, and the peak is the
highest level so far. -/
structure Metered (s : Space) : Prop where
  used : s.usedMemory = s.arena.bytes
  logged : s.usedMemory = level s.collector.stats.charges
  unclamped : ∀ delta past, delta :: past <:+ s.collector.stats.charges →
    0 ≤ (level past : Int) + delta
  peak : IsGreatest {n | ∃ past, past <:+ s.collector.stats.charges ∧ level past = n}
    s.collector.stats.peakMemory

variable {s t : Space}

lemma Metered.of_eq (hs : s.Metered) (hm : t.collector.stats.memory = s.collector.stats.memory)
    (hb : t.arena.bytes = s.arena.bytes) : t.Metered := by
  obtain ⟨hused, hm⟩ := Prod.mk.inj hm
  obtain ⟨hpeak, hcharges⟩ := Prod.mk.inj hm
  refine ⟨(hused.trans hs.used).trans hb.symm, ?_, ?_, ?_⟩
  · rw [hcharges]
    exact hused.trans hs.logged
  · rw [hcharges]
    exact hs.unclamped
  · rw [hcharges, hpeak]
    exact hs.peak

/-- A charge that agrees with the bytes of the records is charged in full. -/
lemma Metered.track (hs : s.Metered) {delta : Int}
    (hm : t.collector.stats.memory = (s.collector.stats.track delta).memory)
    (hb : (t.arena.bytes : Int) = s.arena.bytes + delta) : t.Metered := by
  obtain ⟨hused, hm⟩ := Prod.mk.inj hm
  obtain ⟨hpeak, hcharges⟩ := Prod.mk.inj hm
  replace hcharges : t.collector.stats.charges = delta :: s.collector.stats.charges := hcharges
  replace hused : t.usedMemory = ((s.usedMemory : Int) + delta).toNat := hused
  replace hpeak : t.collector.stats.peakMemory =
      max s.collector.stats.peakMemory ((s.usedMemory : Int) + delta).toNat := hpeak
  have hbefore := hs.used
  have hlogged := hs.logged
  have hshown : t.usedMemory = t.arena.bytes := by omega
  have hlevel : level t.collector.stats.charges = ((s.usedMemory : Int) + delta).toNat := by
    rw [hcharges, level, ← hlogged]
  refine ⟨hshown, hused.trans hlevel.symm, fun delta' past hp => ?_, ?_, ?_⟩
  · rcases List.suffix_cons_iff.1 (hcharges ▸ hp) with e | hp
    · obtain ⟨rfl, rfl⟩ := List.cons.inj e
      omega
    · exact hs.unclamped delta' past hp
  · -- the peak is the old one, or it has just been reached
    rw [hpeak]
    rcases max_choice s.collector.stats.peakMemory ((s.usedMemory : Int) + delta).toNat with e | e
    · obtain ⟨past, hp, he⟩ := hs.peak.1
      exact ⟨past, hcharges ▸ hp.trans (List.suffix_cons _ _), he.trans e.symm⟩
    · exact ⟨_, List.suffix_rfl, hlevel.trans e.symm⟩
  · rintro n ⟨past, hp, rfl⟩
    rw [hpeak]
    rcases List.suffix_cons_iff.1 (hcharges ▸ hp) with rfl | hp
    · rw [level, ← hlogged]
      exact le_max_right _ _
    · exact le_max_of_le_left (hs.peak.2 ⟨past, hp, rfl⟩)

lemma metered_fresh (o : HeapOptions) : (Space.fresh o).Metered := by
  have hbytes : (Space.fresh o).arena.bytes = 0 := Finset.sum_range_zero _
  have hcharges : (Space.fresh o).collector.stats.charges = [] := rfl
  refine ⟨hbytes.symm, ?_, fun delta past hp => ?_, ?_⟩
  · rw [hcharges]
    rfl
  · rw [hcharges] at hp
    cases List.suffix_nil.1 hp
  · rw [hcharges]
    refine ⟨⟨[], List.suffix_rfl, rfl⟩, ?_⟩
    rintro n ⟨past, hp, rfl⟩
    rw [List.suffix_nil.1 hp]
    exact Nat.zero_le _

lemma bytes_allocate (hs : s.toStore.Sound) (info : TypeInfo) (extra : Nat) (body : Body) :
    ((s.allocate info extra body).2.arena.bytes : Int) =
      s.arena.bytes + (s.toStore.allocate info extra body).1.delta := by
  rw [(sameStock_allocate s info extra body).bytes]
  exact Store.bytes_allocate hs info extra body

lemma Metered.allocate (hm : s.Metered) (hs : s.toStore.Sound) (info : TypeInfo) (extra : Nat)
    (body : Body) : (s.allocate info extra body).2.Metered := by
  have hcharged : (s.allocate info extra body).2.collector.stats.memory =
      (s.collector.stats.track (s.toStore.allocate info extra body).1.delta).memory := rfl
  exact hm.track hcharged (bytes_allocate hs info extra body)

variable {limit : Nat}

/-- **Every step is charged what it costs.** -/
theorem Turn.metered (h : Turn limit s t) (hs : s.toStore.Sound) (hm : s.Metered) :
    t.Metered := by
  cases h with
  | retain h => exact hm.of_eq h.memory h.stock.bytes
  | reclaim id => exact hm.track rfl (s.toStore.bytes_reclaim id)
  | prune => exact hm.track rfl (Store.bytes_prune hs)
  | @allocate _ info extra body _ _ _ => exact hm.allocate hs info extra body
  | @resize id r body hr _ _ =>
    have hg := Arena.live?_eq_some.1 hr
    have harena : s.arena.setBody id body = s.arena.put id (.live { r with body }) := by
      rw [Arena.setBody, Arena.modify, hr]
    have hput := Arena.bytes_put hg (.live { r with body })
    simp only [Cell.bytes, Record.bytes] at hput
    have hbytes : ((s.arena.setBody id body).bytes : Int) =
        s.arena.bytes + ((body.storageBytes : Int) - r.body.storageBytes) := by
      rw [harena]
      omega
    have hcharged : (({ s with arena := s.arena.setBody id body } : Space).track
        ((body.storageBytes : Int) - r.body.storageBytes)).collector.stats.memory =
        (s.collector.stats.track ((body.storageBytes : Int) - r.body.storageBytes)).memory := rfl
    exact hm.track hcharged hbytes
  | define d => exact hm.of_eq rfl rfl

/-- The log only grows. -/
lemma Turn.charges (h : Turn limit s t) :
    s.collector.stats.charges <:+ t.collector.stats.charges := by
  cases h with
  | retain h =>
    have hmemory : t.collector.stats.charges = s.collector.stats.charges :=
      congrArg (fun m => m.2.2) h.memory
    exact hmemory ▸ List.suffix_rfl
  | define d => exact List.suffix_rfl
  | reclaim id => exact List.suffix_cons _ _
  | prune => exact List.suffix_cons _ _
  | allocate extra body _ _ _ => exact List.suffix_cons _ _
  | resize _ _ _ => exact List.suffix_cons _ _

/-- **A turnover keeps the account.** -/
theorem Turnover.metered (h : Turnover limit s t) (hs : s.toStore.Sound) (ht : s.Typed)
    (hm : s.Metered) :
    t.Metered ∧ s.collector.stats.charges <:+ t.collector.stats.charges := by
  induction h with
  | refl => exact ⟨hm, List.suffix_rfl⟩
  | tail hsteps hstep ih =>
    have hstore := (Turnover.kept hsteps hs ht).1
    exact ⟨hstep.metered hstore ih.1, ih.2.trans hstep.charges⟩

end Space

/-! ### Runs -/

/-- A run from a fresh heap keeps the account. -/
lemma accounted_run (o : HeapOptions) (ops : List Operation) :
    (run (Heap.fresh o) ops).toSpace.Metered := by
  obtain ⟨hs, ht, -⟩ := sound_typed_run o []
  have hfresh := (turnover_fresh o).metered (steady_freshSpace o).toSound.store
    (typed_freshSpace o) (metered_fresh o)
  exact ((turnover_run ops hs).2.metered hs.store ht hfresh.1).1

/-- **Memory accounting never drifts.** After any operations, refused ones included, the counter
shows what the occupied places take up: the size of every record, 8 bytes for each slot that an
object has room for, and the length of a text that needs storage of its own. No charge or refund was
ever cut off, and the peak is the highest level that the counter has had, within operations too.
Every later operation carries the log on. -/
theorem metered_run (o : HeapOptions) (ops : List Operation) :
    let h := run (Heap.fresh o) ops
    h.usedMemory = ∑ id ∈ Finset.range h.arena.cells.size, (match h.arena.get? id with
      | some (.live r) => r.header.size.toNat + (match r.body with
        | .object p => 8 * p.slots.size
        | .string text => if Environment.storesText text then text.utf8ByteSize else 0
        | _ => 0)
      | some (.pooled k) => k.size.toNat
      | none => 0) ∧
    h.toSpace.Metered ∧
      ∀ op, h.collector.stats.charges <:+ (apply op h).2.collector.stats.charges := by
  intro h
  obtain ⟨hs, ht, -⟩ := sound_typed_run o ops
  have hm : h.toSpace.Metered := accounted_run o ops
  refine ⟨hm.used.trans (Finset.sum_congr rfl fun id _ => ?_), hm,
    fun op => ((turnover_run [op] hs).2.metered hs.store ht hm).2⟩
  rcases hg : h.arena.get? id with _ | (r | k)
  · exact Arena.bytesAt_of_none hg
  · rw [Arena.bytesAt_of_get? hg, Cell.bytes, Record.bytes, Body.storageBytes_eq]
  · exact Arena.bytesAt_of_get? hg

end ScriptHeap
