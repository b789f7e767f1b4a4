import ScriptHeap.Collector.Collect
import ScriptHeap.Proofs.Marking
import ScriptHeap.Proofs.RootTable
import ScriptHeap.Proofs.Store

/-!
The turnover of records. Whatever the collector and the barrier do to a space, to its stock of
records only a few things can happen: a record comes, goes, is pruned from its pool or has its
storage resized. Everything else retains type, size and storage of every record, and what is charged
for them. The books of a space are kept by these steps alone.
-/

namespace ScriptHeap

/-- The kind of the records that the body can belong to. -/
def Body.kind? : Body → Option Kind
  | object _ => some .object
  | string _ => some .string
  | number _ => some .number
  | boolean _ => some .boolean
  | native _ | empty => some .native
  | free => none

lemma Body.fits_iff {kind : Kind} {b : Body} : b.fits kind = true ↔ b.kind? = some kind := by
  have hfits : b.fits kind = (b.kind? == some kind) := by
    cases kind <;> cases b <;> rfl
  rw [hfits, beq_iff_eq]

variable [Environment]

lemma Body.storageBytes_of_native {b : Body} (h : b.kind? = some .native) :
    b.storageBytes = 0 := by
  cases b with
  | native p => rfl
  | empty => rfl
  | _ => cases h

/-- What a record takes up: its type, the bytes of the record and of its body, and the kind of the
body. -/
structure Stock where
  type : TypeId
  size : UInt32
  storage : Nat
  kind? : Option Kind

def Record.stock (r : Record) : Stock :=
  ⟨r.type, r.header.size, r.body.storageBytes, r.body.kind?⟩

/-- What has been charged and refunded. -/
def Stats.memory (s : Stats) : Nat × Nat × List Int := (s.usedMemory, s.peakMemory, s.charges)

namespace Arena

/-- The same places are vacant, pooled and live, and live records take up the same. -/
structure SameStock (a b : Arena) : Prop where
  shape : a.SameShape b
  stock : ∀ id, (b.live? id).map Record.stock = (a.live? id).map Record.stock

variable {a b c : Arena}

lemma SameStock.refl (a : Arena) : a.SameStock a := ⟨.refl a, fun _ => rfl⟩

lemma SameStock.trans (h : a.SameStock b) (k : b.SameStock c) : a.SameStock c :=
  ⟨h.shape.trans k.shape, fun id => (k.stock id).trans (h.stock id)⟩

lemma SameStock.live' (h : a.SameStock b) {id : RecordId} {q : Record}
    (hq : b.live? id = some q) : ∃ r, a.live? id = some r ∧ q.stock = r.stock := by
  have hstock := h.stock id
  rw [hq] at hstock
  obtain ⟨r, hr, e⟩ := Option.map_eq_some_iff.1 hstock.symm
  exact ⟨r, hr, e.symm⟩

lemma Alike.sameStock (h : a.Alike b) : a.SameStock b :=
  ⟨h.shape, h.live?_map_of fun hcore => (congrArg Record.stock hcore :)⟩

lemma sameStock_modify (a : Arena) {id : RecordId} {f : Record → Record}
    (hf : ∀ r, a.live? id = some r → (f r).stock = r.stock) : a.SameStock (a.modify id f) :=
  ⟨sameShape_modify a id f, live?_modify_map hf⟩

lemma sameStock_modifyHeader (a : Arena) (id : RecordId) {f : Header → Header}
    (hf : ∀ h, (f h).size = h.size) : a.SameStock (a.modifyHeader id f) :=
  sameStock_modify a fun r _ => by simp [Record.stock, hf]

lemma sameStock_modifyHeaders (a : Arena) (ids : List RecordId) {f : Header → Header}
    (hf : ∀ h, (f h).size = h.size) : a.SameStock (a.modifyHeaders ids f) := by
  induction ids generalizing a with
  | nil => exact .refl a
  | cons id ids ih => exact (sameStock_modifyHeader a id hf).trans (ih _)

end Arena

namespace Space

/-- Every record takes up what it took up before, and nothing was charged. -/
structure Retains (s s' : Space) : Prop where
  stock : s.arena.SameStock s'.arena
  pools : s'.pools = s.pools
  types : s'.types = s.types
  memory : s'.collector.stats.memory = s.collector.stats.memory

/-- Types are numbered in order, the built-in ones come first, and a live record has a body of the
kind of its type. -/
structure Typed (s : Space) : Prop where
  ids : ∀ i info, s.types.get? i = some info → info.id = i
  builtin : ∀ (i : Nat) d, TypeRegistry.builtinDefs[i]? = some d →
    ∃ info, s.types.get? i = some info ∧ info.toTypeDef = d
  fits : ∀ id r, s.arena.live? id = some r →
    ∃ info, s.types.get? r.type = some info ∧ r.body.fits info.kind = true

/-- A record of the type that takes so many bytes gets in: a pool provides one, or the limit leaves
room for it. -/
def Admits (s : Space) (limit : Nat) (type : TypeId) (bytes : Nat) : Prop :=
  s.pools.hasFree type = true ∨ min (s.usedMemory + bytes) HeapOptions.unlimited ≤ limit

/-- One step of the turnover under a limit on memory. -/
inductive Turn (limit : Nat) : Space → Space → Prop
  | retain {s s' : Space} : Retains s s' → Turn limit s s'
  | reclaim {s : Space} (id : RecordId) : Turn limit s (s.reclaim id)
  | prune {s : Space} : Turn limit s s.prune.2
  | allocate {s : Space} {type : TypeId} {info : TypeInfo} (extra : Nat) (body : Body) :
    s.types.get? type = some info → (s.Typed → body.fits info.kind = true) →
    s.Admits limit type (info.instanceSize + extra + body.storageBytes) →
    Turn limit s (s.allocate info extra body).2
  | resize {s : Space} {id : RecordId} {r : Record} {body : Body} : s.arena.live? id = some r →
    body.kind? = r.body.kind? →
    (body.storageBytes ≤ r.body.storageBytes ∨
      s.usedMemory + (body.storageBytes - r.body.storageBytes) ≤ limit) →
    Turn limit s (({ s with arena := s.arena.setBody id body } : Space).track
      ((body.storageBytes : Int) - r.body.storageBytes))
  | define {s : Space} (d : TypeDef) : Turn limit s { s with types := (s.types.define d).2 }

/-- A sequence of such steps. -/
def Turnover (limit : Nat) : Space → Space → Prop := Relation.ReflTransGen (Turn limit)

/-! ### What the collector retains -/

namespace Retains

variable {s t u : Space}

lemma refl (s : Space) : Retains s s := ⟨.refl _, rfl, rfl, rfl⟩

lemma trans (h : Retains s t) (k : Retains t u) : Retains s u :=
  ⟨h.stock.trans k.stock, k.pools.trans h.pools, k.types.trans h.types, k.memory.trans h.memory⟩

lemma of_relisted (h : s.Relisted t) : Retains s t where
  stock := h.alike.sameStock
  pools := pools_of_bare h.bare
  types := congrArg (·.types) h.bare
  memory := congrArg (·.collector.stats.memory) h.bare

lemma modifyHeader (s : Space) (id : RecordId) {f : Header → Header}
    (hf : ∀ h, (f h).size = h.size) : Retains s (s.modifyHeader id f) :=
  ⟨Arena.sameStock_modifyHeader _ _ hf, rfl, rfl, rfl⟩

lemma modifyHeaders (s : Space) (ids : List RecordId) {f : Header → Header}
    (hf : ∀ h, (f h).size = h.size) : Retains s (s.modifyHeaders ids f) :=
  ⟨Arena.sameStock_modifyHeaders _ _ hf, rfl, rfl, rfl⟩

lemma emit (s : Space) (e : Event) : Retains s (s.emit e) := ⟨.refl _, rfl, rfl, rfl⟩

lemma updateBucket (s : Space) (g : Gen) (f : Bucket → Bucket) : Retains s (s.updateBucket g f) :=
  ⟨.refl _, rfl, rfl, rfl⟩

lemma foldl {α : Type} {f : Space → α → Space} (hf : ∀ s a, Retains s (f s a)) (as : List α)
    (s : Space) : Retains s (as.foldl f s) := by
  induction as generalizing s with
  | nil => exact .refl s
  | cons a as ih => exact (hf s a).trans (ih (f s a))

lemma onBuckets (s : Space) (gs : List Gen) {f : Header → Header}
    (hf : ∀ h, (f h).size = h.size) : Retains s (s.onBuckets f gs) :=
  foldl (fun s g => modifyHeaders s (s.bucket g).live hf) gs s

lemma drain (s : Space) (limit : Gen) : Retains s (s.drain limit).2 :=
  ⟨(Marking.alike_drain limit ⟨s.arena, s.collector.worklist, 0⟩).sameStock, rfl, rfl, rfl⟩

lemma addRoot (s : Space) (g : Gen) (holder : RecordId) : Retains s (s.addRoot g holder).2 :=
  .of_relisted (lists_addRoot s g holder).relinked.toRelisted

lemma mark (s : Space) (target : Gen) (roots : List RecordId) (repair : Bool) :
    Retains s (s.mark target roots repair).2 := by
  let s1 := s.withPhase .marking
  let s2 := s1.modifyHeaders (s1.holders target) fun h =>
    { h with refLinks := h.refLinks.eraseUpTo target }
  let s3 := s2.schedule (roots ++ s2.permanents target)
  let s4 := (s3.drain target).2
  let s5 := s4.schedule (s4.elders target repair)
  have h1 : Retains s s1 := ⟨.refl _, rfl, rfl, rfl⟩
  have h2 : Retains s1 s2 := modifyHeaders _ _ fun _ => rfl
  have h3 : Retains s2 s3 := ⟨.refl _, rfl, rfl, rfl⟩
  have h4 : Retains s3 s4 := drain _ _
  have h5 : Retains s4 s5 := ⟨.refl _, rfl, rfl, rfl⟩
  have h6 : Retains s5 (s5.drain .eternal).2 := drain _ _
  exact ((((h1.trans h2).trans h3).trans h4).trans h5).trans h6

lemma promote (s : Space) (g : Gen) (id : RecordId) : Retains s (s.promote g id) :=
  ((emit s (.promoted id g)).trans (updateBucket _ g.next (·.link id))).trans (addRoot _ g id)

lemma relink (s : Space) (g : Gen) (holder : RecordId) : Retains s (s.relink g holder) := by
  unfold Space.relink
  split
  · exact refl s
  · exact modifyHeader _ _ fun _ => rfl

lemma compactTable (s : Space) (g : Gen) : Retains s (s.compactTable g) := by
  have h1 : Retains s ((s.bucket g).roots.foldl (Space.relink · g) s) :=
    foldl (fun s holder => relink s g holder) _ s
  exact (h1.trans (updateBucket _ g _)).trans
    (foldl (fun s (p : RecordId × Gen) => addRoot s p.2 p.1) _ _)

lemma resetRoots (s : Space) (target : Gen) : Retains s (s.resetRoots target) :=
  foldl compactTable _ s

lemma clearRoots (s : Space) : Retains s s.clearRoots := by
  have h1 : Retains s (Gen.all.foldl (fun s g => s.updateBucket g ({ · with roots := [] })) s) :=
    foldl (fun s g => updateBucket s g _) _ s
  have h2 := h1.trans (onBuckets _ Gen.all (f := ({ · with rootLinks := ∅ })) fun _ => rfl)
  exact h2.trans ⟨.refl _, rfl, rfl, rfl⟩

lemma relist (s : Space) (g : Gen) (holder : RecordId) : Retains s (s.relist g holder) := by
  unfold Space.relist
  split
  · exact refl s
  · next refs _ =>
    have h1 : Retains s (s.modifyHeader holder ({ · with refLinks := refs })) :=
      modifyHeader s holder fun _ => rfl
    exact h1.trans (foldl (fun s young => addRoot s young holder) _ _)

lemma rebuildRoots (s : Space) : Retains s s.rebuildRoots := by
  have h1 := clearRoots s
  generalize ht : s.clearRoots = t at h1
  have h2 : Retains t ((Gen.above .new).foldl
      (fun s g => (s.bucket g).live.foldl (Space.relist · g) s) t) :=
    foldl (fun s g => foldl (fun s holder => relist s g holder) _ s) _ t
  unfold Space.rebuildRoots
  rw [ht]
  exact (h1.trans h2).trans (emit _ _)

end Retains

/-! ### Collections -/

section

variable {limit : Nat} {s t u : Space}

namespace Turnover

lemma refl (s : Space) : Turnover limit s s := Relation.ReflTransGen.refl

lemma trans (h : Turnover limit s t) (k : Turnover limit t u) : Turnover limit s u :=
  Relation.ReflTransGen.trans h k

lemma single (h : Turn limit s t) : Turnover limit s t := Relation.ReflTransGen.single h

lemma retain (h : Retains s t) : Turnover limit s t := single (.retain h)

lemma foldl {α : Type} {f : Space → α → Space} (hf : ∀ s a, Turnover limit s (f s a))
    (as : List α) (s : Space) : Turnover limit s (as.foldl f s) := by
  induction as generalizing s with
  | nil => exact refl s
  | cons a as ih => exact (hf s a).trans (ih (f s a))

end Turnover

lemma turnover_sweepBucket (s : Space) (g : Gen) : Turnover limit s (s.sweepBucket g).2 := by
  have haged : ∀ h : Header, (h.aged g).size = h.size := fun h => by
    unfold Header.aged
    split
    · rfl
    · split
      · split <;> rfl
      · rfl
  let s1 := s.modifyHeaders (s.fated g .keep ++ s.fated g .promote) (·.aged g)
  let s2 := (s.fated g .reclaim).foldl reclaim s1
  let s3 := s2.updateBucket g (·.swept (s.fated g .keep) (s.fated g .reclaim).length)
  have h1 : Turnover limit s s1 := .retain (.modifyHeaders _ _ haged)
  have h2 : Turnover limit s1 s2 := .foldl (fun s id => .single (.reclaim id)) _ s1
  have h3 : Turnover limit s2 s3 := .retain (.updateBucket _ _ _)
  have h4 : Turnover limit s3 ((s.fated g .promote).foldl (promote · g) s3) :=
    .retain (.foldl (fun s id => .promote s g id) _ s3)
  exact ((h1.trans h2).trans h3).trans h4

lemma turnover_sweep (s : Space) (target : Gen) : Turnover limit s (s.sweep target).2 := by
  let step (p : SweepCount × Space) (g : Gen) : SweepCount × Space :=
    (⟨p.1.reclaimed + (sweepBucket p.2 g).1.reclaimed,
      p.1.promoted + (sweepBucket p.2 g).1.promoted⟩, (sweepBucket p.2 g).2)
  have hfold (gs : List Gen) (p : SweepCount × Space) :
      Turnover limit p.2 (gs.foldl step p).2 := by
    induction gs generalizing p with
    | nil => exact .refl _
    | cons g gs ih => exact (turnover_sweepBucket p.2 g).trans (ih (step p g))
  let s1 : Space := { s with collector := { s.collector with phase := .sweeping } }
  let s2 := ((Gen.upTo target).reverse.foldl step (⟨0, 0⟩, s1)).2
  let s3 := s2.onBuckets ({ · with marked := false }) (Gen.above target)
  have h1 : Turnover limit s s1 := .retain ⟨.refl _, rfl, rfl, rfl⟩
  have h2 : Turnover limit s1 s2 := hfold _ (⟨0, 0⟩, s1)
  have h3 : Turnover limit s2 s3 := .retain (.onBuckets _ _ fun _ => rfl)
  exact ((h1.trans h2).trans h3).trans (.retain ⟨.refl _, rfl, rfl, rfl⟩)

lemma turnover_collectPass (s : Space) (target : Gen) (roots : List RecordId) (repair : Bool)
    (info : CollectInfo) : Turnover limit s (s.collectPass target roots repair info).2 := by
  let s1 := s.emit (.passStarted target repair)
  let s2 := (s1.mark target roots repair).2
  let s3 := (s2.sweep target).2
  let s4 := if repair then s3.rebuildRoots else s3.resetRoots target
  have h1 : Turnover limit s s1 := .retain (.emit _ _)
  have h2 : Turnover limit s1 s2 := .retain (.mark _ _ _ _)
  have h3 : Turnover limit s2 s3 := turnover_sweep _ _
  have h4 : Turnover limit s3 s4 := by
    dsimp only [s4]
    split
    · exact .retain (.rebuildRoots _)
    · exact .retain (.resetRoots _ _)
  exact (((h1.trans h2).trans h3).trans h4).trans (.retain ⟨.refl _, rfl, rfl, rfl⟩)

lemma turnover_smartPasses (roots : List RecordId) (n : Nat) (info : CollectInfo) (s : Space) :
    Turnover limit s (smartPasses roots n info s).2 := by
  induction n generalizing info s with
  | zero => exact .refl s
  | succ n ih =>
    unfold smartPasses
    split
    · exact .refl s
    · exact (turnover_collectPass s _ roots false info).trans (ih _ _)

/-- **A collection reclaims records** and otherwise leaves what there is. -/
theorem turnover_collect (s : Space) (mode : Mode) (roots : List RecordId) :
    Turnover limit s (s.collect mode roots).2 := by
  unfold collect
  split
  · exact .refl s
  · let s1 : Space :=
      { s with collector := { s.collector with required := false, workDone := 0 } }
    have h1 : Turnover limit s s1 := .retain ⟨.refl _, rfl, rfl, rfl⟩
    have h2 : Turnover limit s1 (s1.runPasses mode roots).2 := by
      unfold runPasses
      split
      · exact turnover_collectPass _ _ _ _ _
      · split
        · exact turnover_collectPass _ _ _ _ _
        · exact turnover_collectPass _ _ _ _ _
        · exact turnover_smartPasses _ _ _ _
    refine (h1.trans h2).trans (.retain ⟨.refl _, rfl, rfl, ?_⟩)
    dsimp only [emit]
    cases (s1.runPasses mode roots).1.mode <;> rfl

/-! ### Types -/

lemma get?_define (r : TypeRegistry) (d : TypeDef) (i : TypeId) : (r.define d).2.get? i =
    if i = r.size then some (.make r.size d) else r.get? i := by
  simp only [TypeRegistry.get?, TypeRegistry.define, TypeRegistry.size, Array.getElem?_push]
  rfl

/-- A type more leaves the others what they are. -/
lemma get?_define_of_some {r : TypeRegistry} {i : TypeId} {info : TypeInfo}
    (h : r.get? i = some info) (d : TypeDef) : (r.define d).2.get? i = some info := by
  rw [get?_define, if_neg, h]
  rintro rfl
  simp [TypeRegistry.get?, TypeRegistry.size] at h

/-- New types are numbered from the first free number on. -/
lemma get?_defineAll (ds : List TypeDef) (r : TypeRegistry) (i : TypeId) :
    (r.defineAll ds).get? i =
      if i < r.size then r.get? i else (ds[i - r.size]?).map (.make i) := by
  induction ds generalizing r with
  | nil =>
    have hnone (hi : ¬ i < r.size) : r.get? i = none := Array.getElem?_eq_none (Nat.not_lt.1 hi)
    simpa [TypeRegistry.defineAll] using hnone
  | cons d ds ih =>
    have hsize : (r.define d).2.size = r.size + 1 := Array.size_push _
    refine (ih (r.define d).2).trans ?_
    rw [hsize, get?_define]
    rcases Nat.lt_trichotomy i r.size with hi | rfl | hi
    · rw [if_pos (Nat.lt_succ_of_lt hi), if_neg (Nat.ne_of_lt hi), if_pos hi]
    · simp
    · obtain ⟨k, rfl⟩ := Nat.exists_eq_add_of_lt hi
      have hold : ¬ r.size + k + 1 < r.size := by omega
      have hnew : ¬ r.size + k + 1 < r.size + 1 := by omega
      have hk : r.size + k + 1 - r.size = k + 1 := by omega
      have hk' : r.size + k + 1 - (r.size + 1) = k := by omega
      rw [if_neg hnew, if_neg hold, hk, hk', List.getElem?_cons_succ]

lemma Typed.define (ht : s.Typed) (d : TypeDef) :
    Typed { s with types := (s.types.define d).2 } := by
  refine ⟨fun i info hi => ?_, fun i d' hd => ?_, fun id r hr => ?_⟩
  · rw [get?_define] at hi
    split at hi
    · next e =>
      obtain rfl := Option.some.inj hi
      exact e.symm
    · exact ht.ids i info hi
  · obtain ⟨info, hi, e⟩ := ht.builtin i d' hd
    exact ⟨info, get?_define_of_some hi d, e⟩
  · obtain ⟨info, hi, hfits⟩ := ht.fits id r hr
    exact ⟨info, get?_define_of_some hi d, hfits⟩

/-! ### Allocations -/

/-- The record that the store provides joins the generation that is allocated into. -/
lemma arena_allocate (s : Space) (info : TypeInfo) (extra : Nat) (body : Body) :
    (s.allocate info extra body).2.arena =
      (s.toStore.allocate info extra body).2.arena.modifyHeader
        (s.toStore.allocate info extra body).1.id
        ({ · with generation := s.collector.allocGeneration }) := rfl

lemma sameStock_allocate (s : Space) (info : TypeInfo) (extra : Nat) (body : Body) :
    (s.toStore.allocate info extra body).2.arena.SameStock
      (s.allocate info extra body).2.arena :=
  Arena.sameStock_modifyHeader _ (s.toStore.allocate info extra body).1.id
    (f := ({ · with generation := s.collector.allocGeneration })) fun _ => rfl

lemma live?_allocate_self (hs : s.toStore.Sound) (info : TypeInfo) (extra : Nat) (body : Body) :
    ∃ seq size, (s.allocate info extra body).2.arena.live? (s.allocate info extra body).1.id =
      some ⟨{ Header.fresh seq size with generation := s.collector.allocGeneration }, info.id,
        body⟩ := by
  obtain ⟨seq, size, hborn⟩ := (Store.allocates_allocate hs info extra body).born
  refine ⟨seq, size, ?_⟩
  rw [arena_allocate, Arena.live?_modifyHeader]
  exact (if_pos rfl).trans (congrArg (Option.map _) hborn)

lemma live?_allocate_ne (hs : s.toStore.Sound) {info : TypeInfo} {extra : Nat} {body : Body}
    {j : RecordId} (hj : j ≠ (s.allocate info extra body).1.id) :
    (s.allocate info extra body).2.arena.live? j = s.arena.live? j := by
  rw [arena_allocate, Arena.live?_modifyHeader]
  exact (if_neg hj).trans
    (Arena.live?_congr ((Store.allocates_allocate hs info extra body).others j hj))

/-! ### What every step keeps -/

namespace Turn

/-- **The books of the store are kept.** -/
theorem store (h : Turn limit s t) (hs : s.toStore.Sound) : t.toStore.Sound := by
  cases h with
  | retain h =>
    have e : t.toStore = { s.toStore with arena := t.arena } :=
      congrArg (Store.mk t.arena) h.pools
    exact e ▸ hs.of_sameShape h.stock.shape
  | reclaim id => exact hs.reclaim id
  | prune => exact hs.prune
  | allocate extra body _ _ _ =>
    exact (Store.allocates_allocate hs _ extra body).sound.of_sameShape
      (Arena.sameShape_modify _ _ _)
  | resize _ _ _ => exact hs.of_sameShape (Arena.sameShape_modify _ _ _)
  | define d => exact hs

/-- The types that have a pool are fixed. -/
lemma maxTypes (h : Turn limit s t) : t.pools.maxTypes = s.pools.maxTypes := by
  cases h with
  | retain h => rw [h.pools]
  | reclaim id =>
    change (s.toStore.reclaim id).2.pools.maxTypes = _
    unfold Store.reclaim
    split
    · rfl
    · split
      · exact TypePools.maxTypes_update _ _ _
      · rfl
  | prune => rfl
  | @allocate _ info extra body _ _ _ =>
    change (s.toStore.allocate info extra body).2.pools.maxTypes = _
    unfold Store.allocate
    dsimp only
    split <;> exact TypePools.maxTypes_update _ _ _
  | resize _ _ _ => rfl
  | define d => rfl

/-- **Types and bodies stay in order.** -/
theorem typed (h : Turn limit s t) (hs : s.toStore.Sound) (ht : s.Typed) : t.Typed := by
  cases h with
  | retain h =>
    refine ⟨h.types ▸ ht.ids, h.types ▸ ht.builtin, fun id q hq => ?_⟩
    obtain ⟨r, hr, e⟩ := h.stock.live' hq
    obtain ⟨info, hinfo, hfits⟩ := ht.fits id r hr
    have htype : q.type = r.type := congrArg Stock.type e
    have hkind : q.body.kind? = r.body.kind? := congrArg Stock.kind? e
    refine ⟨info, by rw [h.types, htype, hinfo], ?_⟩
    rwa [Body.fits_iff, hkind, ← Body.fits_iff]
  | reclaim id =>
    refine ⟨ht.ids, ht.builtin, fun j q hq => ht.fits j q ?_⟩
    change (s.toStore.reclaim id).2.arena.live? j = some q at hq
    rw [Store.live?_reclaim] at hq
    split at hq
    · simp at hq
    · exact hq
  | prune => exact ⟨ht.ids, ht.builtin, fun j q hq => ht.fits j q (hs.live?_prune j ▸ hq)⟩
  | @allocate _ info extra body hinfo hfits _ =>
    refine ⟨ht.ids, ht.builtin, fun j q hq => ?_⟩
    by_cases hj : j = (s.allocate info extra body).1.id
    · obtain ⟨seq, size, hborn⟩ := live?_allocate_self hs info extra body
      rw [hj, hborn] at hq
      obtain rfl := Option.some.inj hq
      exact ⟨_, (ht.ids _ _ hinfo).symm ▸ hinfo, hfits ht⟩
    · exact ht.fits j q (live?_allocate_ne hs hj ▸ hq)
  | @resize id r body hr hkind _ =>
    refine ⟨ht.ids, ht.builtin, fun j q hq => ?_⟩
    change (s.arena.setBody id body).live? j = some q at hq
    rw [Arena.live?_setBody] at hq
    split at hq
    · next e =>
      subst e
      rw [hr] at hq
      obtain rfl := Option.some.inj hq
      obtain ⟨info, hinfo, hfits⟩ := ht.fits j r hr
      refine ⟨info, hinfo, ?_⟩
      rwa [Body.fits_iff, hkind, ← Body.fits_iff]
    · exact ht.fits j q hq
  | define d => exact ht.define d

end Turn

/-- **A turnover keeps the books, the types and which types have a pool.** -/
theorem Turnover.kept (h : Turnover limit s t) (hs : s.toStore.Sound) (ht : s.Typed) :
    t.toStore.Sound ∧ t.Typed ∧ t.pools.maxTypes = s.pools.maxTypes := by
  induction h with
  | refl => exact ⟨hs, ht, rfl⟩
  | tail _ hstep ih =>
    obtain ⟨hs, ht, hmax⟩ := ih
    exact ⟨hstep.store hs, hstep.typed hs ht, hstep.maxTypes.trans hmax⟩

lemma Turn.get?_types (h : Turn limit s t) {type : TypeId} {info : TypeInfo}
    (hinfo : s.types.get? type = some info) : t.types.get? type = some info := by
  cases h with
  | retain h => rwa [h.types]
  | define d => exact get?_define_of_some hinfo d
  | _ => exact hinfo

/-- **A type stays what it was defined to be.** -/
theorem Turnover.get?_types (h : Turnover limit s t) {type : TypeId} {info : TypeInfo}
    (hinfo : s.types.get? type = some info) : t.types.get? type = some info := by
  induction h with
  | refl => exact hinfo
  | tail _ hstep ih => exact hstep.get?_types ih

end

end Space

end ScriptHeap
