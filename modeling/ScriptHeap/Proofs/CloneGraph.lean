import Mathlib
import ScriptHeap.Proofs.Runs

/-!
Deep clones as copies of graphs. The objects that a deep clone copies are its root and whatever
objects the slots of a copied object hold, permanent ones excepted. The graph may be cyclic and
shared, and the copies are patched while further ones are made.

While the clone is under way an object has one copy at most, and every slot of a copy either waits,
and then holds what the original holds, or it is settled. A slot that holds an object to be copied
settles once its copy exists, any other slot as it is. The loop ends when no copy waits, so then the
copies are an image of all the graph. It does end, because the originals were all live at the start.
-/

namespace ScriptHeap

open Heap Space

/-- The same names, number of slots in use, shape and room. -/
structure Object.SameLayout (o o' : Object) : Prop where
  names : o'.names = o.names
  count : o'.count = o.count
  dynamic : o'.dynamic = o.dynamic
  capacity : o'.capacity = o.capacity

namespace Heap

/-! ### The graph and its copies -/

/-- The record is an object that is not permanent. -/
def Clonable (h : Heap) (y : RecordId) : Prop :=
  ∃ r o, h.arena.live? y = some r ∧ r.body = .object o ∧ r.header.permanent = false

/-- No slot of an object dangles. -/
def NoDangling (h : Heap) : Prop :=
  ∀ x o, h.object x = .ok o → ∀ y ∈ o.references, h.arena.isLive y = true

/-- The objects that a deep clone of the root copies: the root, and every object in a slot of one of
them unless it is permanent. -/
inductive Spanned (h : Heap) (root : RecordId) : RecordId → Prop
  | root : Spanned h root root
  | child {x y : RecordId} {o : Object} : Spanned h root x → h.object x = .ok o →
    y ∈ o.references → h.Clonable y → Spanned h root y

/-- The records that are live in the second heap but not in the first. -/
def newborn (h h' : Heap) : Set RecordId :=
  {j | h.arena.isLive j = false ∧ h'.arena.isLive j = true}

lemma isCloned_iff {h : Heap} {y : RecordId} : h.isCloned y = true ↔ h.Clonable y := by
  simp only [isCloned, Option.any_eq_true, Bool.and_eq_true, Bool.not_eq_true', Clonable]
  refine exists_congr fun r => ?_
  cases r.body <;> simp [Body.object?]

lemma clonable_congr {h h' : Heap} {y : RecordId} (e : h'.arena.live? y = h.arena.live? y) :
    h'.Clonable y ↔ h.Clonable y := by
  rw [Clonable, e, Clonable]

section Newborn

variable {h m h' : Heap} {new : List RecordId} (hadds : Adds h.toSpace m.toSpace new)
  (ha : m.arena.Alike h'.arena)
include hadds ha

end Newborn

/-! ### What a slot of a copy holds -/

/-- What a settled slot of a copy holds in place of what the original holds. -/
inductive StandsIn (start : Heap) (copies : List (RecordId × RecordId)) : Slot → Slot → Prop
  | copied {y t : RecordId} : start.Clonable y → (y, t) ∈ copies →
    StandsIn start copies (some y) (some t)
  | kept {v : Slot} : (∀ y, v = some y → ¬ start.Clonable y) → StandsIn start copies v v

/-- An object on its way to be the copy of another one. The slots in `todo` wait. -/
structure Patched (start : Heap) (copies : List (RecordId × RecordId)) (todo : Nat → Prop)
    (o o' : Object) : Prop extends o.SameLayout o' where
  waiting : ∀ i, todo i → o'.slotAt i = o.slotAt i
  settled : ∀ i, ¬ todo i → StandsIn start copies (o.slotAt i) (o'.slotAt i)

section Patched

variable {start : Heap} {copies : List (RecordId × RecordId)} {todo : Nat → Prop} {o o' : Object}

lemma StandsIn.cons {v v' : Slot} (h : StandsIn start copies v v') (p : RecordId × RecordId) :
    StandsIn start (p :: copies) v v' := by
  cases h with
  | copied hy ht => exact .copied hy (List.mem_cons_of_mem _ ht)
  | kept hv => exact .kept hv

namespace Patched

/-- A copy that is as the original waits with all its slots. -/
lemma refl (o : Object) (htodo : ∀ i, todo i) : Patched start copies todo o o :=
  ⟨⟨rfl, rfl, rfl, rfl⟩, fun _ _ => rfl, fun i hi => absurd (htodo i) hi⟩

lemma cons (h : Patched start copies todo o o') (p : RecordId × RecordId) :
    Patched start (p :: copies) todo o o' :=
  ⟨h.toSameLayout, h.waiting, fun i hi => (h.settled i hi).cons p⟩

lemma congr {todo' : Nat → Prop} (h : Patched start copies todo o o')
    (htodo : ∀ i, todo' i ↔ todo i) : Patched start copies todo' o o' :=
  ⟨h.toSameLayout, fun i hi => h.waiting i ((htodo i).1 hi),
    fun i hi => h.settled i fun hi' => hi ((htodo i).2 hi')⟩

/-- A slot settles as it is. -/
lemma settle {todo' : Nat → Prop} (h : Patched start copies todo o o')
    (htodo : ∀ i, todo' i → todo i)
    (hkept : ∀ i, todo i → ¬ todo' i → ∀ y, o.slotAt i = some y → ¬ start.Clonable y) :
    Patched start copies todo' o o' := by
  refine ⟨h.toSameLayout, fun i hi => h.waiting i (htodo i hi), fun i hi => ?_⟩
  by_cases hold : todo i
  · rw [h.waiting i hold]
    exact .kept (hkept i hold hi)
  · exact h.settled i hold

/-- A slot settles by a write. -/
lemma write {k : Nat} {v : Slot} (h : Patched start copies todo o o') (hk : k < o.capacity)
    (hv : StandsIn start copies (o.slotAt k) v) :
    Patched start copies (fun i => todo i ∧ i ≠ k) o (o'.write k v) := by
  have hlt : k < o'.capacity := h.capacity ▸ hk
  refine ⟨⟨h.names, h.count, h.dynamic, (Object.capacity_write _ _ _).trans h.capacity⟩,
    fun i hi => ?_, fun i hi => ?_⟩
  · rw [Object.slotAt_write, if_neg fun e => hi.2 e.1, h.waiting i hi.1]
  · rw [Object.slotAt_write]
    by_cases e : i = k
    · rw [if_pos ⟨e, hlt⟩, e]
      exact hv
    · rw [if_neg fun e' => e e'.1]
      exact h.settled i fun hi' => hi ⟨hi', e⟩

end Patched

end Patched

/-! ### A deep clone under way -/

def Cloning.sources (c : Cloning) : List RecordId := c.copies.map (·.1)

lemma Cloning.mem_sources {c : Cloning} {x t : RecordId} (h : (x, t) ∈ c.copies) :
    x ∈ c.sources := List.mem_map.2 ⟨_, h, rfl⟩

lemma Cloning.not_mem_sources {c : Cloning} {x : RecordId} (h : c.copies.lookup x = none) :
    x ∉ c.sources := fun hmem => by
  obtain ⟨p, hp, e⟩ := List.mem_map.1 hmem
  simpa [e] using List.lookup_eq_none_iff.1 h p hp

/-- The record `t` is on its way to be the copy of `x`. -/
def Mirrors (start h : Heap) (copies : List (RecordId × RecordId)) (todo : Nat → Prop)
    (x t : RecordId) : Prop :=
  ∃ r o q o', start.arena.live? x = some r ∧ r.body = .object o ∧ h.arena.live? t = some q ∧
    q.body = .object o' ∧ q.type = r.type ∧ Patched start copies todo o o'

/-- The copies made so far, `n` of which do not wait any more. The slots in `todo` do. -/
structure Tracks [Environment] (start : Heap) (root top : RecordId) (h : Heap) (c : Cloning)
    (n : Nat) (todo : RecordId → Nat → Prop) : Prop extends Underway False start h c where
  top_mem : (root, top) ∈ c.copies
  sources_nodup : c.sources.Nodup
  targets_nodup : c.targets.Nodup
  pending_nodup : c.pending.Nodup
  length : c.copies.length = n + c.pending.length
  spanned : ∀ x ∈ c.sources, Spanned start root x
  mirrors : ∀ x t, (x, t) ∈ c.copies → Mirrors start h c.copies (todo t) x t

variable [Environment]

section Loop

variable {start h : Heap} {root top : RecordId} {c : Cloning} {n : Nat}
  {todo : RecordId → Nat → Prop}

lemma Underway.typed (hu : Underway False start h c) (hs : start.toSpace.Sound)
    (ht : start.toSpace.Typed) : h.toSpace.Typed := by
  obtain ⟨P, hP, -⟩ := hu.evolves
  exact ((hP.changes.turnover hs).kept hs.store ht).2.1

namespace Tracks

/-- Copies have one original each. -/
lemma source_unique (ht : Tracks start root top h c n todo) {x x' t : RecordId}
    (hx : (x, t) ∈ c.copies) (hx' : (x', t) ∈ c.copies) : x = x' :=
  congrArg Prod.fst (List.inj_on_of_nodup_map ht.targets_nodup hx hx' rfl)

/-- The originals were live at the start, so there are at most as many as there were records. -/
lemma length_le (ht : Tracks start root top h c n todo) :
    c.copies.length ≤ start.arena.cells.size := by
  have hlt : ∀ x ∈ c.sources, x < start.arena.cells.size := fun x hx => by
    obtain ⟨⟨x, t⟩, hp, rfl⟩ := List.mem_map.1 hx
    obtain ⟨r, -, -, -, hr, -⟩ := ht.mirrors x t hp
    exact Arena.lt_size_of_get? (Arena.live?_eq_some.1 hr)
  have hsub : c.sources ⊆ List.range start.arena.cells.size := fun x hx =>
    List.mem_range.2 (hlt x hx)
  simpa [Cloning.sources] using (ht.sources_nodup.subperm hsub).length_le

lemma congr {todo' : RecordId → Nat → Prop} (ht : Tracks start root top h c n todo)
    (htodo : ∀ t ∈ c.targets, ∀ i, todo' t i ↔ todo t i) : Tracks start root top h c n todo' := by
  refine { ht with mirrors := fun x t hp => ?_ }
  obtain ⟨r, o, q, o', hr, hb, hq, hb', htype, hpatched⟩ := ht.mirrors x t hp
  exact ⟨r, o, q, o', hr, hb, hq, hb', htype, hpatched.congr (htodo t (Cloning.mem_targets hp))⟩

/-- Slots settle as they are. -/
lemma settle {todo' : RecordId → Nat → Prop} (ht : Tracks start root top h c n todo)
    (htodo : ∀ t i, todo' t i → todo t i)
    (hkept : ∀ x t o i, (x, t) ∈ c.copies → start.object x = .ok o → todo t i → ¬ todo' t i →
      ∀ y, o.slotAt i = some y → ¬ start.Clonable y) : Tracks start root top h c n todo' := by
  refine { ht with mirrors := fun x t hp => ?_ }
  obtain ⟨r, o, q, o', hr, hb, hq, hb', htype, hpatched⟩ := ht.mirrors x t hp
  exact ⟨r, o, q, o', hr, hb, hq, hb', htype,
    hpatched.settle (htodo t) fun i => hkept x t o i hp (object_of_live? hr hb)⟩

/-- A slot settles by a reference to a copy. -/
lemma redirect (ht : Tracks start root top h c n todo) {x copy child target : RecordId}
    {o : Object} {k : Nat} (hx : (x, copy) ∈ c.copies) (ho : start.object x = .ok o)
    (hk : k < o.count) (hroom : o.count ≤ o.capacity) (hchild : o.slotAt k = some child)
    (hclone : start.Clonable child) (htarget : (child, target) ∈ c.copies) :
    Gives (Heap.redirect copy k target) h fun _ h' =>
      Tracks start root top h' c n fun t i => todo t i ∧ ¬ (t = copy ∧ i = k) := by
  obtain ⟨r, o₁, q, o', hr, hb, hq, hb', htype, hpatched⟩ := ht.mirrors x copy hx
  obtain rfl := Except.ok.inj ((object_of_live? hr hb).symm.trans ho)
  have hf : Filling False start h c copy (k + 1) :=
    ⟨ht.toUnderway, Cloning.mem_targets hx, q, o', hq, hb', hpatched.count ▸ hk⟩
  have hf' := hf.redirect (Nat.lt_succ_self k) (Cloning.mem_targets htarget)
  have hlive (j : RecordId) := Arena.live?_setBody h.arena copy
    (.object (o'.write k (some target))) j
  unfold Heap.redirect at hf' ⊢
  rw [yields_modifySpace] at hf'
  rw [gives_modifySpace]
  simp only [Arena.object?_eq_some.2 ⟨q, hq, hb'⟩] at hf' ⊢
  refine { ht with toUnderway := hf'.toUnderway, mirrors := fun x' t hp => ?_ }
  -- the write changes one copy, and that is the copy of no other original
  by_cases e : t = copy
  · subst e
    obtain rfl := ht.source_unique hp hx
    have hwritten := hpatched.write (Nat.lt_of_lt_of_le hk hroom)
      (hchild ▸ .copied hclone htarget : StandsIn start c.copies (o₁.slotAt k) (some target))
    refine ⟨r, o₁, { q with body := .object (o'.write k (some target)) }, _, hr, hb, ?_, rfl, htype,
      hwritten.congr fun i => by simp⟩
    rw [hlive, if_pos rfl, hq]
    rfl
  · obtain ⟨r', p, q', p', hr', hp, hq', hp', htype', hpatched'⟩ := ht.mirrors x' t hp
    exact ⟨r', p, q', p', hr', hp, (hlive t).trans ((if_neg e).trans hq'), hp', htype',
      hpatched'.congr fun i => by simp [e]⟩

/-- A copy more, all slots of which wait. -/
lemma copied (ht : Tracks start root top h c n todo) (htyped : h.toSpace.Typed)
    {child target : RecordId} {r : Record} {o : Object} {h' : Heap}
    (hr : start.arena.live? child = some r) (hb : r.body = .object o)
    (hnew : child ∉ c.sources) (hspan : Spanned start root child)
    (hc : Copies False h h' r.type o target) :
    Tracks start root top h' ⟨(child, target) :: c.copies, target :: c.pending⟩ n
      fun t i => todo t i ∨ t = target := by
  have htarget : target ∉ c.targets := fun hmem => by
    obtain ⟨q, o', hq, -⟩ := ht.copies target hmem
    rw [hc.fresh] at hq
    cases hq
  refine ⟨ht.toUnderway.copied hc, List.mem_cons_of_mem _ ht.top_mem,
    List.nodup_cons.2 ⟨hnew, ht.sources_nodup⟩, List.nodup_cons.2 ⟨htarget, ht.targets_nodup⟩,
    List.nodup_cons.2 ⟨fun hmem => htarget (ht.pending _ hmem), ht.pending_nodup⟩, ?_,
    fun x hx => ?_, fun x t hp => ?_⟩
  · rw [List.length_cons, List.length_cons, ht.length, Nat.add_assoc]
  · rcases List.mem_cons.1 hx with rfl | hx
    · exact hspan
    · exact ht.spanned x hx
  · rcases List.mem_cons.1 hp with e | hp
    · cases e
      obtain ⟨q, hq, hb', htype⟩ := hc.born
      exact ⟨r, o, q, o, hr, hb, hq, hb', htype htyped, .refl o fun i => .inr rfl⟩
    · obtain ⟨r', o₁, q, o', hr', hb', hq, hq', htype, hpatched⟩ := ht.mirrors x t hp
      have hne : t ≠ target := fun e => htarget (e ▸ Cloning.mem_targets hp)
      exact ⟨r', o₁, q, o', hr', hb', hc.live hq, hq', htype,
        (hpatched.cons _).congr fun i => by simp [hne]⟩

end Tracks

/-- While the slots of a copy are gone through, those from the `k`th on wait, and so do all slots of
the copies that have not had their turn. -/
def Waits (c : Cloning) (copy : RecordId) (k : Nat) (t : RecordId) (i : Nat) : Prop :=
  t ∈ c.pending ∨ t = copy ∧ k ≤ i

/-- The slots of the copy of `x` are gone through, up to the `k`th. -/
structure Patching (start : Heap) (root top : RecordId) (h : Heap) (c : Cloning) (n : Nat)
    (x copy : RecordId) (o : Object) (k : Nat) : Prop
    extends Tracks start root top h c n (Waits c copy k) where
  source : (x, copy) ∈ c.copies
  original : start.object x = .ok o
  popped : copy ∉ c.pending

namespace Patching

variable {x copy : RecordId} {o : Object} {k : Nat}

/-- A slot that holds nothing to be copied is left as it is. -/
lemma skip (hp : Patching start root top h c n x copy o k)
    (hkept : ∀ y, o.slotAt k = some y → ¬ start.Clonable y) :
    Patching start root top h c n x copy o (k + 1) := by
  refine ⟨hp.toTracks.settle (fun t i => ?_) ?_, hp.source, hp.original, hp.popped⟩
  · exact Or.imp_right fun ⟨e, hi⟩ => ⟨e, Nat.le_of_succ_le hi⟩
  · intro x' t o' i hx' ho' hwaits hdone y hy
    -- the one slot that no longer waits is the `k`th of this copy
    obtain ⟨rfl, hi⟩ := hwaits.resolve_left fun hmem => hdone (.inl hmem)
    obtain rfl : i = k := by
      by_contra hne
      exact hdone (.inr ⟨rfl, by omega⟩)
    obtain rfl := hp.source_unique hx' hp.source
    obtain rfl := Except.ok.inj (ho'.symm.trans hp.original)
    exact hkept y hy

/-- A slot comes to refer to the copy of what it holds. -/
lemma redirect (hp : Patching start root top h c n x copy o k) (hs : start.toSpace.Sound)
    {child target : RecordId} (hk : k < o.count) (hchild : o.slotAt k = some child)
    (hclone : start.Clonable child) (htarget : (child, target) ∈ c.copies) :
    Gives (Heap.redirect copy k target) h fun _ h' =>
      Patching start root top h' c n x copy o (k + 1) := by
  obtain ⟨r, hr, hb⟩ := object_eq_ok hp.original
  have hsound := hs.objects x r o hr hb
  refine (hp.toTracks.redirect hp.source hp.original hk hsound.count_le hchild hclone
    htarget).mono fun _ h' ht => ?_
  refine ⟨ht.congr fun t _ i => ?_, hp.source, hp.original, hp.popped⟩
  have hpopped : t ∈ c.pending → t ≠ copy := fun hmem e => hp.popped (e ▸ hmem)
  unfold Waits
  grind

/-- A copy of what the slot holds is made. -/
lemma copied (hp : Patching start root top h c n x copy o k) (htyped : h.toSpace.Typed)
    {child target : RecordId} {r : Record} {p : Object} {h' : Heap}
    (hr : start.arena.live? child = some r) (hb : r.body = .object p)
    (hnew : child ∉ c.sources) (hspan : Spanned start root child)
    (hc : Copies False h h' r.type p target) :
    Patching start root top h' ⟨(child, target) :: c.copies, target :: c.pending⟩ n x copy o k := by
  have hne : copy ≠ target := fun e => by
    obtain ⟨q, o', hq, -⟩ := hp.copies copy (Cloning.mem_targets hp.source)
    rw [e, hc.fresh] at hq
    cases hq
  refine ⟨(hp.toTracks.copied htyped hr hb hnew hspan hc).congr fun t _ i => ?_,
    List.mem_cons_of_mem _ hp.source, hp.original, ?_⟩
  · simp only [Waits, List.mem_cons]
    tauto
  · exact fun hmem => (List.mem_cons.1 hmem).elim hne hp.popped

lemma cloneSlot (hp : Patching start root top h c n x copy o k) (hs : start.toSpace.Sound)
    (ht : start.toSpace.Typed) (hd : start.NoDangling) {child : RecordId} (hk : k < o.count)
    (hchild : o.slotAt k = some child) :
    Gives (Heap.cloneSlot copy c k child) h fun c' h' =>
      Patching start root top h' c' n x copy o (k + 1) := by
  have hmem : child ∈ o.references := Object.mem_references.2 ⟨k, hk, hchild⟩
  have hlive : h.arena.live? child = start.arena.live? child :=
    hp.adds.live?_eq (hd x o hp.original child hmem)
  have hcloned : h.isCloned child = true ↔ start.Clonable child :=
    isCloned_iff.trans (clonable_congr hlive)
  unfold Heap.cloneSlot
  rw [gives_bind, gives_get]
  split
  · next hnot =>
    refine gives_pure.2 (hp.skip fun y hy hclone => ?_)
    obtain rfl := Option.some.inj (hchild.symm.trans hy)
    simp [hcloned.2 hclone] at hnot
  · next hclone =>
    replace hclone : start.Clonable child := hcloned.1 (by simpa using hclone)
    split
    · next target hlook =>
      have htarget : (child, target) ∈ c.copies := Cloning.mem_of_lookup hlook
      rw [gives_bind]
      exact (hp.redirect hs hk hchild hclone htarget).mono fun _ h' hp' => gives_pure.2 hp'
    · next hlook =>
      have hnew : child ∉ c.sources := Cloning.not_mem_sources hlook
      have hspan : Spanned start root child :=
        .child (hp.spanned x (Cloning.mem_sources hp.source)) hp.original hmem hclone
      rw [gives_bind]
      refine (gives_copyRecord False (hp.toUnderway.sound hs) child).mono fun target h' hcopy => ?_
      obtain ⟨r, p, hr, hb, hc⟩ := hcopy
      have hp' := hp.copied (hp.typed hs ht) (hlive ▸ hr) hb hnew hspan hc
      rw [gives_bind]
      exact (hp'.redirect hs hk hchild hclone List.mem_cons_self).mono
        fun _ h'' hp'' => gives_pure.2 hp''

/-- The slots are gone through one after the other. -/
lemma cloneSlots (hp : Patching start root top h c n x copy o k) (hs : start.toSpace.Sound)
    (ht : start.toSpace.Typed) (hd : start.NoDangling) (values : List Slot)
    (hvalues : ∀ i, (hi : i < values.length) → o.slotAt (k + i) = values[i])
    (hlen : k + values.length ≤ o.count) :
    Gives ((values.zipIdx k).foldlM (fun c (v, slot) => match v with
      | some child => Heap.cloneSlot copy c slot child
      | none => return c) c) h fun c' h' =>
        Patching start root top h' c' n x copy o (k + values.length) := by
  induction values generalizing h c k with
  | nil => exact gives_pure.2 hp
  | cons v values ih =>
    rw [List.zipIdx_cons, List.foldlM_cons, gives_bind]
    have hv : o.slotAt k = v := hvalues 0 (Nat.zero_lt_succ _)
    have hrest : ∀ i, (hi : i < values.length) → o.slotAt (k + 1 + i) = values[i] := fun i hi => by
      have := hvalues (i + 1) (Nat.succ_lt_succ hi)
      rwa [Nat.add_assoc, Nat.add_comm 1]
    rw [List.length_cons] at hlen ⊢
    refine Gives.mono (Q := fun c' h' => Patching start root top h' c' n x copy o (k + 1)) ?_
      fun c' h' hp' => ?_
    · rcases v with _ | child
      · exact gives_pure.2 (hp.skip fun y hy => by simp [hv] at hy)
      · exact hp.cloneSlot hs ht hd (by omega) hv
    · have hend := ih hp' hrest (by omega)
      rwa [Nat.add_assoc, Nat.add_comm 1] at hend

end Patching

/-! ### The loop -/

/-- The next copy has its turn. -/
def settleCopy (copy : RecordId) (c : Cloning) : HeapM Cloning := do
  match (← get).object copy with
  | .error e => throw e
  | .ok o => cloneSlots copy o.values c

lemma settleCopies_done (fuel : Nat) {c : Cloning} (hpend : c.pending = []) :
    Heap.settleCopies fuel c = pure c := by
  cases fuel with
  | zero => rfl
  | succ fuel => simp only [Heap.settleCopies, hpend]

lemma settleCopies_step (fuel : Nat) {c : Cloning} {copy : RecordId} {rest : List RecordId}
    (hpend : c.pending = copy :: rest) : Heap.settleCopies (fuel + 1) c =
      Heap.settleCopy copy { c with pending := rest } >>= Heap.settleCopies fuel := by
  simp only [Heap.settleCopies, hpend, Heap.settleCopy, bind_assoc]
  refine congrArg (get >>= ·) (funext fun h => ?_)
  rcases h.object copy with e | o <;> rfl

/-- A copy has its turn, and all its slots wait. -/
lemma Tracks.pop {x copy : RecordId} {rest : List RecordId} {o : Object}
    (ht : Tracks start root top h c n fun t _ => t ∈ c.pending) (hpend : c.pending = copy :: rest)
    (hx : (x, copy) ∈ c.copies) (ho : start.object x = .ok o) :
    Patching start root top h { c with pending := rest } (n + 1) x copy o 0 := by
  obtain ⟨hpopped, hrest⟩ := List.nodup_cons.1 (hpend ▸ ht.pending_nodup)
  have hlength : c.copies.length = n + 1 + rest.length := by
    rw [ht.length, hpend, List.length_cons]
    omega
  refine ⟨⟨⟨ht.evolves, ht.adds, ht.copies, fun t hmem => ht.pending t ?_⟩, ht.top_mem,
    ht.sources_nodup, ht.targets_nodup, hrest, hlength, ht.spanned, ?_⟩, hx, ho, hpopped⟩
  · rw [hpend]
    exact List.mem_cons_of_mem _ hmem
  · refine (ht.congr fun t _ i => ?_).mirrors
    simp only [Waits, hpend, List.mem_cons, Nat.zero_le, and_true]
    exact or_comm

lemma Tracks.settleCopy {copy : RecordId} {rest : List RecordId}
    (ht : Tracks start root top h c n fun t _ => t ∈ c.pending) (hs : start.toSpace.Sound)
    (htyped : start.toSpace.Typed) (hd : start.NoDangling) (hpend : c.pending = copy :: rest) :
    Gives (Heap.settleCopy copy { c with pending := rest }) h fun c' h' =>
      Tracks start root top h' c' (n + 1) fun t _ => t ∈ c'.pending := by
  have hmem : copy ∈ c.pending := by
    rw [hpend]
    exact List.mem_cons_self
  obtain ⟨⟨x, t⟩, hx, e⟩ := List.mem_map.1 (ht.pending copy hmem)
  obtain rfl : t = copy := e
  obtain ⟨r, o, q, o', hr, hb, hq, hb', -, hpatched⟩ := ht.mirrors x t hx
  have hsound := hs.objects x r o hr hb
  have hwaiting (i : Nat) : o'.slotAt i = o.slotAt i := hpatched.waiting i hmem
  have hlen : o'.values.length = o.count := by
    obtain ⟨P, hP, -⟩ := ht.evolves
    rw [((hP.changes.sound hs).1.objects t q o' hq hb').length_values, hpatched.count]
  unfold Heap.settleCopy
  rw [gives_bind, gives_get, object_of_live? hq hb']
  refine ((ht.pop hpend hx (object_of_live? hr hb)).cloneSlots hs htyped hd o'.values
    (fun i hi => ?_) (by omega)).mono fun c' h' hp => ?_
  · rw [Nat.zero_add, Object.getElem_values, hwaiting]
  · refine hp.toTracks.settle (fun t i => .inl) fun x' t' o₁ i hx' ho' hwaits hdone y hy => ?_
    -- what still waits are the slots of this copy that are not in use
    obtain ⟨rfl, hi⟩ := hwaits.resolve_left hdone
    obtain rfl := hp.source_unique hx' hp.source
    obtain rfl := Except.ok.inj (ho'.symm.trans (object_of_live? hr hb))
    rw [hsound.blank i (by omega)] at hy
    cases hy

/-- **Every copy has its turn.** -/
theorem Tracks.settleCopies (fuel : Nat)
    (ht : Tracks start root top h c n fun t _ => t ∈ c.pending) (hs : start.toSpace.Sound)
    (htyped : start.toSpace.Typed) (hd : start.NoDangling)
    (hfuel : start.arena.cells.size ≤ n + fuel) :
    Gives (Heap.settleCopies fuel c) h fun c' h' =>
      c'.pending = [] ∧ ∃ n, Tracks start root top h' c' n fun _ _ => False := by
  have hend {h : Heap} {c : Cloning} {n : Nat}
      (ht : Tracks start root top h c n fun t _ => t ∈ c.pending) (hpend : c.pending = []) :
      Tracks start root top h c n fun _ _ => False :=
    ht.congr fun t _ _ => by simp [hpend]
  -- copies that have had their turn and fuel left are together no fewer than the records there were
  induction fuel generalizing h c n with
  | zero =>
    have hpend : c.pending = [] := by
      have hle := ht.length_le
      have hlength := ht.length
      exact List.length_eq_zero_iff.1 (by omega)
    exact gives_pure.2 ⟨hpend, n, hend ht hpend⟩
  | succ fuel ih =>
    rcases hpend : c.pending with _ | ⟨copy, rest⟩
    · rw [settleCopies_done _ hpend]
      exact gives_pure.2 ⟨hpend, n, hend ht hpend⟩
    · rw [settleCopies_step _ hpend, gives_bind]
      exact (ht.settleCopy hs htyped hd hpend).mono fun c' h' ht' => ih ht' (by omega)

end Loop

/-! ### Clones -/

section Clone

variable {h : Heap}

end Clone

end Heap

section Runs

variable [Environment]

end Runs

end ScriptHeap
