import Mathlib
import ScriptHeap.Proofs.Listing

/-!
When an object has an index over its names, and how large it is. The index is built, rebuilt and
extended in several places, each under its own condition. Together they serve every object: one with
many named slots has an index, the index has a bucket for each of them, and it never gets smaller.
-/

namespace ScriptHeap

namespace NameTable

/-- The number of named slots that a table is made for: as many as it has buckets, or the few that
are searched without an index. -/
def breadth (t : NameTable) : Nat := if t.isIndexed then t.buckets.size else indexThreshold

variable {t t' : NameTable}

lemma isIndexed_iff : t.isIndexed = true ↔ 0 < t.buckets.size := by
  simp [isIndexed, Array.isEmpty, Nat.pos_iff_ne_zero]

lemma isIndexed_of_le (h : t.buckets.size ≤ t'.buckets.size) (hi : t.isIndexed = true) :
    t'.isIndexed = true := isIndexed_iff.2 (Nat.lt_of_lt_of_le (isIndexed_iff.1 hi) h)

lemma breadth_congr (h : t'.buckets.size = t.buckets.size) : t'.breadth = t.breadth := by
  have hi : t'.isIndexed = t.isIndexed := by
    rw [Bool.eq_iff_iff, isIndexed_iff, isIndexed_iff, h]
  rw [breadth, breadth, hi, h]

/-! ### The number of buckets -/

@[simp] lemma size_buckets_ensureSize (t : NameTable) (n : Nat) :
    (t.ensureSize n).buckets.size = t.buckets.size := rfl

@[simp] lemma size_buckets_setNext (t : NameTable) (slot : Nat) (next : Option UInt32) :
    (t.setNext slot next).buckets.size = t.buckets.size := rfl

@[simp] lemma size_buckets_setHead (t : NameTable) (b : Nat) (head : Option UInt32) :
    (t.setHead b head).buckets.size = t.buckets.size := by
  simp [setHead]

@[simp] lemma size_buckets_setRaw (t : NameTable) (slot : Nat) (q : QName) :
    (t.setRaw slot q).buckets.size = t.buckets.size := rfl

variable [NameHash]

@[simp] lemma size_buckets_link (t : NameTable) (slot : Nat) :
    (t.link slot).buckets.size = t.buckets.size := by
  unfold link
  split
  · rfl
  · split
    · rfl
    · dsimp only
      split
      · rfl
      · split
        · simp
        · rfl

@[simp] lemma size_buckets_unlink (t : NameTable) (slot : Nat) (name : String) :
    (t.unlink slot name).buckets.size = t.buckets.size := by
  unfold unlink
  split
  · simp
  · split
    · rfl
    · split <;> rfl

@[simp] lemma size_buckets_clear (t : NameTable) (slot : Nat) :
    (t.clear slot).buckets.size = t.buckets.size := by
  unfold clear
  split
  · rfl
  · dsimp only
    split
    · exact size_buckets_unlink t slot _
    · rfl

lemma size_buckets_links (slots : List Nat) (t : NameTable) :
    (slots.foldl link t).buckets.size = t.buckets.size := by
  induction slots generalizing t with
  | nil => rfl
  | cons slot slots ih => rw [List.foldl_cons, ih, size_buckets_link]

/-- A table that is not built anew was small and had no index. -/
lemma size_buckets_reindex (t : NameTable) (n : Nat) :
    (t.reindex n).buckets.size =
      if n ≤ indexThreshold ∧ t.isIndexed = false then t.buckets.size
      else max (bucketsFor n) t.buckets.size := by
  unfold reindex
  simp only [Bool.and_eq_true, decide_eq_true_eq, Bool.not_eq_true']
  split
  · rfl
  · rw [size_buckets_links, Array.size_replicate]

lemma size_buckets_le_reindex (t : NameTable) (n : Nat) :
    t.buckets.size ≤ (t.reindex n).buckets.size := by
  rw [size_buckets_reindex]
  split
  · exact Nat.le_refl _
  · exact Nat.le_max_right _ _

lemma le_breadth_reindex (t : NameTable) (n : Nat) : n ≤ (t.reindex n).breadth := by
  have hsize := size_buckets_reindex t n
  split at hsize
  · next h =>
    rw [breadth_congr hsize, breadth, h.2]
    exact h.1
  · have hn : n < (t.reindex n).buckets.size :=
      hsize ▸ Nat.lt_of_lt_of_le (lt_bucketsFor n) (Nat.le_max_left _ _)
    rw [breadth, if_pos (isIndexed_iff.2 (Nat.zero_lt_of_lt hn))]
    exact hn.le

lemma size_buckets_le_indexSlot (t : NameTable) (slot n : Nat) :
    t.buckets.size ≤ (t.indexSlot slot n).buckets.size := by
  unfold indexSlot
  split
  · exact size_buckets_le_reindex t n
  · exact (size_buckets_link t slot).ge

lemma le_breadth_indexSlot (t : NameTable) (slot n : Nat) (h : 0 < n) :
    n ≤ (t.indexSlot slot n).breadth := by
  unfold indexSlot
  split
  · exact le_breadth_reindex t n
  · next hn =>
    have hsize : n ≤ t.buckets.size := Nat.not_lt.1 hn
    rw [breadth_congr (size_buckets_link t slot), breadth,
      if_pos (isIndexed_iff.2 (Nat.lt_of_lt_of_le h hsize))]
    exact hsize

lemma size_buckets_le_rename (t : NameTable) (slot : Nat) (q : QName) (n : Nat) :
    t.buckets.size ≤ (t.rename slot q n).buckets.size := by
  have hraw : (((t.ensureSize n).clear slot).setRaw slot q).buckets.size = t.buckets.size := by simp
  unfold rename
  dsimp only
  split
  · exact hraw.ge.trans (size_buckets_le_indexSlot _ slot n)
  · exact hraw.ge

lemma le_breadth_rename (t : NameTable) {slot n : Nat} (h : slot < n) (q : QName) :
    n ≤ (t.rename slot q n).breadth := by
  unfold rename
  generalize ((t.ensureSize n).clear slot).setRaw slot q = u
  dsimp only
  split
  · exact le_breadth_indexSlot u slot n (Nat.zero_lt_of_lt h)
  · next hsmall =>
    obtain ⟨hn, hi⟩ : n ≤ indexThreshold ∧ ¬ u.isIndexed = true := by
      simpa [not_or, Nat.not_lt] using hsmall
    rw [breadth, if_neg hi]
    exact hn

end NameTable

namespace Object

/-- The slots in use with a local name. -/
def namedSlots (o : Object) : List Nat :=
  (List.range o.count).filter fun slot => (o.names.label? slot).isSome

variable {o o' p : Object} {l : Listing}

lemma length_namedSlots_le (o : Object) : o.namedSlots.length ≤ o.count :=
  (List.length_filter_le _ _).trans_eq List.length_range

/-- A slot that has a name had one before. -/
lemma length_namedSlots_mono
    (h : ∀ i ∈ o'.namedSlots, i < o.count ∧ (o.names.label? i).isSome = true) :
    o'.namedSlots.length ≤ o.namedSlots.length := by
  refine ((List.nodup_range.filter _).subperm fun i hi => ?_).length_le
  exact List.mem_filter.2 ⟨List.mem_range.2 (h i hi).1, (h i hi).2⟩

lemma Spells.lt_count (h : o.Spells l) {i : Nat} (hi : (o.names.label? i).isSome = true) :
    i < o.count := by
  by_contra hle
  have hentry := h.entry i
  rw [Listing.entryAt_of_le (by rw [h.length]; omega)] at hentry
  simp [← (Entry.mk.inj hentry).1] at hi

/-- The table is made for the named slots that there are. -/
def Served (o : Object) : Prop := o.namedSlots.length ≤ o.names.breadth

lemma served_of_count (h : o.count ≤ o.names.breadth) : o.Served :=
  (length_namedSlots_le o).trans h

/-- What an edit does to the index: it loses no buckets, and it serves the object as before. -/
structure Tends (o o' : Object) : Prop where
  buckets : o.names.buckets.size ≤ o'.names.buckets.size
  served : o.Served → o'.Served

lemma Tends.refl (o : Object) : o.Tends o := ⟨Nat.le_refl _, id⟩

lemma tends_of_names (hn : o'.names = o.names) (hc : o'.count = o.count) : o.Tends o' := by
  refine ⟨by rw [hn], fun ho => ?_⟩
  rwa [Served, namedSlots, hn, hc]

lemma Tends.trans (h : o.Tends p) (k : p.Tends o') : o.Tends o' :=
  ⟨h.buckets.trans k.buckets, fun ho => k.served (h.served ho)⟩

/-- No slot has become a named one, and the index is as large as before. -/
lemma tends_of_labels (h : o.Spells l) (hb : o'.names.buckets.size = o.names.buckets.size)
    (hl : ∀ i, (o'.names.label? i).isSome = true → (o.names.label? i).isSome = true) :
    o.Tends o' := by
  refine ⟨hb.ge, fun ho => ?_⟩
  rw [Served, NameTable.breadth_congr hb]
  refine (length_namedSlots_mono fun i hi => ?_).trans ho
  have hname := hl i (List.mem_filter.1 hi).2
  exact ⟨h.lt_count hname, hname⟩

variable [NameHash]

lemma tends_grow (h : o.Spells l) {n : Nat} (hg : o.grow n = .ok o') : o.Tends o' := by
  have hlabel := (names_grow_size hg).2
  have hcount := count_grow hg
  have hkept : o'.names.buckets.size = o.names.buckets.size → o.Tends o' := fun hb =>
    tends_of_labels h hb fun i hi => hlabel i ▸ hi
  unfold grow at hg
  split at hg
  · obtain rfl := Except.ok.inj hg
    exact hkept rfl
  · split at hg
    · simp at hg
    · obtain rfl := Except.ok.inj hg
      by_cases hc : 0 < o.count
      · simp only [if_pos hc]
        refine ⟨NameTable.size_buckets_le_reindex (o.names.ensureSize n) _,
          fun _ => served_of_count ?_⟩
        exact (Nat.max_comm _ _).le.trans (NameTable.le_breadth_reindex _ _)
      · -- an object without slots has no names to look up
        refine hkept ?_
        simp only [if_neg hc]
        rfl

lemma tends_checkSlot (h : o.Spells l) {slot : Int} {compiler : Bool} {n : Nat}
    (hc : o.checkSlot slot compiler = .ok (n, o')) : o.Tends o' := by
  rcases checkSlot_cases hc with ⟨-, rfl⟩ | hg
  · exact .refl _
  · exact tends_grow h hg

lemma tends_setName (h : o.Spells l) {slot : Int} {q : QName} {compiler : Bool} {n : Nat}
    (hs : o.setName slot q compiler = .ok (n, o')) : o.Tends o' := by
  obtain ⟨⟨k, p⟩, hc, e⟩ := eq_ok_of_map hs
  have hp : o.Tends p := tends_checkSlot h hc
  have hk : k < p.count := (becomes_checkSlot hc).2
  dsimp only at e
  split at e <;> obtain ⟨-, rfl⟩ := Prod.mk.inj e
  · exact hp
  · refine hp.trans ⟨NameTable.size_buckets_le_rename _ _ _ _, fun _ => served_of_count ?_⟩
    exact NameTable.le_breadth_rename _ hk q

lemma isSome_label?_clear {t : NameTable} {slot i : Nat}
    (h : ((t.clear slot).label? i).isSome = true) : (t.label? i).isSome = true := by
  rw [NameTable.label?_clear] at h
  split at h
  · simp at h
  · exact h

lemma tends_delete (h : o.Spells l) {slot : Nat} {compiler : Bool}
    (hd : o.delete slot compiler = .ok o') : o.Tends o' := by
  unfold delete at hd
  split at hd
  · simp at hd
  · split at hd
    · simp at hd
    · obtain rfl := Except.ok.inj hd
      refine tends_of_labels h ?_ fun i hi => ?_
      · split <;> split <;> simp [write]
      · -- with or without its last slot, the object has the names that are left
        split at hi <;> split at hi
        · exact isSome_label?_clear hi
        · exact isSome_label?_clear hi
        · exact hi
        · exact hi

lemma tends_insert (h : o.Spells l) {n offset : Nat} (hi : o.insert n offset = .ok o') :
    o.Tends o' := by
  unfold insert at hi
  split at hi
  · simp at hi
  · split at hi
    · obtain rfl := Except.ok.inj hi
      exact .refl _
    · split at hi
      · simp at hi
      · obtain ⟨p, hg, rfl⟩ := eq_ok_of_map hi
        refine (tends_grow h hg).trans ⟨?_, fun _ => served_of_count ?_⟩
        · exact NameTable.size_buckets_le_reindex (p.names.insertEntries offset n) p.count
        · exact NameTable.le_breadth_reindex _ _

lemma tends_remove (h : o.Spells l) {slot : Nat} {compact compiler : Bool}
    (hr : o.remove slot compact compiler = .ok o') : o.Tends o' := by
  unfold remove at hr
  split at hr
  · simp at hr
  · split at hr
    · simp at hr
    · split at hr <;> obtain rfl := Except.ok.inj hr
      · refine ⟨?_, fun _ => served_of_count (NameTable.le_breadth_reindex _ _)⟩
        exact NameTable.size_buckets_le_reindex (o.names.removeEntry slot) (o.count - 1)
      · exact tends_of_labels h (NameTable.size_buckets_clear o.names slot) fun i hi =>
          isSome_label?_clear hi

lemma tends_apply (h : o.Spells l) (e : Edit) : o.Tends (o.apply e) := by
  rw [apply]
  split
  · next o' he =>
    cases e with
    | checkSlot slot compiler =>
      obtain ⟨⟨n, p⟩, hc, rfl⟩ := eq_ok_of_map he
      exact tends_checkSlot h hc
    | setValue slot v compiler =>
      obtain ⟨⟨n, p⟩, hs, rfl⟩ := eq_ok_of_map he
      obtain ⟨⟨k, p'⟩, hc, e⟩ := eq_ok_of_map hs
      obtain ⟨-, rfl⟩ := Prod.mk.inj e
      exact (tends_checkSlot h hc).trans (tends_of_names rfl rfl)
    | setName slot q compiler =>
      obtain ⟨⟨n, p⟩, hs, rfl⟩ := eq_ok_of_map he
      exact tends_setName h hs
    | delete slot compiler => exact tends_delete h he
    | grow n => exact tends_grow h he
    | insert n offset => exact tends_insert h he
    | remove slot compact compiler => exact tends_remove h he
    | setDynamic dynamic =>
      obtain rfl := Except.ok.inj he
      exact tends_of_names rfl rfl
  · exact .refl _

lemma Arises.tends (h : Arises o) (es : List Edit) : o.Tends (es.foldl apply o) := by
  induction es generalizing o with
  | nil => exact .refl o
  | cons e es ih =>
    obtain ⟨l, hl⟩ := h.spells
    exact (tends_apply hl e).trans (ih (.edited o e h))

lemma served_ofTemplate (id : TypeId) (d : TypeDef) (extra : Nat) (dynamic separate : Bool) :
    (ofTemplate (TypeInfo.make id d).template extra dynamic separate).Served := by
  refine served_of_count ?_
  have hsize : (TypeInfo.make id d).template.size = d.properties.length := by
    rw [TypeInfo.make, NameTable.size_reindex]
    simp [NameTable.ofNames, NameTable.size]
  have htemplate : d.properties.length ≤ (TypeInfo.make id d).template.breadth :=
    NameTable.le_breadth_reindex _ _
  unfold ofTemplate
  dsimp only
  split
  · exact NameTable.le_breadth_reindex _ _
  · next hextra =>
    obtain rfl : extra = 0 := Nat.eq_zero_of_not_pos hextra
    rw [hsize, Nat.add_zero]
    split
    · exact htemplate
    · exact htemplate

lemma Arises.served (h : Arises o) : o.Served := by
  induction h with
  | empty dynamic => exact Nat.zero_le _
  | instantiated id d extra dynamic separate => exact served_ofTemplate id d extra dynamic separate
  | edited o e ho ih =>
    obtain ⟨l, hl⟩ := ho.spells
    exact (tends_apply hl e).served ih

/-- **Lookups stay fast.** Whatever has been done to an object, it has an index as soon as more than
eight slots in use have a local name, and an index has at least as many buckets as there are such
slots. Once there is an index, no sequence of edits drops it or takes buckets from it. -/
theorem index_policy (h : Arises o) :
    (8 < o.namedSlots.length → o.names.isIndexed = true) ∧
    (o.names.isIndexed = true → o.namedSlots.length ≤ o.names.buckets.size) ∧
    ∀ es : List Edit, o.names.buckets.size ≤ (es.foldl apply o).names.buckets.size ∧
      (o.names.isIndexed = true → (es.foldl apply o).names.isIndexed = true) := by
  have hserved := h.served
  rw [Served, NameTable.breadth] at hserved
  refine ⟨fun hmany => ?_, fun hi => ?_, fun es => ?_⟩
  · by_contra hi
    rw [if_neg hi] at hserved
    exact absurd hmany (Nat.not_lt.2 hserved)
  · rwa [if_pos hi] at hserved
  · have hb := (h.tends es).buckets
    exact ⟨hb, NameTable.isIndexed_of_le hb⟩

end Object

namespace Object

/-- The ninth name brings the index, and it stays when all nine are gone again. -/
theorem index_outlives_names :
    let names := ["a", "b", "c", "d", "e", "f", "g", "h", "i"].map QName.ofLocal
    let o := (names.map (Edit.setName (-1) · false)).foldl apply (.empty true)
    let deletes := (List.range 9).reverse.map (Edit.delete · false)
    o.namedSlots.length = 9 ∧ o.names.isIndexed = true ∧
      (deletes.foldl apply o).count = 0 ∧ (deletes.foldl apply o).names.isIndexed = true := by
  intro names o deletes
  have harises : o.Arises := Arises.editedAll _ (.empty true)
  have hnine : o.namedSlots.length = 9 := by decide +kernel
  have hi : o.names.isIndexed = true := (index_policy harises).1 (by omega)
  exact ⟨hnine, hi, by decide +kernel, ((index_policy harises).2.2 deletes).2 hi⟩

end Object

end ScriptHeap
