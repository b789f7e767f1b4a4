import Mathlib
import ScriptHeap.Environment
import ScriptHeap.Object.Edit
import ScriptHeap.Proofs.NameTable
import ScriptHeap.Proofs.Object
import ScriptHeap.Record.TypeRegistry

/-!
Lookups by name. With or without an index, a search finds the slots in use that carry the name, as
a search through all slots would: no edit of an object leaves a stale link or a name out of place.
-/

namespace ScriptHeap

lemma SingleMatch.ofSlots_eq_absent {slots : List Nat} :
    ofSlots slots = absent ↔ slots = [] := by
  rcases slots with _ | ⟨a, _ | ⟨b, slots⟩⟩ <;> simp [ofSlots]

lemma SingleMatch.ofSlots_eq_unique {slots : List Nat} {slot : Nat} :
    ofSlots slots = unique slot ↔ slots = [slot] := by
  rcases slots with _ | ⟨a, _ | ⟨b, slots⟩⟩ <;> simp [ofSlots]

lemma SingleMatch.ofSlots_eq_multiple {slots : List Nat} :
    ofSlots slots = multiple ↔ 1 < slots.length := by
  rcases slots with _ | ⟨a, _ | ⟨b, slots⟩⟩ <;> simp [ofSlots]

/-- What a search for a bare name tells about the slots that carry it. -/
lemma SingleMatch.ofSlots_spec {slots : List Nat} {carrying : Set Nat} (hd : slots.Nodup)
    (hm : ∀ s, s ∈ slots ↔ s ∈ carrying) :
    (ofSlots slots = absent ↔ carrying = ∅) ∧
    (∀ slot, ofSlots slots = unique slot ↔ carrying = {slot}) ∧
    (ofSlots slots = multiple ↔ carrying.Nontrivial) := by
  obtain rfl : {s | s ∈ slots} = carrying := Set.ext hm
  refine ⟨?_, fun slot => ?_, ?_⟩
  · rw [ofSlots_eq_absent, Set.eq_empty_iff_forall_notMem, List.eq_nil_iff_forall_not_mem]
    rfl
  · rw [ofSlots_eq_unique]
    constructor
    · rintro rfl
      ext s
      simp
    · intro h
      have hmem (s : Nat) : s ∈ slots ↔ s = slot := Set.ext_iff.1 h s
      have hperm : slots.Perm [slot] :=
        (List.perm_ext_iff_of_nodup hd (List.nodup_singleton slot)).2 fun s => by simp [hmem s]
      exact hperm.eq_singleton
  · rw [ofSlots_eq_multiple]
    constructor
    · intro h
      refine ⟨slots[0], by simp, slots[1], by simp, fun e => ?_⟩
      have := (List.Nodup.getElem_inj_iff hd).1 e
      omega
    · rintro ⟨a, ha, b, hb, hab⟩
      rcases slots with _ | ⟨x, _ | ⟨y, slots⟩⟩
      · simp at ha
      · simp only [List.mem_singleton, Set.mem_ofPred_eq] at ha hb
        exact absurd (ha.trans hb.symm) hab
      · simp

namespace NameTable

variable [NameHash] {t : NameTable} {n : Nat}

lemma nodup_candidates (h : t.Sound n) (name : String) (m : Nat) :
    (t.candidates name m).Nodup := by
  unfold candidates
  split
  · next hi =>
    obtain ⟨slots, hchain, -, hd, -⟩ := (h.indexed hi).chain? hi name
    rw [hchain]
    exact hd.filter _
  · exact List.nodup_range

/-- The named slots with the local name are candidates, and all candidates are below the bound. -/
lemma mem_candidates (h : t.Sound n) {s : Nat} {q : QName} (hq : t.nameAt? s = some q)
    (hu : q.isUnnamed = false) (m : Nat) : s ∈ t.candidates q.name m ↔ s < m := by
  unfold candidates
  split
  · next hi =>
    obtain ⟨slots, hchain, -, -, hmem⟩ := (h.indexed hi).chain? hi q.name
    have hs : s ∈ slots := (hmem s).2 ⟨trivial, q, hq, hu, rfl⟩
    simp [hchain, hs]
  · have := lt_size_of_nameAt? hq
    simp only [List.mem_range]
    omega

lemma mem_lookup (h : t.Sound n) {q : QName} (hu : q.isUnnamed = false) (m s : Nat) :
    (s ∈ (t.candidates q.name m).filter fun slot => t.nameAt? slot == some q) ↔
      s < m ∧ t.nameAt? s = some q := by
  rw [List.mem_filter, beq_iff_eq]
  exact and_congr_left fun hq => mem_candidates h hq hu m

/-- Both searches find the least slot that carries the name. -/
lemma lookup?_eq_some (h : t.Sound n) {q : QName} {m slot : Nat} :
    t.lookup? q m = some slot ↔
      q.name ≠ "" ∧ IsLeast {s | s < m ∧ t.nameAt? s = some q} slot := by
  unfold lookup?
  by_cases hu : q.isUnnamed = true
  · simp [hu, QName.isUnnamed_iff.1 hu]
  · have hname : q.name ≠ "" := fun e => hu (QName.isUnnamed_iff.2 e)
    have hmem := mem_lookup h (Bool.not_eq_true _ ▸ hu) m
    rw [if_neg hu, and_iff_right hname]
    dsimp only
    split
    · rw [List.min?_eq_some_iff]
      simp only [hmem, IsLeast, Set.mem_ofPred_eq, mem_lowerBounds]
    · next hi =>
      -- the slots come in order, so the first hit is the least one
      have hall : (t.candidates q.name m) = List.range (min m t.size) := by simp [candidates, hi]
      simp only [hall, List.mem_filter] at hmem ⊢
      rw [List.head?_filter, List.find?_range_eq_some, ← and_assoc, and_comm (a := _ = true), hmem]
      simp only [IsLeast, Set.mem_ofPred_eq, mem_lowerBounds, Bool.not_eq_true',
        beq_eq_false_iff_ne]
      refine and_congr_right fun hslot => ⟨fun hleast s hs => ?_, fun hleast s hlt hs => ?_⟩
      · by_contra hlt
        exact hleast s (Nat.not_le.1 hlt) hs.2
      · exact Nat.not_le.2 hlt (hleast s ⟨Nat.lt_trans hlt hslot.1, hs⟩)

/-- A search for a bare name tells how many slots carry it. -/
lemma lookupSingle_spec (h : t.Sound n) {name : String} (hname : name ≠ "") (m : Nat) :
    (t.lookupSingle name m = .absent ↔
      {s | s < m ∧ ∃ q, t.nameAt? s = some q ∧ q.name = name} = ∅) ∧
    (∀ slot, t.lookupSingle name m = .unique slot ↔
      {s | s < m ∧ ∃ q, t.nameAt? s = some q ∧ q.name = name} = {slot}) ∧
    (t.lookupSingle name m = .multiple ↔
      {s | s < m ∧ ∃ q, t.nameAt? s = some q ∧ q.name = name}.Nontrivial) := by
  unfold lookupSingle
  rw [if_neg hname]
  refine SingleMatch.ofSlots_spec ((nodup_candidates h name m).filter _) fun s => ?_
  rw [List.mem_filter, Option.any_eq_true]
  constructor
  · rintro ⟨hs, q, hq, hqn⟩
    obtain rfl : q.name = name := by simpa using hqn
    have hu : q.isUnnamed = false := by simpa [QName.isUnnamed] using hname
    exact ⟨(mem_candidates h hq hu m).1 hs, q, hq, rfl⟩
  · rintro ⟨hs, q, hq, rfl⟩
    have hu : q.isUnnamed = false := by simpa [QName.isUnnamed] using hname
    exact ⟨(mem_candidates h hq hu m).2 hs, q, hq, by simp⟩

end NameTable

namespace Object

variable [NameHash] {o o' : Object}

/-! ### Edits keep the name table in order -/

lemma names_grow {n : Nat} (h : o.grow n = .ok o') (hs : o.names.Sound o.count)
    (hc : o'.count ≤ UInt32.size) : o'.names.Sound o.count := by
  have hcount := count_grow h
  unfold grow at h
  split at h
  · obtain rfl := Except.ok.inj h
    exact hs.ensureSize n
  · split at h
    · simp at h
    · obtain rfl := Except.ok.inj h
      have hu := hs.ensureSize n
      dsimp only at hc ⊢
      split
      · exact NameTable.sound_reindex (by omega) (by omega) hu.named_lt hu.ended
      · exact hu

lemma names_checkSlot {slot : Int} {compiler : Bool} {n : Nat}
    (h : o.checkSlot slot compiler = .ok (n, o')) (hs : o.names.Sound o.count)
    (hc : o'.count ≤ UInt32.size) : o'.names.Sound o'.count ∧ n < o'.count := by
  refine ⟨?_, (becomes_checkSlot h).2⟩
  rcases checkSlot_cases h with ⟨-, rfl⟩ | hg
  · exact hs
  · have hcount := count_grow hg
    exact (names_grow hg hs hc).mono (by omega)

lemma names_setValue {slot : Int} {v : Slot} {compiler : Bool} {n : Nat}
    (h : o.setValue slot v compiler = .ok (n, o')) (hs : o.names.Sound o.count)
    (hc : o'.count ≤ UInt32.size) : o'.names.Sound o'.count := by
  unfold setValue at h
  rcases hcheck : o.checkSlot slot compiler with e | ⟨k, p⟩
  · simp [hcheck, Except.map] at h
  · rw [hcheck] at h
    obtain ⟨rfl, rfl⟩ := Prod.mk.inj (Except.ok.inj h)
    exact (names_checkSlot hcheck hs hc).1

lemma names_setName {slot : Int} {q : QName} {compiler : Bool} {n : Nat}
    (h : o.setName slot q compiler = .ok (n, o')) (hs : o.names.Sound o.count)
    (hc : o'.count ≤ UInt32.size) : o'.names.Sound o'.count := by
  unfold setName at h
  rcases hcheck : o.checkSlot slot compiler with e | ⟨k, p⟩
  · simp [hcheck, Except.map] at h
  · rw [hcheck] at h
    simp only [Except.map] at h
    split at h <;> obtain ⟨rfl, rfl⟩ := Prod.mk.inj (Except.ok.inj h)
    · exact (names_checkSlot hcheck hs hc).1
    · obtain ⟨hp, hk⟩ := names_checkSlot hcheck hs hc
      exact hp.rename hk hc q

lemma names_delete {slot : Nat} {compiler : Bool} (h : o.delete slot compiler = .ok o')
    (hs : o.names.Sound o.count) : o'.names.Sound o'.count := by
  unfold delete at h
  split at h
  · simp at h
  · split at h
    · simp at h
    · dsimp only at h
      obtain ⟨p, hp, hnames, hcount⟩ : ∃ p : Object, (if slot + 1 = p.count then
          { p with count := slot } else p) = o' ∧
          (p.names.Sound o.count ∧ ¬p.names.Named slot) ∧ p.count = o.count := by
        refine ⟨_, Except.ok.inj h, ?_, ?_⟩ <;> split
        · exact hs.clear slot
        · next hn =>
          refine ⟨hs, fun ⟨q, hq, hu⟩ => hn ?_⟩
          rw [hq, Option.any_some, hu]
          rfl
        · rfl
        · rfl
      obtain ⟨hsound, hgone⟩ := hnames
      split at hp <;> subst hp
      · next hlast =>
        refine ⟨fun s hs => ?_, hsound.indexed, hsound.ended⟩
        have hlt := hsound.named_lt s hs
        have hne : s ≠ slot := by
          rintro rfl
          exact hgone hs
        dsimp only
        omega
      · rwa [hcount]

lemma names_insert {n offset : Nat} (h : o.insert n offset = .ok o') (hs : o.names.Sound o.count)
    (hc : o'.count ≤ UInt32.size) : o'.names.Sound o'.count := by
  unfold insert at h
  split at h
  · simp at h
  · split at h
    · obtain rfl := Except.ok.inj h
      exact hs
    · split at h
      · simp at h
      · rcases hg : o.grow (o.count + n) with e | p
        · simp [hg, Except.map] at h
        · rw [hg] at h
          obtain rfl := Except.ok.inj h
          have hcount := count_grow hg
          dsimp only at hc ⊢
          have hp := names_grow hg hs hc
          refine NameTable.sound_reindex hc (Nat.le_refl _) (fun s hs => ?_) hp.ended
          have := NameTable.named_insertEntries hp.named_lt hs
          omega

lemma names_remove {slot : Nat} {compact compiler : Bool}
    (h : o.remove slot compact compiler = .ok o') (hs : o.names.Sound o.count)
    (hc : o.count ≤ UInt32.size) : o'.names.Sound o'.count := by
  unfold remove at h
  split at h
  · simp at h
  · split at h
    · simp at h
    · next hslot =>
      split at h <;> obtain rfl := Except.ok.inj h
      · have hslot := Nat.not_le.1 hslot
        dsimp only
        refine NameTable.sound_reindex (by omega) (Nat.le_refl _) (fun s hn => ?_) hs.ended
        exact NameTable.named_removeEntry hs.named_lt hslot hn
      · exact (hs.clear slot).1

/-- One edit, as long as the slots can be numbered with 32 bits. -/
lemma names_apply (e : Edit) (hs : o.names.Sound o.count) (hc : o.count ≤ UInt32.size)
    (hc' : (o.apply e).count ≤ UInt32.size) : (o.apply e).names.Sound (o.apply e).count := by
  unfold apply at hc' ⊢
  split at hc'
  · next p he =>
    cases e with
    | checkSlot slot compiler =>
      obtain ⟨⟨n, _⟩, h, rfl⟩ := eq_ok_of_map he
      exact (names_checkSlot h hs hc').1
    | setValue slot v compiler =>
      obtain ⟨⟨n, _⟩, h, rfl⟩ := eq_ok_of_map he
      exact names_setValue h hs hc'
    | setName slot q compiler =>
      obtain ⟨⟨n, _⟩, h, rfl⟩ := eq_ok_of_map he
      exact names_setName h hs hc'
    | delete slot compiler => exact names_delete he hs
    | grow n =>
      have hcount := count_grow he
      exact (names_grow he hs hc').mono (by omega)
    | insert n offset => exact names_insert he hs hc'
    | remove slot compact compiler => exact names_remove he hs hc
    | setDynamic dynamic =>
      obtain rfl := Except.ok.inj he
      exact hs
  · exact hs

lemma size_template (id : TypeId) (d : TypeDef) :
    (TypeInfo.make id d).template.size = d.properties.length := by
  rw [TypeInfo.make, NameTable.size_reindex]
  simp [NameTable.ofNames, NameTable.size]

lemma sound_template (id : TypeId) (d : TypeDef) (hd : d.properties.length ≤ UInt32.size) :
    (TypeInfo.make id d).template.Sound (TypeInfo.make id d).template.size := by
  rw [size_template]
  refine NameTable.sound_reindex hd (Nat.le_refl _) (fun s hs => ?_) rfl
  simpa [NameTable.ofNames, NameTable.size] using hs.lt_size

lemma names_ofTemplate {template : NameTable} {extra : Nat} {dynamic separate : Bool}
    (hs : template.Sound template.size) (hc : template.size + extra ≤ UInt32.size) :
    (ofTemplate template extra dynamic separate).names.Sound (template.size + extra) := by
  unfold ofTemplate
  dsimp only
  generalize hu : (if separate || dynamic || 0 < extra then
    template.ensureSize (template.size + extra) else template) = u
  have hu : u.Sound (template.size + extra) := by
    have hs := hs.mono (Nat.le_add_right template.size extra)
    split at hu <;> subst hu
    · exact hs.ensureSize _
    · exact hs
  split
  · exact NameTable.sound_reindex hc (Nat.le_refl _) hu.named_lt hu.ended
  · exact hu

/-! ### Objects in use -/

/-- Objects as they come about: fresh ones, instances of a type, and what a sequence of edits makes
of them, whether or not an edit is refused. Slot numbers fit the links throughout. A copy is the
same object, and both then go on by themselves. -/
inductive Made : Object → Prop
  | empty (dynamic : Bool) : Made (.empty dynamic)
  | instantiated (id : TypeId) (d : TypeDef) (extra : Nat) (dynamic separate : Bool)
      (hc : (ofTemplate (TypeInfo.make id d).template extra dynamic separate).count < 2 ^ 31) :
      Made (ofTemplate (TypeInfo.make id d).template extra dynamic separate)
  | edited (o : Object) (e : Edit) (ho : Made o) (hc : (o.apply e).count < 2 ^ 31) :
      Made (o.apply e)

lemma Made.editedAll (es : List Edit) (h : Made o)
    (hc : ∀ k < es.length, ((es.take (k + 1)).foldl apply o).count < 2 ^ 31) :
    Made (es.foldl apply o) := by
  induction es generalizing o with
  | nil => exact h
  | cons e es ih =>
    refine ih (.edited o e h (by simpa using hc 0 (by simp))) fun k hk => ?_
    simpa using hc (k + 1) (by simpa using hk)

/-- The slots in use whose name is as asked for. -/
def slotsNamed (o : Object) (p : QName → Prop) : Set Nat :=
  {slot | slot < o.count ∧ ∃ q, o.names.nameAt? slot = some q ∧ p q}

lemma Made.sound (h : Made o) : o.count < 2 ^ 31 ∧ o.names.Sound o.count := by
  have hword : 2 ^ 31 ≤ UInt32.size := by decide
  induction h with
  | empty dynamic => exact ⟨by simp [Object.empty], NameTable.sound_empty⟩
  | instantiated id d extra dynamic separate hc =>
    have hsize : (TypeInfo.make id d).template.size + extra ≤ UInt32.size := hc.le.trans hword
    have hd : d.properties.length ≤ UInt32.size :=
      size_template id d ▸ Nat.le_trans (Nat.le_add_right _ extra) hsize
    exact ⟨hc, names_ofTemplate (sound_template id d hd) hsize⟩
  | edited o e ho hc ih =>
    obtain ⟨hlt, hs⟩ := ih
    exact ⟨hc, names_apply e hs (hlt.le.trans hword) (hc.le.trans hword)⟩

/-- **Lookups by name are exact.** In an object with any history, a search for a qualified name
finds the least slot in use with this name, and a search for a bare name tells whether it has none,
one or several slots. This does not depend on the hash nor on whether there is an index, and every
chain of an index ends. -/
theorem lookups_exact (h : Made o) :
    (∀ q slot, o.lookup? q = some slot ↔ q.name ≠ "" ∧ IsLeast (o.slotsNamed (· = q)) slot) ∧
    o.lookupSingle "" = .absent ∧
    (∀ name, name ≠ "" →
      (o.lookupSingle name = .absent ↔ o.slotsNamed (·.name = name) = ∅) ∧
      (∀ slot, o.lookupSingle name = .unique slot ↔ o.slotsNamed (·.name = name) = {slot}) ∧
      (o.lookupSingle name = .multiple ↔ (o.slotsNamed (·.name = name)).Nontrivial)) ∧
    (∀ (b : Nat) head, o.names.buckets[b]? = some head →
      ∃ slots, o.names.walk? o.names.size head = some slots) ∧
    o.names.endless = false := by
  obtain ⟨-, hs⟩ := h.sound
  refine ⟨fun q slot => ?_, by simp [lookupSingle, NameTable.lookupSingle], fun name hname => ?_,
    fun b head hb => ?_, hs.ended⟩
  · have hset : o.slotsNamed (· = q) = {s | s < o.count ∧ o.names.nameAt? s = some q} := by
      ext s
      simp [slotsNamed]
    rw [hset]
    exact NameTable.lookup?_eq_some hs
  · exact NameTable.lookupSingle_spec hs hname o.count
  · have hi : o.names.isIndexed = true := by
      obtain ⟨hlt, -⟩ := Array.getElem?_eq_some_iff.1 hb
      simp only [NameTable.isIndexed, Array.isEmpty, Bool.not_eq_true', decide_eq_false_iff_not]
      omega
    obtain ⟨slots, hwalk, -⟩ := (hs.indexed hi).chain hb
    exact ⟨slots, hwalk⟩

end Object

namespace Object

/-- Nine slots with an index. The local names in use belong to one bucket, the greater slots come
first on its chain, and one slot has left it again. -/
def crowded : Object :=
  [.grow 9, .setName 8 (.ofLocal "t") false, .setName 5 ⟨"space", "a"⟩ false,
    .setName 7 (.ofLocal "a") false, .setName 3 (.ofLocal "a") false, .delete 7 false].foldl
    apply (.empty true)

theorem lookup_crowded :
    crowded.names.chain? "a" = some [8, 5, 3] ∧ crowded.lookup? (.ofLocal "a") = some 3 := by
  have hmade : crowded.Made := Made.editedAll _ (.empty true) (by decide +kernel)
  refine ⟨by decide +kernel, ((lookups_exact hmade).1 _ _).2
    ⟨by decide, ⟨by decide +kernel, _, by decide +kernel, rfl⟩, ?_⟩⟩
  rintro s ⟨-, q, hq, rfl⟩
  have hbelow : ∀ s < 3, crowded.names.nameAt? s ≠ some (.ofLocal "a") := by
    decide +kernel
  exact Nat.le_of_not_lt fun hs => hbelow s hs hq

end Object

end ScriptHeap
