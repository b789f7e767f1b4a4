import Mathlib.Tactic.Common
import ScriptHeap.Object.Basic

/-!
The slots of an object. Slots that are not in use are null, so taking them into use brings no
reference to light. An operation that succeeds therefore leaves the object with references it held
before, and at most the one that was stored.
-/

namespace ScriptHeap

lemma eq_ok_of_map {α β : Type} {x : Except Failure α} {f : α → β} {b : β}
    (h : x.map f = .ok b) : ∃ a, x = .ok a ∧ f a = b := by
  rcases x with e | a
  · cases h
  · exact ⟨a, rfl, Except.ok.inj h⟩

namespace Capacity

lemma le_roundUp (n : Nat) : n ≤ roundUp n := le_ceilTo (by decide) n

lemma eq_of_word? {n k : Nat} (h : word? n = some k) : n = k := by
  unfold word? at h
  split at h
  · exact Option.some.inj h
  · simp at h

lemma le_of_next? {capacity count n : Nat} (h : next? capacity count = some n) : count ≤ n := by
  unfold next? at h
  split at h
  · obtain ⟨k, hk, hn⟩ := Option.bind_eq_some_iff.1 h
    have h1 := eq_of_word? hk
    have h2 := eq_of_word? hn
    have h3 : count ≤ ceilTo (max (capacity / 4) unit) count :=
      le_ceilTo (Nat.lt_of_lt_of_le (by decide) (Nat.le_max_right _ _)) count
    have h4 := le_roundUp k
    omega
  · have h1 := eq_of_word? h
    have h2 := le_roundUp count
    omega

lemma le_of_reserve? {capacity count n : Nat} (h : reserve? capacity count = some n) :
    count ≤ n :=
  le_of_next? (Option.filter_eq_some_iff.1 h).1

end Capacity

namespace Object

/-- The content of a slot, null where there is no slot. -/
def slotAt (o : Object) (i : Nat) : Slot := o.slots[i]?.join

structure Sound (o : Object) : Prop where
  count_le : o.count ≤ o.capacity
  /-- The slots that are not in use are null. -/
  blank : ∀ i, o.count ≤ i → o.slotAt i = none

/-- The object turns into another one, into which `v` may have been stored. -/
def Becomes (o o' : Object) (v : Slot) : Prop :=
  o.Sound → o'.Sound ∧ ∀ y ∈ o'.references, y ∈ o.references ∨ v = some y

lemma mem_references {o : Object} {y : RecordId} :
    y ∈ o.references ↔ ∃ i < o.count, o.slotAt i = some y := by
  simp only [references, values, List.mem_filterMap, id_eq, Array.mem_toList_iff, slotAt,
    Option.join_eq_some_iff]
  constructor
  · rintro ⟨v, hv, rfl⟩
    obtain ⟨i, hi⟩ := Array.getElem?_of_mem hv
    rw [Array.getElem?_extract] at hi
    split at hi
    · exact ⟨i, by omega, by simpa using hi⟩
    · simp at hi
  · rintro ⟨i, hi, h⟩
    refine ⟨some y, Array.mem_of_getElem? (i := i) ?_, rfl⟩
    have hlt : i < o.slots.size := by
      by_contra hc
      simp [Array.getElem?_eq_none (Nat.le_of_not_lt hc)] at h
    rw [Array.getElem?_extract, if_pos (by omega)]
    simpa using h

lemma Sound.length_values {o : Object} (ho : o.Sound) : o.values.length = o.count := by
  have h := ho.count_le
  unfold capacity at h
  simp only [values, Array.length_toList, Array.size_extract]
  omega

lemma getElem_values {o : Object} {i : Nat} (hi : i < o.values.length) :
    o.values[i] = o.slotAt i := by
  simp only [values, Array.getElem_toList, Array.getElem_extract, Nat.zero_add, slotAt]
  simp only [values, Array.length_toList, Array.size_extract] at hi
  rw [Array.getElem?_eq_getElem (by omega), Option.join_some]

/-- References come to light only where a slot in use got a value it did not have. -/
lemma Sound.mem_references {o : Object} (ho : o.Sound) {y : RecordId} {i : Nat}
    (h : o.slotAt i = some y) : y ∈ o.references := by
  refine Object.mem_references.2 ⟨i, ?_, h⟩
  by_contra hc
  simp [ho.blank i (Nat.le_of_not_lt hc)] at h

lemma slotAt_none_of_le {o : Object} {i : Nat} (h : o.capacity ≤ i) : o.slotAt i = none := by
  simp [slotAt, Array.getElem?_eq_none h]

/-- An object whose slots all hold what some slot held before. -/
lemma becomes_of_slotAt {o o' : Object} {v : Slot} (hc : o.Sound → o'.count ≤ o'.capacity)
    (hb : o.Sound → ∀ i, o'.count ≤ i → o'.slotAt i = none)
    (hs : ∀ i y, o'.slotAt i = some y → (∃ j, o.slotAt j = some y) ∨ v = some y) :
    o.Becomes o' v := by
  refine fun ho => ⟨⟨hc ho, hb ho⟩, fun y hy => ?_⟩
  obtain ⟨i, -, hi⟩ := mem_references.1 hy
  exact (hs i y hi).imp (fun ⟨j, hj⟩ => ho.mem_references hj) id

lemma Becomes.refl (o : Object) (v : Slot) : o.Becomes o v := fun ho => ⟨ho, fun _ => .inl⟩

lemma Becomes.trans {a b c : Object} {v : Slot} (h : a.Becomes b none) (k : b.Becomes c v) :
    a.Becomes c v := fun ha => by
  obtain ⟨hb, h⟩ := h ha
  obtain ⟨hc, k⟩ := k hb
  exact ⟨hc, fun y hy => (k y hy).imp (fun hy => (h y hy).resolve_right (by simp)) id⟩

/-- Names, flags and the like do not matter. -/
lemma becomes_of_slots {o o' : Object} (hs : o'.slots = o.slots) (hc : o'.count = o.count)
    (v : Slot) : o.Becomes o' v := by
  have h (i : Nat) : o'.slotAt i = o.slotAt i := by simp [slotAt, hs]
  refine becomes_of_slotAt (fun ho => ?_) (fun ho i hi => ?_) fun i y hi => .inl ⟨i, h i ▸ hi⟩
  · simpa [capacity, hs, hc] using ho.count_le
  · rw [h, ho.blank i (hc ▸ hi)]

lemma sound_empty (dynamic : Bool) : (Object.empty dynamic).Sound :=
  ⟨Nat.le_refl _, fun _ _ => slotAt_none_of_le (Nat.zero_le _)⟩

lemma references_empty (dynamic : Bool) : (Object.empty dynamic).references = [] := by
  simp [references, values, Object.empty]

lemma slotAt_write (o : Object) (slot : Nat) (v : Slot) (i : Nat) :
    (o.write slot v).slotAt i = if i = slot ∧ slot < o.capacity then v else o.slotAt i := by
  simp only [slotAt, write, Array.getElem?_setIfInBounds, capacity]
  by_cases h : i = slot
  · subst h
    by_cases hi : i < o.slots.size
    · simp [hi]
    · simp [hi]
  · simp [h, Ne.symm h]

@[simp] lemma count_write (o : Object) (slot : Nat) (v : Slot) :
    (o.write slot v).count = o.count := rfl

@[simp] lemma capacity_write (o : Object) (slot : Nat) (v : Slot) :
    (o.write slot v).capacity = o.capacity := by
  simp [capacity, write]

lemma becomes_write {o : Object} {slot : Nat} {v : Slot} (h : slot < o.count ∨ v = none) :
    o.Becomes (o.write slot v) v := by
  refine becomes_of_slotAt (fun ho => by simpa using ho.count_le) (fun ho i hi => ?_)
    fun i y hi => ?_
  · rw [slotAt_write]
    split
    · next e =>
      obtain ⟨rfl, -⟩ := e
      exact h.resolve_left (Nat.not_lt.2 hi)
    · exact ho.blank i hi
  · rw [slotAt_write] at hi
    split at hi
    · exact .inr hi
    · exact .inl ⟨i, hi⟩

/-! ### Slots that move -/

lemma slotAt_insert (o : Object) {n offset count : Nat} (h1 : offset ≤ count)
    (h2 : count + n ≤ o.capacity) (i : Nat) :
    (o.slots.extract 0 offset ++ Array.replicate n none ++ o.slots.extract offset count
      ++ o.slots.extract (count + n) o.capacity)[i]?.join =
      if i < offset then o.slotAt i
      else if i < offset + n then none
      else if i < count + n then o.slotAt (i - n)
      else o.slotAt i := by
  simp only [capacity] at *
  simp only [Array.getElem?_append, Array.getElem?_extract, Array.getElem?_replicate,
    Array.size_append, Array.size_extract, Array.size_replicate, slotAt, Nat.sub_zero, Nat.zero_add]
  rcases Nat.lt_or_ge i offset with hi | hi
  · rw [if_pos (by omega), if_pos (by omega), if_pos (by omega), if_pos (by omega), if_pos hi]
  · rw [if_neg (Nat.not_lt.2 hi)]
    rcases Nat.lt_or_ge i (offset + n) with hj | hj
    · rw [if_pos (by omega), if_pos (by omega), if_neg (by omega), if_pos (by omega), if_pos hj]
      rfl
    · rw [if_neg (Nat.not_lt.2 hj)]
      rcases Nat.lt_or_ge i (count + n) with hk | hk
      · rw [if_pos (by omega), if_neg (by omega), if_pos (by omega), if_pos hk]
        congr 2
        omega
      · rw [if_neg (by omega), if_neg (Nat.not_lt.2 hk)]
        split
        · congr 2
          omega
        · rw [Array.getElem?_eq_none (by omega)]

lemma slotAt_compact (o : Object) {slot : Nat} (h1 : slot < o.count) (h2 : o.count ≤ o.capacity)
    (i : Nat) :
    (o.slots.extract 0 slot ++ o.slots.extract (slot + 1) o.count ++ #[none]
      ++ o.slots.extract o.count o.capacity)[i]?.join =
      if i < slot then o.slotAt i
      else if i + 1 < o.count then o.slotAt (i + 1)
      else if i < o.count then none
      else o.slotAt i := by
  simp only [capacity] at *
  simp only [Array.getElem?_append, Array.getElem?_extract, Array.size_append, Array.size_extract,
    List.size_toArray, List.length_singleton, slotAt, Nat.sub_zero, Nat.zero_add]
  rcases Nat.lt_or_ge i slot with hi | hi
  · rw [if_pos (by omega), if_pos (by omega), if_pos (by omega), if_pos (by omega), if_pos hi]
  · rw [if_neg (Nat.not_lt.2 hi)]
    rcases Nat.lt_or_ge (i + 1) o.count with hj | hj
    · rw [if_pos (by omega), if_pos (by omega), if_neg (by omega), if_pos (by omega), if_pos hj]
      congr 2
      omega
    · rw [if_neg (Nat.not_lt.2 hj)]
      rcases Nat.lt_or_ge i o.count with hk | hk
      · rw [if_pos (by omega), if_neg (by omega), if_pos hk]
        have : i - (min slot o.slots.size + (min o.count o.slots.size - (slot + 1))) = 0 := by
          omega
        simp [this]
      · rw [if_neg (by omega), if_neg (Nat.not_lt.2 hk)]
        split
        · congr 2
          omega
        · rw [Array.getElem?_eq_none (by omega)]

variable [NameHash]

lemma sound_ofTemplate (template : NameTable) (extra : Nat) (dynamic separate : Bool) :
    (ofTemplate template extra dynamic separate).Sound := by
  refine ⟨by simp [ofTemplate, capacity, Capacity.le_roundUp], fun i _ => ?_⟩
  simp only [ofTemplate, slotAt, Array.getElem?_replicate]
  split <;> rfl

lemma references_ofTemplate (template : NameTable) (extra : Nat) (dynamic separate : Bool) :
    (ofTemplate template extra dynamic separate).references = [] := by
  refine List.eq_nil_iff_forall_not_mem.2 fun y hy => ?_
  obtain ⟨i, -, hi⟩ := mem_references.1 hy
  simp only [ofTemplate, slotAt, Array.getElem?_replicate] at hi
  split at hi <;> simp at hi

/-! ### Growth -/

lemma slotAt_grow {o o' : Object} {n : Nat} (h : o.grow n = .ok o') (i : Nat) :
    o'.slotAt i = o.slotAt i := by
  unfold grow at h
  split at h
  · obtain rfl := Except.ok.inj h
    rfl
  · split at h
    · simp at h
    · obtain rfl := Except.ok.inj h
      simp only [slotAt, Array.getElem?_append, Array.getElem?_replicate]
      split
      · rfl
      · next hi =>
        rw [Array.getElem?_eq_none (Nat.le_of_not_lt hi)]
        split <;> rfl

lemma capacity_grow {o o' : Object} {n : Nat} (h : o.grow n = .ok o') :
    o.capacity ≤ o'.capacity ∧ n ≤ o'.capacity := by
  unfold grow at h
  split at h
  · next hn =>
    obtain rfl := Except.ok.inj h
    exact ⟨Nat.le_refl _, hn⟩
  · split at h
    · simp at h
    · next k hk =>
      obtain rfl := Except.ok.inj h
      have := Capacity.le_of_reserve? hk
      simp only [capacity, Array.size_append, Array.size_replicate] at *
      omega

lemma becomes_grow {o o' : Object} {n : Nat} (h : o.grow n = .ok o') : o.Becomes o' none := by
  have hs := slotAt_grow h
  have hcap := capacity_grow h
  have hcount := count_grow h
  refine becomes_of_slotAt (fun ho => ?_) (fun ho i hi => ?_) fun i y hi => .inl ⟨i, hs i ▸ hi⟩
  · have := ho.count_le
    omega
  · rw [hs, ho.blank i (by omega)]

/-- The slot is there, or the object grows to have it. -/
lemma checkSlot_cases {o o' : Object} {slot : Int} {compiler : Bool} {n : Nat}
    (h : o.checkSlot slot compiler = .ok (n, o')) :
    (n < o.count ∧ o' = o) ∨ o.grow (n + 1) = .ok o' := by
  unfold checkSlot at h
  dsimp only at h
  generalize (if slot < 0 then o.count else slot.toNat) = k at h
  split at h
  · next hk =>
    obtain ⟨rfl, rfl⟩ := Prod.mk.inj (Except.ok.inj h)
    exact .inl ⟨hk, rfl⟩
  · split at h
    · simp at h
    · rcases hg : o.grow (k + 1) with e | p
      · simp [hg, Except.map] at h
      · rw [hg] at h
        obtain ⟨rfl, rfl⟩ := Prod.mk.inj (Except.ok.inj h)
        exact .inr hg

lemma becomes_checkSlot {o o' : Object} {slot : Int} {compiler : Bool} {n : Nat}
    (h : o.checkSlot slot compiler = .ok (n, o')) : o.Becomes o' none ∧ n < o'.count := by
  rcases checkSlot_cases h with ⟨hn, rfl⟩ | hg
  · exact ⟨.refl _ _, hn⟩
  · have := count_grow hg
    exact ⟨becomes_grow hg, by omega⟩

/-! ### Stores and names -/

lemma becomes_setValue {o o' : Object} {slot : Int} {v : Slot} {compiler : Bool} {n : Nat}
    (h : o.setValue slot v compiler = .ok (n, o')) : o.Becomes o' v := by
  unfold setValue at h
  rcases hc : o.checkSlot slot compiler with e | ⟨k, p⟩
  · simp [hc, Except.map] at h
  · rw [hc] at h
    obtain ⟨rfl, rfl⟩ := Prod.mk.inj (Except.ok.inj h)
    obtain ⟨hp, hk⟩ := becomes_checkSlot hc
    exact hp.trans (becomes_write (.inl hk))

lemma becomes_setName {o o' : Object} {slot : Int} {q : QName} {compiler : Bool} {n : Nat}
    (h : o.setName slot q compiler = .ok (n, o')) : o.Becomes o' none := by
  unfold setName at h
  rcases hc : o.checkSlot slot compiler with e | ⟨k, p⟩
  · simp [hc, Except.map] at h
  · rw [hc] at h
    simp only [Except.map] at h
    split at h <;> obtain ⟨rfl, rfl⟩ := Prod.mk.inj (Except.ok.inj h)
    · exact (becomes_checkSlot hc).1
    · refine (becomes_checkSlot hc).1.trans (becomes_of_slots ?_ ?_ none) <;> rfl

/-! ### Slots that go or move -/

lemma becomes_delete {o o' : Object} {slot : Nat} {compiler : Bool}
    (h : o.delete slot compiler = .ok o') : o.Becomes o' none := by
  unfold delete at h
  split at h
  · simp at h
  · split at h
    · simp at h
    · dsimp only at h
      obtain ⟨p, hp, hslots, hcount⟩ : ∃ p : Object, (if slot + 1 = p.count then
          { p with count := slot } else p) = o' ∧ p.slots = (o.write slot none).slots ∧
          p.count = o.count := by
        refine ⟨_, Except.ok.inj h, ?_, ?_⟩ <;> split <;> rfl
      have hw : o.Becomes p none :=
        (becomes_write (.inr rfl)).trans (becomes_of_slots hslots hcount none)
      split at hp <;> subst hp
      · next hlast =>
        refine hw.trans (becomes_of_slotAt (fun hp => ?_) (fun hp i hi => ?_)
          fun i y hi => .inl ⟨i, hi⟩)
        · have := hp.count_le
          simp only [capacity] at this ⊢
          omega
        · rcases Nat.eq_or_lt_of_le hi with rfl | hi
          · have : p.slotAt slot = (o.write slot none).slotAt slot := by
              simp [slotAt, hslots]
            refine this.trans ?_
            rw [slotAt_write]
            split
            · rfl
            · next hc => exact slotAt_none_of_le (by simpa using hc)
          · exact hp.blank i (by simp only at hi; omega)
      · exact hw

lemma becomes_insert {o o' : Object} {n offset : Nat} (h : o.insert n offset = .ok o') :
    o.Becomes o' none := by
  unfold insert at h
  split at h
  · simp at h
  · next hoff =>
    split at h
    · obtain rfl := Except.ok.inj h
      exact .refl _ _
    · split at h
      · simp at h
      · rcases hg : o.grow (o.count + n) with e | p
        · simp [hg, Except.map] at h
        · rw [hg] at h
          obtain rfl := Except.ok.inj h
          have hcap := (capacity_grow hg).2
          have hcount := count_grow hg
          refine (becomes_grow hg).trans ?_
          have hs := slotAt_insert p (Nat.not_lt.1 hoff) hcap
          refine becomes_of_slotAt (fun hp => ?_) (fun hp i hi => ?_) fun i y hi => .inl ?_
          · simp only [capacity, Array.size_append, Array.size_extract, Array.size_replicate] at *
            omega
          · simp only at hi
            refine (hs i).trans ?_
            rw [if_neg (by omega), if_neg (by omega), if_neg (by omega), hp.blank i hi]
          · have hi := (hs i).symm.trans hi
            split at hi
            · exact ⟨i, hi⟩
            · split at hi
              · simp at hi
              · split at hi
                · exact ⟨_, hi⟩
                · exact ⟨i, hi⟩

lemma becomes_remove {o o' : Object} {slot : Nat} {compact compiler : Bool}
    (h : o.remove slot compact compiler = .ok o') : o.Becomes o' none := by
  unfold remove at h
  split at h
  · simp at h
  · split at h
    · simp at h
    · next hslot =>
      split at h <;> obtain rfl := Except.ok.inj h
      · intro ho
        have hs := slotAt_compact o (Nat.not_le.1 hslot) ho.count_le
        refine becomes_of_slotAt (fun ho => ?_) (fun ho i hi => ?_) (fun i y hi => .inl ?_) ho
        · have := ho.count_le
          simp only [capacity, Array.size_append, Array.size_extract, List.size_toArray,
            List.length_singleton] at *
          omega
        · simp only at hi
          refine (hs i).trans ?_
          rw [if_neg (by omega), if_neg (by omega)]
          split
          · rfl
          · exact ho.blank i (by omega)
        · have hi := (hs i).symm.trans hi
          split at hi
          · exact ⟨i, hi⟩
          · split at hi
            · exact ⟨_, hi⟩
            · split at hi
              · simp at hi
              · exact ⟨i, hi⟩
      · refine Becomes.trans (b := o.write slot none) (becomes_write (.inr rfl))
          (becomes_of_slots ?_ ?_ none) <;> rfl

end Object

end ScriptHeap
