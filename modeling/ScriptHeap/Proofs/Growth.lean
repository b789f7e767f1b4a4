import ScriptHeap.Proofs.Object

/-!
The storage of an object. An edit that needs room for `count` slots takes exactly the bytes that
growing to them was predicted to take, and only from an object whose shape may change. No other edit
changes how much storage there is.
-/

namespace ScriptHeap

namespace Capacity

lemma eq_growth_of_reserve? {capacity count n : Nat} (h : reserve? capacity count = some n)
    (hlt : capacity < count) : growthBytes? capacity count = some ((n - capacity) * slotBytes) := by
  obtain ⟨hn, hlimit⟩ := Option.filter_eq_some_iff.1 h
  have hlimit : n * slotBytes ≤ arrayLimit := by simpa using hlimit
  have hle : (n - capacity) * slotBytes ≤ n * slotBytes := Nat.mul_le_mul_right _ (Nat.sub_le _ _)
  have hword : arrayLimit < wordLimit := by decide
  rw [growthBytes?, if_neg (by omega), hn, Option.bind_some, word?, if_pos (by omega)]

end Capacity

namespace Object

/-- The storage stays as it is, or the shape may change and the storage grows as predicted for
`count` slots. -/
def Grows (compiler : Bool) (count : Nat) (o o' : Object) : Prop :=
  o'.storageBytes = o.storageBytes ∨
    (o.dynamic = true ∨ compiler = true) ∧
      ∃ extra, o.growthBytes? count = some extra ∧ o'.storageBytes = o.storageBytes + extra

variable {o o' : Object}

lemma storageBytes_congr (h : o'.capacity = o.capacity) : o'.storageBytes = o.storageBytes := by
  simp only [storageBytes, h]

variable [NameHash]

lemma storageBytes_grow {n : Nat} (h : o.grow n = .ok o') :
    ∃ extra, o.growthBytes? n = some extra ∧ o'.storageBytes = o.storageBytes + extra := by
  unfold grow at h
  split at h
  · next hn =>
    obtain rfl := Except.ok.inj h
    exact ⟨0, by simp [growthBytes?, Capacity.growthBytes?, hn], rfl⟩
  · next hn =>
    split at h
    · simp at h
    · next k hk =>
      obtain rfl := Except.ok.inj h
      have hle := Capacity.le_of_reserve? hk
      have hlt : o.capacity < n := Nat.not_le.1 hn
      refine ⟨_, Capacity.eq_growth_of_reserve? hk hlt, ?_⟩
      have hsize : (o.slots ++ Array.replicate (k - o.capacity) (none : Slot)).size =
          o.capacity + (k - o.capacity) := by
        simp [capacity]
      simp only [storageBytes, capacity] at hsize ⊢
      rw [hsize, Nat.add_mul]

/-- A count that does not go beyond what is in use needs no room. -/
lemma storageBytes_grow_of_le {n : Nat} (h : o.grow n = .ok o') (ho : o.Sound)
    (hn : n ≤ o.count) : o'.storageBytes = o.storageBytes := by
  obtain ⟨extra, hextra, he⟩ := storageBytes_grow h
  have hcap : n ≤ o.capacity := Nat.le_trans hn ho.count_le
  obtain rfl : 0 = extra := by simpa [growthBytes?, Capacity.growthBytes?, hcap] using hextra
  exact he

/-- The number of slots that a store to the slot needs. -/
def needed (o : Object) (slot : Int) : Nat := if slot < 0 then o.count + 1 else slot.toNat + 1

lemma grows_checkSlot {slot : Int} {compiler : Bool} {n : Nat}
    (h : o.checkSlot slot compiler = .ok (n, o')) : Grows compiler (o.needed slot) o o' := by
  unfold checkSlot at h
  dsimp only at h
  have hneeded : o.needed slot = (if slot < 0 then o.count else slot.toNat) + 1 := by
    unfold needed
    split <;> rfl
  generalize (if slot < 0 then o.count else slot.toNat) = k at h hneeded
  split at h
  · obtain ⟨-, rfl⟩ := Prod.mk.inj (Except.ok.inj h)
    exact .inl rfl
  · split at h
    · simp at h
    · next hshape =>
      obtain ⟨p, hg, e⟩ := eq_ok_of_map h
      obtain ⟨-, rfl⟩ := Prod.mk.inj e
      refine .inr ⟨?_, hneeded ▸ storageBytes_grow hg⟩
      simpa [or_iff_not_imp_left] using hshape

lemma grows_setValue {slot : Int} {v : Slot} {compiler : Bool} {n : Nat}
    (h : o.setValue slot v compiler = .ok (n, o')) : Grows compiler (o.needed slot) o o' := by
  obtain ⟨⟨k, p⟩, hc, e⟩ := eq_ok_of_map h
  obtain ⟨-, rfl⟩ := Prod.mk.inj e
  have hs : (p.write k v).storageBytes = p.storageBytes := storageBytes_congr (capacity_write _ _ _)
  simpa only [Grows, hs] using grows_checkSlot hc

lemma grows_setName {slot : Int} {q : QName} {compiler : Bool} {n : Nat}
    (h : o.setName slot q compiler = .ok (n, o')) : Grows compiler (o.needed slot) o o' := by
  obtain ⟨⟨k, p⟩, hc, e⟩ := eq_ok_of_map h
  have hp := grows_checkSlot hc
  dsimp only at e
  split at e <;> obtain ⟨-, rfl⟩ := Prod.mk.inj e
  · exact hp
  · exact hp

lemma storageBytes_delete {slot : Nat} {compiler : Bool} (h : o.delete slot compiler = .ok o') :
    o'.storageBytes = o.storageBytes := by
  unfold delete at h
  split at h
  · simp at h
  · split at h
    · simp at h
    · obtain rfl := Except.ok.inj h
      refine storageBytes_congr ?_
      split <;> split <;> exact capacity_write _ _ _

lemma grows_insert {n offset : Nat} {compiler : Bool} (hshape : o.dynamic = true ∨ compiler = true)
    (h : o.insert n offset = .ok o') :
    Grows compiler (min (o.count + n) (wordLimit - 1)) o o' := by
  unfold insert at h
  split at h
  · simp at h
  · next hoff =>
    split at h
    · obtain rfl := Except.ok.inj h
      exact .inl rfl
    · split at h
      · simp at h
      · next hword =>
        obtain ⟨p, hg, rfl⟩ := eq_ok_of_map h
        have hcap := (capacity_grow hg).2
        have hmin : min (o.count + n) (wordLimit - 1) = o.count + n := by omega
        refine .inr ⟨hshape, ?_⟩
        rw [hmin]
        obtain ⟨extra, hextra, hs⟩ := storageBytes_grow hg
        refine ⟨extra, hextra, Eq.trans (storageBytes_congr ?_) hs⟩
        simp only [capacity, Array.size_append, Array.size_extract, Array.size_replicate] at *
        omega

lemma storageBytes_remove {slot : Nat} {compact compiler : Bool} (ho : o.Sound)
    (h : o.remove slot compact compiler = .ok o') : o'.storageBytes = o.storageBytes := by
  have hcount := ho.count_le
  unfold remove at h
  split at h
  · simp at h
  · split at h
    · simp at h
    · next hslot =>
      split at h <;> obtain rfl := Except.ok.inj h <;> refine storageBytes_congr ?_
      · simp only [capacity, Array.size_append, Array.size_extract, List.size_toArray,
          List.length_singleton] at *
        omega
      · exact capacity_write _ _ _

end Object

end ScriptHeap
