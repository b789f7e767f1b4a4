import Mathlib
import ScriptHeap.Proofs.Limit
import ScriptHeap.Proofs.NamedStore

/-!
Stores that need no room. The check before a store compares the memory in use with the limit, even
where the store adds nothing to it. So once more memory is in use than the limit allows, an object
that may change its shape takes no store at all, not even of null. An object of a fixed shape is
not checked and takes them.
-/

namespace ScriptHeap

/-- A lookup finds a slot in use. -/
lemma NameTable.lt_of_lookup? [Environment] {t : NameTable} {q : QName} {n slot : Nat}
    (hq : t.lookup? q n = some slot) : slot < n := by
  unfold lookup? at hq
  split at hq
  · cases hq
  · have hmem : slot ∈ t.candidates q.name n := by
      refine List.mem_of_mem_filter (p := fun slot => t.nameAt? slot == some q) ?_
      dsimp only at hq
      split at hq
      · exact List.min?_mem hq
      · exact List.mem_of_head? hq
    unfold candidates at hmem
    split at hmem
    · simpa using (List.mem_filter.1 hmem).2
    · exact Nat.lt_of_lt_of_le (List.mem_range.1 hmem) (Nat.min_le_left _ _)

namespace Heap

/-- Stores to the object are refused, though they would need no room: it may change its shape, and
the heap has more in use than its limit. -/
def Strained (h : Heap) (p : Object) : Prop :=
  (p.dynamic = true ∨ h.options.compilerMode = true) ∧ ¬ h.Roomy

/-- Null, or a record that is live. -/
def Storable (h : Heap) (v : Slot) : Prop := ∀ y, v = some y → h.arena.isLive y = true

variable {h : Heap} {id : RecordId} {p : Object}

/-- Room that the object has already is refused only under strain. -/
lemma canReserve_iff_not_strained {n : Nat} (hp : h.object id = .ok p) (hn : n ≤ p.capacity) :
    h.canReserve id n = true ↔ ¬ h.Strained p := by
  have hnone : p.growthBytes? n = some 0 := by
    simp [Object.growthBytes?, Capacity.growthBytes?, hn]
  have hroomy : (h.usedMemory < wordLimit ∧ h.usedMemory ≤ h.options.maxMemory) ↔ h.Roomy :=
    ⟨fun hroom => ⟨hroom.1, hroom.2⟩, fun hr => ⟨hr.word, hr.limit⟩⟩
  rw [canReserve_iff hp, hnone]
  simp only [Option.some.injEq, exists_eq_left', Nat.add_zero, hroomy, Strained, not_and_or,
    not_or, not_not, Bool.not_eq_true]

lemma run_reserve_strained {n : Nat} (hp : h.object id = .ok p) (hn : n ≤ p.capacity)
    (hs : h.Strained p) : (reserve id n).run h =
      .error .outOfMemory (h.withFault (.growthRefused id n)) := by
  have hc : ¬ h.canReserve id n = true := fun hc => (canReserve_iff_not_strained hp hn).1 hc hs
  rw [run_reserve, if_neg hc]

lemma run_reserve_unstrained {n : Nat} (hp : h.object id = .ok p) (hn : n ≤ p.capacity)
    (hs : ¬ h.Strained p) : (reserve id n).run h = .ok () h := by
  rw [run_reserve, if_pos ((canReserve_iff_not_strained hp hn).2 hs)]

section Hinges

variable [Environment]

/-- Whether the operation succeeds depends on the strain alone. It answers as told and leads to a
heap as told, or it is refused for memory. -/
structure Hinges (h : Heap) (p : Object) (op : Operation) (answer : Answer) (Q : Heap → Prop) :
    Prop where
  refused : h.Strained p → (apply op h).1 = .error .outOfMemory
  accepted : ¬ h.Strained p → (apply op h).1 = .ok answer ∧ Q (apply op h).2

lemma apply_congr {op op' : Operation} (hrun : (perform op).run h = (perform op').run h) :
    apply op h = apply op' h := by
  rw [apply, hrun, apply]

section Apply

variable {α : Type} {m : HeapM α} {f : α → Answer} {op : Operation} {a : α} {h' : Heap}
  (hop : ∀ h, (perform op).run h = (f <$> m).run h)
include hop

lemma apply_of_run_ok (hm : m.run h = .ok a h') : apply op h = (.ok (f a), h') := by
  have hrun : (perform op).run h = .ok (f a) h' := by
    rw [hop, EStateM.run_map, hm]
    rfl
  rw [apply, hrun]

lemma apply_of_run_error {e : Failure} (hm : m.run h = .error e h') :
    apply op h = (.error e, h') := by
  have hrun : (perform op).run h = .error e h' := by
    rw [hop, EStateM.run_map, hm]
    rfl
  rw [apply, hrun]

lemma Hinges.of_run {Q : Heap → Prop}
    (hbad : h.Strained p → ∃ h₁, m.run h = .error .outOfMemory h₁)
    (hgood : ¬ h.Strained p → m.run h = .ok a h') (hQ : Q h') : h.Hinges p op (f a) Q := by
  refine ⟨fun hs => ?_, fun hs => ?_⟩
  · obtain ⟨h₁, hrun⟩ := hbad hs
    rw [apply_of_run_error hop hrun]
  · rw [apply_of_run_ok hop (hgood hs)]
    exact ⟨rfl, hQ⟩

end Apply

section Stores

variable (hp : h.object id = .ok p) (hsound : p.Sound)
include hp hsound

lemma hinges_setProperty {slot : Nat} (hs : slot < p.count) {v : Slot} (hv : h.Storable v) :
    h.Hinges p (.setProperty id slot v) (.slot slot) fun h' => h'.getProperty id slot = .ok v := by
  have hcap : slot + 1 ≤ p.capacity := Nat.le_trans hs hsound.count_le
  have hwritten : (h.withValue id p slot v).getProperty id slot = .ok v := by
    have hlt : slot < (p.write slot v).count := hs
    rw [getProperty, object_withValue hp, Except.bind, Object.get_of_lt hlt, Object.slotAt_write,
      if_pos ⟨rfl, hcap⟩]
    simpa using hsound.count_le
  refine .of_run (fun _ => rfl) (fun hstrained => ?_) (fun hok => ?_) hwritten
  · unfold setProperty
    rw [run_bind_ok (run_requireLive_ok hv), run_get_bind, storeCount_natCast hp]
    exact ⟨_, run_bind_error (run_reserve_strained hp hcap hstrained)⟩
  · exact run_setProperty_ok hp hs hv ((canReserve_iff_not_strained hp hcap).2 hok)

lemma hinges_setPropertyName {slot : Nat} (hs : slot < p.count) (q : QName) :
    h.Hinges p (.setPropertyName id slot q) (.slot slot) fun h' =>
      h'.propertyNameAt id slot = .ok q := by
  have hcap : slot + 1 ≤ p.capacity := Nat.le_trans hs hsound.count_le
  obtain ⟨p', hp', -, hcount, -, hname⟩ := Object.setName_of_lt hs q h.options.compilerMode
  have hnamed : (h.withObject id p p').propertyNameAt id slot = .ok q := by
    rw [propertyNameAt, object_withObject hp, Except.bind, Object.nameAt, if_pos (hcount ▸ hs),
      hname]
  refine .of_run (fun _ => rfl) (fun hstrained => ?_) (fun hok => ?_) hnamed
  · unfold setPropertyName
    rw [run_get_bind, storeCount_natCast hp]
    exact ⟨_, run_bind_error (run_reserve_strained hp hcap hstrained)⟩
  · exact run_setPropertyName_ok hp ((canReserve_iff_not_strained hp hcap).2 hok) hp'

lemma hinges_growObject {n : Nat} (hn : n ≤ p.count) :
    h.Hinges p (.growObject id n) .done fun h' => h'.propertyCount id = .ok p.count := by
  have hcap : n ≤ p.capacity := Nat.le_trans hn hsound.count_le
  obtain ⟨p', hgrow⟩ : ∃ p', p.grow n = .ok p' := by
    rw [Object.grow, if_pos hcap]
    exact ⟨_, rfl⟩
  have hcount : (h.withObject id p p').propertyCount id = .ok p.count := by
    rw [propertyCount, object_withObject hp, Except.map, Object.count_grow hgrow,
      Nat.max_eq_left hn]
  refine .of_run (m := growObject id n) (f := fun _ => .done) (a := ())
    (fun h => congrArg (EStateM.run · h) (bind_pure_comp _ _)) (fun hstrained => ?_)
    (fun hok => ?_) hcount
  · unfold growObject
    rw [run_get_bind]
    exact ⟨_, run_bind_error (run_reserve_strained hp hcap hstrained)⟩
  · unfold growObject
    rw [run_get_bind, run_bind_ok (run_reserve_unstrained hp hcap hok)]
    refine run_editObject_ok hp ?_
    rw [if_neg, hgrow]
    · rfl
    · simp [Nat.not_lt.2 hn]

end Stores

/-- A store under a name that is there is a store to its slot, as far as 31 bits can number it. -/
lemma apply_setPropertyByName_found {q : QName} {slot : Nat} (hp : h.object id = .ok p)
    (hq : p.lookup? q = some slot) (v : Slot) : apply (.setPropertyByName id q v) h =
      apply (.setProperty id (slotArgument slot) v) h := by
  refine apply_congr ?_
  change (Answer.slot <$> setPropertyByName id q v).run h =
    (Answer.slot <$> setProperty id (slotArgument slot) v).run h
  rw [EStateM.run_map, EStateM.run_map, run_setPropertyByName_found hp hq v]

/-- **What refuses a store that needs no room.** Take any state that a run leads to, and an object
in it. A store of null or a live value to a slot in use, naming such a slot, and growing to no more
slots than there are succeed and do what they should, unless the heap is under strain; then each of
them is refused for memory. A store under a name that is there is one to its slot. -/
theorem roomless_store_hinges (o : HeapOptions) (ops : List Operation) {id : RecordId} {p : Object}
    (hp : (run (fresh o) ops).object id = .ok p) :
    let h := run (fresh o) ops
    (∀ slot < p.count, ∀ v, h.Storable v → h.Hinges p (.setProperty id slot v) (.slot slot)
      fun h' => h'.getProperty id slot = .ok v) ∧
    (∀ slot < p.count, ∀ q, h.Hinges p (.setPropertyName id slot q) (.slot slot)
      fun h' => h'.propertyNameAt id slot = .ok q) ∧
    (∀ n ≤ p.count, h.Hinges p (.growObject id n) .done
      fun h' => h'.propertyCount id = .ok p.count) ∧
    ∀ q slot v, p.lookup? q = some slot →
      apply (.setPropertyByName id q v) h = apply (.setProperty id (slotArgument slot) v) h ∧
      (slot < 2 ^ 31 → h.Storable v → h.Hinges p (.setPropertyByName id q v) (.slot slot)
        fun h' => h'.getProperty id slot = .ok v) := by
  intro h
  have hsound : p.Sound := by
    obtain ⟨r, hr, hb⟩ := object_eq_ok hp
    exact (sound_run ops (steady_fresh o).1.toSound).1.objects id r p hr hb
  refine ⟨fun slot hs v hv => hinges_setProperty hp hsound hs hv,
    fun slot hs q => hinges_setPropertyName hp hsound hs q,
    fun n hn => hinges_growObject hp hsound hn, fun q slot v hq => ?_⟩
  have hfound := apply_setPropertyByName_found hp hq v
  refine ⟨hfound, fun hslot hv => ?_⟩
  have hs : slot < p.count := NameTable.lt_of_lookup? hq
  obtain ⟨hbad, hgood⟩ := hinges_setProperty hp hsound hs hv
  rw [slotArgument_of_lt hslot] at hfound
  exact ⟨fun hstrained => hfound ▸ hbad hstrained, fun hok => hfound ▸ hgood hok⟩

end Hinges

/-- An object with one slot took the place of a pooled one without, which has left the heap of 100
bytes with 160 in use. The slot holds null, and null cannot be stored to it. -/
theorem roomless_store_refused :
    let h := run (fresh tight) [.createPlainObject, .collect .full, .createObject .object 1]
    h.getProperty 1 0 = .ok none ∧ (apply (.setProperty 1 0 none) h).1 = .error .outOfMemory := by
  have hobject : ((run (fresh tight) [.createPlainObject, .collect .full,
      .createObject .object 1]).object 1).map (fun p => (p.count, p.dynamic)) = .ok (1, true) := by
    cbv
  have hvalue : (run (fresh tight) [.createPlainObject, .collect .full,
      .createObject .object 1]).getProperty 1 0 = .ok none := by cbv
  have hused : (run (fresh tight) [.createPlainObject, .collect .full,
      .createObject .object 1]).usedMemory = 160 := by cbv
  have hlimit : (run (fresh tight) [.createPlainObject, .collect .full,
      .createObject .object 1]).options.maxMemory = 100 := by cbv
  obtain ⟨p, hp, htold⟩ := eq_ok_of_map hobject
  obtain ⟨hcount, hdynamic⟩ := Prod.mk.inj htold
  have hstores := (roomless_store_hinges tight _ hp).1 0 (by rw [hcount]; decide) none
    (fun y hy => by cases hy)
  refine ⟨hvalue, hstores.refused ⟨.inl hdynamic, fun hroomy => ?_⟩⟩
  have hle := hroomy.limit
  rw [hused, hlimit] at hle
  exact absurd hle (by decide)

end Heap

end ScriptHeap
