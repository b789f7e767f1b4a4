import Mathlib
import ScriptHeap.Proofs.Listing
import ScriptHeap.Proofs.Runs

/-!
Stores by name, step by step. A store to a slot checks everything before it changes anything. A
store under a name that is not there yet is several such stores in a row: the slot is appended and
named before the value is looked at. So a value that is not live is refused too late, and the slot
stays behind.
-/

namespace ScriptHeap

/-! ### Objects -/

namespace Object

variable [NameHash] {o : Object}

lemma checkSlot_of_lt {slot : Nat} (h : slot < o.count) (compiler : Bool) :
    o.checkSlot slot compiler = .ok (slot, o) := by
  have hnot : ¬ (slot : Int) < 0 := by omega
  simp only [checkSlot, if_neg hnot, Int.toNat_natCast, if_pos h]

lemma setValue_of_lt {slot : Nat} (h : slot < o.count) (v : Slot) (compiler : Bool) :
    o.setValue slot v compiler = .ok (slot, o.write slot v) := by
  rw [setValue, checkSlot_of_lt h]
  rfl

/-- A slot in use is named without a change of the slots. -/
lemma setName_of_lt {slot : Nat} (h : slot < o.count) (q : QName) (compiler : Bool) :
    ∃ p, o.setName slot q compiler = .ok (slot, p) ∧ p.slots = o.slots ∧ p.count = o.count ∧
      p.dynamic = o.dynamic ∧ p.names.nameAt? slot = some q := by
  rw [setName, checkSlot_of_lt h]
  by_cases hname : o.names.nameAt? slot = some q
  · exact ⟨o, by simp [Except.map, hname], rfl, rfl, rfl, hname⟩
  · refine ⟨{ o with names := o.names.rename slot q o.count, shared := false },
      by simp [Except.map, hname], rfl, rfl, rfl, ?_⟩
    exact NameTable.nameAt?_rename_self _ h q

/-- An append needs an object that may change its shape and an array that can exist. -/
lemma checkSlot_append (o : Object) (compiler : Bool) :
    (o.dynamic = false ∧ compiler = false ∧ o.checkSlot (-1) compiler = .error .typeError) ∨
    ((o.dynamic = true ∨ compiler = true) ∧
      o.checkSlot (-1) compiler = (o.grow (o.count + 1)).map (o.count, ·)) := by
  have hslot : (if (-1 : Int) < 0 then o.count else (-1 : Int).toNat) = o.count :=
    if_pos (by decide)
  simp only [checkSlot, hslot, if_neg (Nat.lt_irrefl _)]
  cases o.dynamic <;> cases compiler <;> simp

lemma eq_count_of_checkSlot {compiler : Bool} {n : Nat} {p : Object}
    (h : o.checkSlot (-1) compiler = .ok (n, p)) : n = o.count := by
  rcases checkSlot_append o compiler with ⟨-, -, herr⟩ | ⟨-, hgrow⟩
  · rw [herr] at h
    cases h
  · obtain ⟨p', -, e⟩ := eq_ok_of_map (hgrow.symm.trans h)
    exact (Prod.mk.inj e).1.symm

lemma le_count_of_setName {slot : Int} {q : QName} {compiler : Bool} {n : Nat} {p : Object}
    (h : o.setName slot q compiler = .ok (n, p)) : o.count ≤ p.count := by
  obtain ⟨⟨k, p'⟩, hc, e⟩ := eq_ok_of_map h
  have hcount : p.count = p'.count := by
    dsimp only at e
    split at e <;> obtain ⟨-, rfl⟩ := Prod.mk.inj e <;> rfl
  rcases checkSlot_cases hc with ⟨-, rfl⟩ | hg
  · exact hcount.ge
  · rw [hcount, count_grow hg]
    exact Nat.le_max_left _ _

lemma grow_error {n : Nat} {e : Failure} (h : o.grow n = .error e) : e = .outOfMemory := by
  unfold grow at h
  split at h
  · simp at h
  · split at h
    · exact (Except.error.inj h).symm
    · simp at h

lemma dynamic_grow {n : Nat} {p : Object} (h : o.grow n = .ok p) : p.dynamic = o.dynamic := by
  unfold grow at h
  split at h
  · obtain rfl := Except.ok.inj h
    rfl
  · split at h
    · simp at h
    · obtain rfl := Except.ok.inj h
      rfl

end Object

namespace Heap

/-! ### Computations that fail without a trace -/

/-- The heap with another last fault. -/
def withFault (h : Heap) (f : Fault) : Heap := { h with fault := some f }

/-- If the computation fails, then with the heap as it was but for the last fault. -/
def Atomic {α : Type} (m : HeapM α) (h : Heap) : Prop :=
  ∀ e h', m.run h = .error e h' → { h' with fault := h.fault } = h

section Bind

variable {α β : Type} {m : HeapM α} {f : α → HeapM β} {a : α} {e : Failure} {h h' : Heap}

lemma run_bind_ok (hm : m.run h = .ok a h') : (m >>= f).run h = (f a).run h' := by
  rw [EStateM.run_bind, hm]

lemma run_bind_error (hm : m.run h = .error e h') : (m >>= f).run h = .error e h' := by
  rw [EStateM.run_bind, hm]

lemma run_get_bind (f : Heap → HeapM α) (h : Heap) : (get >>= f).run h = (f h).run h := rfl

lemma run_refuse (f : Fault) (h : Heap) :
    (refuse f : HeapM α).run h = .error f.failure (h.withFault f) := rfl

lemma atomic_refuse (f : Fault) : Atomic (refuse f : HeapM α) h := by
  intro e h' he
  obtain ⟨-, rfl⟩ := EStateM.Result.error.inj ((run_refuse f h).symm.trans he)
  rfl

/-- The computation lets the heap pass as it is, or refuses it. -/
def Checks (m : HeapM Unit) (h : Heap) : Prop :=
  m.run h = .ok () h ∨ ∃ f, m.run h = .error f.failure (h.withFault f)

lemma Checks.andThen {m : HeapM Unit} {f : Unit → HeapM β} (hm : Checks m h)
    (hf : Atomic (f ()) h) : Atomic (m >>= f) h := by
  intro e h' he
  rcases hm with hok | ⟨fault, herr⟩
  · exact hf e h' ((run_bind_ok hok).symm.trans he)
  · obtain ⟨-, rfl⟩ := EStateM.Result.error.inj ((run_bind_error herr).symm.trans he)
    rfl

/-- What cannot fail may follow. -/
lemma Atomic.andThen (hm : Atomic m h) (hf : ∀ a h₁, ∃ b h₂, (f a).run h₁ = .ok b h₂) :
    Atomic (m >>= f) h := by
  intro e h' he
  rcases hres : m.run h with ⟨a, h₁⟩ | ⟨e₁, h₁⟩
  · obtain ⟨b, h₂, hok⟩ := hf a h₁
    rw [run_bind_ok hres, hok] at he
    cases he
  · obtain ⟨-, rfl⟩ := EStateM.Result.error.inj ((run_bind_error hres).symm.trans he)
    exact hm e₁ h₁ hres

lemma atomic_get {f : Heap → HeapM α} (hf : Atomic (f h) h) : Atomic (get >>= f) h := hf

end Bind

variable {h : Heap} {id : RecordId} {o : Object}

/-! ### Steps -/

/-- The heap in which an object has turned into another one and its storage has been charged. -/
def withObject (h : Heap) (id : RecordId) (o o' : Object) : Heap :=
  { h with
    toSpace := ({ h.toSpace with arena := h.arena.setBody id (.object o') } : Space).track
      ((o'.storageBytes : Int) - o.storageBytes) }

lemma live?_withObject (h : Heap) (id : RecordId) (o o' : Object) (j : RecordId) :
    (h.withObject id o o').arena.live? j =
      if j = id then (h.arena.live? j).map ({ · with body := .object o' }) else h.arena.live? j :=
  Arena.live?_setBody h.arena id (.object o') j

@[simp] lemma isLive_withObject (h : Heap) (id : RecordId) (o o' : Object) (j : RecordId) :
    (h.withObject id o o').arena.isLive j = h.arena.isLive j := by
  rw [Arena.isLive, live?_withObject, Arena.isLive]
  split <;> simp

@[simp] lemma object_withObject {o' : Object} (ho : h.object id = .ok o) :
    (h.withObject id o o').object id = .ok o' := by
  obtain ⟨r, hr, -⟩ := object_eq_ok ho
  refine object_of_live? (r := { r with body := .object o' }) ?_ rfl
  rw [live?_withObject, if_pos rfl, hr]
  rfl

lemma usedMemory_withObject (h : Heap) (id : RecordId) (o o' : Object) :
    (h.withObject id o o').usedMemory =
      ((h.usedMemory : Int) + ((o'.storageBytes : Int) - o.storageBytes)).toNat := rfl

lemma run_editObject_ok {α : Type} {f : Object → Except Failure (α × Object)} {a : α}
    {o' : Object} (ho : h.object id = .ok o) (hf : f o = .ok (a, o')) :
    (editObject id f).run h = .ok a (h.withObject id o o') := by
  unfold editObject
  rw [run_get_bind, ho]
  dsimp only
  rw [hf]
  rfl

lemma run_editObject_error {α : Type} {f : Object → Except Failure (α × Object)} {e : Failure}
    (ho : h.object id = .ok o) (hf : f o = .error e) :
    (editObject id f).run h = .error e (h.withFault (.ofObjectFailure id e)) := by
  unfold editObject
  rw [run_get_bind, ho]
  dsimp only
  rw [hf]
  dsimp only
  rw [run_refuse, Fault.failure_ofObjectFailure]

lemma atomic_editObject {α : Type} (id : RecordId) (f : Object → Except Failure (α × Object)) :
    Atomic (editObject id f) h := by
  unfold editObject
  refine atomic_get ?_
  split
  · exact atomic_refuse _
  · exact atomic_refuse _
  · split
    · exact atomic_refuse _
    · next o' ho a p hf =>
      intro e h' he
      cases he

lemma run_reserve (id : RecordId) (n : Nat) (h : Heap) :
    (reserve id n).run h = if h.canReserve id n then .ok () h
      else .error .outOfMemory (h.withFault (.growthRefused id n)) := by
  unfold reserve
  rw [run_get_bind]
  cases h.canReserve id n <;> rfl

lemma run_requireLive_ok {v : Slot} (hv : ∀ y, v = some y → h.arena.isLive y = true) :
    (requireLive v).run h = .ok () h := by
  rcases v with _ | y
  · rfl
  · unfold requireLive
    dsimp only
    rw [run_get_bind, hv y rfl]
    rfl

lemma run_requireLive_dead {y : RecordId} (hy : h.arena.isLive y = false) :
    (requireLive (some y)).run h = .error .referenceError (h.withFault (.deadValue y)) := by
  unfold requireLive
  dsimp only
  rw [run_get_bind, hy]
  rfl

lemma checks_reserve (id : RecordId) (n : Nat) : Checks (reserve id n) h := by
  have hrun := run_reserve id n h
  split at hrun
  · exact .inl hrun
  · exact .inr ⟨.growthRefused id n, hrun⟩

lemma checks_requireLive (v : Slot) : Checks (requireLive v) h := by
  by_cases hv : ∀ y, v = some y → h.arena.isLive y = true
  · exact .inl (run_requireLive_ok hv)
  · push Not at hv
    obtain ⟨y, rfl, hy⟩ := hv
    exact .inr ⟨.deadValue y, run_requireLive_dead (by simpa using hy)⟩

lemma slotArgument_of_lt {slot : Nat} (h : slot < 2 ^ 31) : slotArgument slot = slot :=
  Int32.toInt_ofNat_of_lt h

/-! ### Room -/

lemma canReserve_iff {n : Nat} (ho : h.object id = .ok o) : h.canReserve id n = true ↔
    (o.dynamic = false ∧ h.options.compilerMode = false) ∨
      ∃ extra, o.growthBytes? n = some extra ∧ h.usedMemory + extra < wordLimit ∧
        h.usedMemory + extra ≤ h.options.maxMemory := by
  have hword (extra : Nat) : (word? (h.usedMemory + extra)).any (· ≤ h.options.maxMemory) = true ↔
      h.usedMemory + extra < wordLimit ∧ h.usedMemory + extra ≤ h.options.maxMemory := by
    unfold word?
    split <;> simp [*]
  simp only [canReserve, ho, Bool.or_eq_true, Bool.and_eq_true, Bool.not_eq_true']
  refine or_congr_right ?_
  rcases o.growthBytes? n with _ | extra
  · simp
  · simp only [Option.bind_some, hword, Option.some.injEq, exists_eq_left']

/-- What the heap has in use is within its limit. -/
structure Roomy (h : Heap) : Prop where
  word : h.usedMemory < wordLimit
  limit : h.usedMemory ≤ h.options.maxMemory

/-- Where there is room already, none has to be reserved. -/
lemma Roomy.canReserve (hr : h.Roomy) {n : Nat} (ho : h.object id = .ok o) (hn : n ≤ o.capacity) :
    h.canReserve id n = true :=
  (canReserve_iff ho).2 (.inr ⟨0, by simp [Object.growthBytes?, Capacity.growthBytes?, hn],
    hr.word, hr.limit⟩)

lemma Roomy.withObject (hr : h.Roomy) {o' : Object} (hs : o'.storageBytes = o.storageBytes) :
    (h.withObject id o o').Roomy := by
  have hused : (h.withObject id o o').usedMemory = h.usedMemory := by
    rw [usedMemory_withObject, hs]
    omega
  exact ⟨hused ▸ hr.word, hused ▸ hr.limit⟩

lemma storeCount_append (ho : h.object id = .ok o) : h.storeCount id (-1) = o.count + 1 := by
  rw [storeCount_eq ho, Object.needed, if_pos (by decide)]

lemma storeCount_natCast (ho : h.object id = .ok o) (slot : Nat) :
    h.storeCount id slot = slot + 1 := by
  rw [storeCount_eq ho, Object.needed, if_neg (by omega), Int.toNat_natCast]

/-- Where there is room the check passes. -/
lemma run_reserve_slot {slot : Nat} (ho : h.object id = .ok o)
    (hc : h.canReserve id (slot + 1) = true) :
    (reserve id (h.storeCount id slot)).run h = .ok () h := by
  rw [run_reserve, storeCount_natCast ho, if_pos hc]

/-- The heap in which a value has been written to a slot and noted. -/
def withValue (h : Heap) (id : RecordId) (o : Object) (slot : Nat) (v : Slot) : Heap :=
  let w := h.withObject id o (o.write slot v)
  { w with toSpace := w.toSpace.recordReference id v }

lemma object_withValue (ho : h.object id = .ok o) (slot : Nat) (v : Slot) :
    (h.withValue id o slot v).object id = .ok (o.write slot v) := by
  have hw : (h.withObject id o (o.write slot v)).object id = .ok (o.write slot v) :=
    object_withObject ho
  obtain ⟨r, hr, hb⟩ := object_eq_ok hw
  rcases v with _ | y
  · exact object_of_live? (h := h.withValue id o slot none) hr hb
  · have hnotes :=
      Space.notes_recordReference (h.withObject id o (o.write slot (some y))).toSpace id y
    obtain ⟨q, hq, e⟩ := hnotes.relinked.alike.live hr
    exact object_of_live? (h := h.withValue id o slot (some y)) hq
      ((Record.body_of_core e).trans hb)

/-- Heaps that differ in the last fault only have the same root tables and the same objects. -/
lemma same_but_fault {h' : Heap} (hsame : { h' with fault := h.fault } = h) :
    (∀ g, h'.toSpace.bucket g = h.toSpace.bucket g) ∧ ∀ id, h'.object id = h.object id := by
  have hroots (g : Gen) := congrArg (fun k : Heap => k.toSpace.bucket g) hsame
  have hobject (id : RecordId) := congrArg (fun k : Heap => k.object id) hsame
  exact ⟨hroots, hobject⟩

variable [Environment]

/-- Growth takes what was reserved for it. -/
lemma roomy_grow {n : Nat} {p : Object} (ho : h.object id = .ok o)
    (hshape : o.dynamic = true ∨ h.options.compilerMode = true)
    (hc : h.canReserve id n = true) (hg : o.grow n = .ok p) : (h.withObject id o p).Roomy := by
  obtain ⟨extra, hextra, hp⟩ := Object.storageBytes_grow hg
  rcases (canReserve_iff ho).1 hc with ⟨hdyn, hmode⟩ | ⟨extra', hextra', hword, hlimit⟩
  · simp [hdyn, hmode] at hshape
  · obtain rfl := Option.some.inj (hextra.symm.trans hextra')
    have hused : (h.withObject id o p).usedMemory = h.usedMemory + extra := by
      rw [usedMemory_withObject, hp]
      omega
    exact ⟨hused ▸ hword, hused ▸ hlimit⟩

/-! ### Stores to a slot in use -/

/-- Every check comes before the store, and the barrier cannot fail. -/
lemma atomic_setProperty (id : RecordId) (slot : Int) (v : Slot) :
    Atomic (setProperty id slot v) h := by
  unfold setProperty
  refine (checks_requireLive v).andThen (atomic_get ((checks_reserve id _).andThen ?_))
  exact (atomic_editObject id _).andThen fun _ _ => ⟨_, _, rfl⟩

lemma run_setProperty_dead {y : RecordId} (hy : h.arena.isLive y = false) (id : RecordId)
    (slot : Int) : (setProperty id slot (some y)).run h =
      .error .referenceError (h.withFault (.deadValue y)) := by
  unfold setProperty
  exact run_bind_error (run_requireLive_dead hy)

lemma run_setProperty_ok {slot : Nat} {v : Slot} (ho : h.object id = .ok o) (hs : slot < o.count)
    (hv : ∀ y, v = some y → h.arena.isLive y = true) (hc : h.canReserve id (slot + 1) = true) :
    (setProperty id slot v).run h = .ok slot (h.withValue id o slot v) := by
  unfold setProperty
  rw [run_bind_ok (run_requireLive_ok hv), run_get_bind, run_bind_ok (run_reserve_slot ho hc),
    run_bind_ok (run_editObject_ok ho (Object.setValue_of_lt hs v h.options.compilerMode))]
  rfl

/-- A store to a slot in use is refused only for the value or for memory. -/
lemma setProperty_cases {slot : Nat} (ho : h.object id = .ok o) (hs : slot < o.count) {v : Slot}
    (hv : ∀ y, v = some y → h.arena.isLive y = true) :
    (setProperty id slot v).run h = .error .outOfMemory
        (h.withFault (.growthRefused id (slot + 1))) ∨
      (setProperty id slot v).run h = .ok slot (h.withValue id o slot v) := by
  by_cases hc : h.canReserve id (slot + 1) = true
  · exact .inr (run_setProperty_ok ho hs hv hc)
  · left
    have hreserve := run_reserve id (slot + 1) h
    rw [if_neg hc] at hreserve
    unfold setProperty
    rw [run_bind_ok (run_requireLive_ok hv), run_get_bind, storeCount_natCast ho]
    exact run_bind_error hreserve

lemma run_setPropertyName_ok {slot : Nat} (ho : h.object id = .ok o)
    (hc : h.canReserve id (slot + 1) = true) {q : QName} {p : Object}
    (hp : o.setName slot q h.options.compilerMode = .ok (slot, p)) :
    (setPropertyName id slot q).run h = .ok slot (h.withObject id o p) := by
  unfold setPropertyName
  rw [run_get_bind, run_bind_ok (run_reserve_slot ho hc), run_editObject_ok ho hp]

lemma atomic_setPropertyName (id : RecordId) (slot : Int) (q : QName) :
    Atomic (setPropertyName id slot q) h := by
  unfold setPropertyName
  exact atomic_get ((checks_reserve id _).andThen (atomic_editObject id _))

/-- Naming a slot edits the object and takes no slot away. -/
lemma eq_withObject_of_setPropertyName {slot : Int} {q : QName} {n : Nat} {h' : Heap}
    (ho : h.object id = .ok o) (hrun : (setPropertyName id slot q).run h = .ok n h') :
    ∃ p, h' = h.withObject id o p ∧ o.count ≤ p.count := by
  unfold setPropertyName at hrun
  rw [run_get_bind] at hrun
  rcases checks_reserve (h := h) id (h.storeCount id slot) with hok | ⟨f, herr⟩
  · rw [run_bind_ok hok] at hrun
    rcases hs : o.setName slot q h.options.compilerMode with e | ⟨k, p⟩
    · cases (run_editObject_error ho hs).symm.trans hrun
    · obtain ⟨-, rfl⟩ := EStateM.Result.ok.inj ((run_editObject_ok ho hs).symm.trans hrun)
      exact ⟨p, rfl, Object.le_count_of_setName hs⟩
  · cases (run_bind_error herr).symm.trans hrun

/-! ### Stores under a name -/

/-- What a slot appended under a name makes of an object: `p` has the slot and `p'` the name. -/
structure Appended (h : Heap) (id : RecordId) (q : QName) (o p p' : Object) : Prop where
  grown : o.grow (o.count + 1) = .ok p
  check : o.checkSlot (-1) h.options.compilerMode = .ok (o.count, p)
  name : p.setName o.count q h.options.compilerMode = .ok (o.count, p')
  slots : p'.slots = p.slots
  count : p'.count = o.count + 1
  named : p'.names.nameAt? o.count = some q
  dynamic : p'.dynamic = o.dynamic
  room : ((h.withObject id o p).withObject id p p').Roomy

lemma Appended.capacity {q : QName} {p p' : Object} (ha : h.Appended id q o p p') :
    o.count + 1 ≤ p'.capacity := by
  rw [Object.capacity, ha.slots]
  exact (Object.capacity_grow ha.grown).2

/-- The new slot has the name and reads null. -/
lemma Appended.tells {q : QName} {p p' : Object} (ha : h.Appended id q o p p') (hs : o.Sound) :
    p'.nameAt o.count = .ok q ∧ p'.get o.count = .ok none := by
  have hlast : o.count < p'.count := by
    rw [ha.count]
    exact Nat.lt_succ_self _
  have hslot : p'.slotAt o.count = o.slotAt o.count := by
    rw [Object.slotAt, ha.slots]
    exact Object.slotAt_grow ha.grown o.count
  constructor
  · rw [Object.nameAt, if_pos hlast, ha.named]
  · rw [Object.get_of_lt hlast (ha.count ▸ ha.capacity), hslot, hs.blank o.count le_rfl]

lemma Appended.usedMemory {q : QName} {p p' : Object} (ha : h.Appended id q o p p') :
    ((h.withObject id o p).withObject id p p').usedMemory =
      h.usedMemory + (p'.storageBytes - o.storageBytes) := by
  have hnamed : p'.storageBytes = p.storageBytes :=
    Object.storageBytes_congr (congrArg Array.size ha.slots)
  obtain ⟨extra, -, hextra⟩ := Object.storageBytes_grow ha.grown
  rw [usedMemory_withObject, usedMemory_withObject]
  omega

/-- An append that is refused changes nothing. One that is accepted leaves room for a store to the
new slot. -/
theorem appendNamed_cases (ho : h.object id = .ok o) (hcount : o.count < 2 ^ 31) (q : QName) :
    (∃ f, (appendNamed id q).run h = .error f.failure (h.withFault f) ∧
      (f.failure = .outOfMemory ∨ (o.dynamic = false ∧ h.options.compilerMode = false))) ∨
    ∃ p p', h.Appended id q o p p' ∧
      (appendNamed id q).run h = .ok o.count ((h.withObject id o p).withObject id p p') := by
  have hreserve := run_reserve id (o.count + 1) h
  unfold appendNamed
  rw [run_get_bind, storeCount_append ho]
  split at hreserve
  swap
  · exact .inl ⟨.growthRefused id (o.count + 1), run_bind_error hreserve, .inl rfl⟩
  next hc =>
  rw [run_bind_ok hreserve]
  rcases Object.checkSlot_append o h.options.compilerMode with ⟨hdyn, hmode, hcheck⟩ |
    ⟨hshape, hcheck⟩
  · exact .inl ⟨.fixedShape id, run_bind_error (run_editObject_error ho hcheck),
      .inr ⟨hdyn, hmode⟩⟩
  rcases hg : o.grow (o.count + 1) with e | p <;> rw [hg] at hcheck
  · -- an array of that size cannot exist
    obtain rfl := Object.grow_error hg
    exact .inl ⟨.onObject .outOfMemory id, run_bind_error (run_editObject_error ho hcheck),
      .inl rfl⟩
  have hcheck : o.checkSlot (-1) h.options.compilerMode = .ok (o.count, p) := hcheck
  have hpcount : p.count = o.count + 1 := by
    rw [Object.count_grow hg]
    omega
  have hp : (h.withObject id o p).object id = .ok p := object_withObject ho
  have hroomy : (h.withObject id o p).Roomy := roomy_grow ho hshape hc hg
  have hnext : (h.withObject id o p).canReserve id (o.count + 1) = true :=
    hroomy.canReserve hp (Object.capacity_grow hg).2
  have hlast : o.count < p.count := by omega
  obtain ⟨p', hname, hslots, hp'count, hp'dyn, hnamed⟩ :=
    Object.setName_of_lt hlast q h.options.compilerMode
  refine .inr ⟨p, p', ⟨hg, hcheck, hname, hslots, hp'count.trans hpcount, hnamed,
    hp'dyn.trans (Object.dynamic_grow hg), hroomy.withObject ?_⟩, ?_⟩
  · exact Object.storageBytes_congr (congrArg Array.size hslots)
  · rw [run_bind_ok (run_editObject_ok ho hcheck), slotArgument_of_lt hcount,
      run_bind_ok (run_setPropertyName_ok hp hnext hname)]
    rfl

lemma run_setPropertyByName_found {q : QName} {slot : Nat} (ho : h.object id = .ok o)
    (hq : o.lookup? q = some slot) (v : Slot) : (setPropertyByName id q v).run h =
      (setProperty id (slotArgument slot) v).run h := by
  unfold setPropertyByName
  rw [run_get_bind, ho]
  dsimp only
  rw [hq]

lemma run_setPropertyByName_absent {q : QName} (ho : h.object id = .ok o)
    (hq : o.lookup? q = none) (v : Slot) : (setPropertyByName id q v).run h =
      (appendNamed id q >>= fun slot => setProperty id (slotArgument slot) v).run h := by
  unfold setPropertyByName
  rw [run_get_bind, ho]
  dsimp only
  rw [hq]

/-- Once the slot has been appended, the store succeeds unless the value is not live. -/
theorem setPropertyByName_appended {q : QName} {p p' : Object} (ho : h.object id = .ok o)
    (hcount : o.count < 2 ^ 31) (hq : o.lookup? q = none) (ha : h.Appended id q o p p')
    (hrun : (appendNamed id q).run h =
      .ok o.count ((h.withObject id o p).withObject id p p')) (v : Slot) :
    let h₁ := (h.withObject id o p).withObject id p p'
    ((∀ y, v = some y → h.arena.isLive y = true) →
      (setPropertyByName id q v).run h = .ok o.count (h₁.withValue id p' o.count v)) ∧
    ∀ y, v = some y → h.arena.isLive y = false →
      (setPropertyByName id q v).run h = .error .referenceError (h₁.withFault (.deadValue y)) := by
  intro h₁
  have ho₁ : h₁.object id = .ok p' := object_withObject (object_withObject ho)
  rw [run_setPropertyByName_absent ho hq, run_bind_ok hrun, slotArgument_of_lt hcount]
  refine ⟨fun hv => ?_, fun y hy hdead => ?_⟩
  · refine run_setProperty_ok ho₁ (by rw [ha.count]; omega) (fun y hy => ?_)
      (ha.room.canReserve ho₁ ha.capacity)
    simpa [h₁] using hv y hy
  · subst hy
    exact run_setProperty_dead (by simpa [h₁] using hdead) id o.count

/-! ### What a failure leaves behind -/

/-- The name is not there and the object may take a slot for it. With the slot it is `p`. -/
structure TakesSlot (h : Heap) (id : RecordId) (q : QName) (o p : Object) : Prop where
  object : h.object id = .ok o
  absent : o.lookup? q = none
  room : h.canReserve id (o.count + 1) = true
  check : o.checkSlot (-1) h.options.compilerMode = .ok (o.count, p)

/-- The slot is appended first. -/
lemma TakesSlot.run {q : QName} {p : Object} (ht : h.TakesSlot id q o p) (v : Slot) :
    (setPropertyByName id q v).run h =
      (setPropertyName id (slotArgument o.count) q >>= fun _ =>
        setProperty id (slotArgument o.count) v).run (h.withObject id o p) := by
  have hreserve : (reserve id (o.count + 1)).run h = .ok () h := by
    rw [run_reserve, if_pos ht.room]
  rw [run_setPropertyByName_absent ht.object ht.absent]
  unfold appendNamed
  simp only [bind_assoc, pure_bind]
  rw [run_get_bind, storeCount_append ht.object, run_bind_ok hreserve,
    run_bind_ok (run_editObject_ok ht.object ht.check)]

/-- Whatever fails later does not take the slot back, and the root tables are not concerned. -/
lemma TakesSlot.stays {q : QName} {p : Object} {v : Slot} {e : Failure} {h' : Heap}
    (ht : h.TakesSlot id q o p) (he : (setPropertyByName id q v).run h = .error e h') :
    (∀ g, h'.toSpace.bucket g = h.toSpace.bucket g) ∧
      ∃ p', h'.object id = .ok p' ∧ o.count < p'.count := by
  have hp : (h.withObject id o p).object id = .ok p := object_withObject ht.object
  have hlast : o.count < p.count := (Object.becomes_checkSlot ht.check).2
  rw [ht.run] at he
  rcases hname : (setPropertyName id (slotArgument o.count) q).run (h.withObject id o p) with
    ⟨n, h₂⟩ | ⟨e₂, h₂⟩
  · obtain ⟨p₂, rfl, hle⟩ := eq_withObject_of_setPropertyName hp hname
    rw [run_bind_ok hname] at he
    obtain ⟨hroots, hobject⟩ := same_but_fault (atomic_setProperty id _ v e h' he)
    exact ⟨fun g => (hroots g).trans rfl, p₂, (hobject id).trans (object_withObject hp),
      Nat.lt_of_lt_of_le hlast hle⟩
  · rw [run_bind_error hname] at he
    obtain ⟨-, rfl⟩ := EStateM.Result.error.inj he
    obtain ⟨hroots, hobject⟩ := same_but_fault (atomic_setPropertyName id _ q e₂ h₂ hname)
    exact ⟨fun g => (hroots g).trans rfl, p, (hobject id).trans hp, hlast⟩

/-- While 31 bits can number the slots, only a value that is not live comes too late. -/
lemma TakesSlot.dead {q : QName} {p : Object} {v : Slot} {e : Failure} {h' : Heap}
    (ht : h.TakesSlot id q o p) (hcount : o.count < 2 ^ 31)
    (he : (setPropertyByName id q v).run h = .error e h') :
    ∃ p₁ p' y, h.Appended id q o p₁ p' ∧ v = some y ∧ h.arena.isLive y = false ∧
      (appendNamed id q).run h = .ok o.count ((h.withObject id o p₁).withObject id p₁ p') ∧
      e = .referenceError ∧
      h' = ((h.withObject id o p₁).withObject id p₁ p').withFault (.deadValue y) := by
  rcases appendNamed_cases ht.object hcount q with ⟨f, hf, -⟩ | ⟨p₁, p', ha, happ⟩
  · -- an append that is refused would leave the object without the slot
    rw [run_setPropertyByName_absent ht.object ht.absent, run_bind_error hf] at he
    obtain ⟨-, rfl⟩ := EStateM.Result.error.inj he
    obtain ⟨-, p', hp', hmore⟩ := ht.stays (v := v)
      ((run_setPropertyByName_absent ht.object ht.absent v).trans (run_bind_error hf))
    obtain rfl := Except.ok.inj (ht.object.symm.trans hp')
    exact absurd hmore (Nat.lt_irrefl _)
  · obtain ⟨hlive, hdead⟩ := setPropertyByName_appended ht.object hcount ht.absent ha happ v
    by_cases hv : ∀ y, v = some y → h.arena.isLive y = true
    · rw [hlive hv] at he
      cases he
    · push Not at hv
      obtain ⟨y, rfl, hy⟩ := hv
      have hy : h.arena.isLive y = false := by simpa using hy
      obtain ⟨rfl, rfl⟩ := EStateM.Result.error.inj ((hdead y rfl hy).symm.trans he)
      exact ⟨p₁, p', y, ha, rfl, hy, happ, rfl, rfl⟩

/-- Any other failure comes before the first change. -/
lemma atomic_setPropertyByName {q : QName} (v : Slot)
    (hnot : ¬ ∃ o p, h.TakesSlot id q o p) : Atomic (setPropertyByName id q v) h := by
  intro e h' he
  rcases ho : h.object id with e₁ | o
  · -- nothing to store into
    have hrun : (setPropertyByName id q v).run h = .error e₁ h := by
      unfold setPropertyByName
      rw [run_get_bind, ho]
      rfl
    obtain ⟨-, rfl⟩ := EStateM.Result.error.inj (hrun.symm.trans he)
    rfl
  rcases hq : o.lookup? q with _ | slot
  · have hrefused : ∃ f, (appendNamed id q).run h = .error f.failure (h.withFault f) := by
      have hreserve := run_reserve id (o.count + 1) h
      unfold appendNamed
      rw [run_get_bind, storeCount_append ho]
      split at hreserve
      · next hc =>
        rw [run_bind_ok hreserve]
        rcases hcheck : o.checkSlot (-1) h.options.compilerMode with e₁ | ⟨n, p⟩
        · refine ⟨.ofObjectFailure id e₁, ?_⟩
          rw [Fault.failure_ofObjectFailure]
          exact run_bind_error (run_editObject_error ho hcheck)
        · obtain rfl := Object.eq_count_of_checkSlot hcheck
          exact absurd ⟨o, p, ho, hq, hc, hcheck⟩ hnot
      · exact ⟨.growthRefused id (o.count + 1), run_bind_error hreserve⟩
    obtain ⟨f, hf⟩ := hrefused
    rw [run_setPropertyByName_absent ho hq, run_bind_error hf] at he
    obtain ⟨-, rfl⟩ := EStateM.Result.error.inj he
    rfl
  · rw [run_setPropertyByName_found ho hq] at he
    exact atomic_setProperty id _ v e h' he

lemma apply_setPropertyByName (id : RecordId) (q : QName) (v : Slot) (h : Heap) :
    apply (.setPropertyByName id q v) h = match (setPropertyByName id q v).run h with
      | .ok slot h' => (.ok (.slot slot), h')
      | .error e h' => (.error e, h') := by
  unfold apply perform
  rw [EStateM.run_map]
  rcases (setPropertyByName id q v).run h with ⟨slot, h'⟩ | ⟨e, h'⟩ <;> rfl

lemma run_of_apply_error {id : RecordId} {q : QName} {v : Slot} {e : Failure} {h' : Heap}
    (ha : apply (.setPropertyByName id q v) h = (.error e, h')) :
    (setPropertyByName id q v).run h = .error e h' := by
  rw [apply_setPropertyByName] at ha
  revert ha
  rcases (setPropertyByName id q v).run h with ⟨slot, h''⟩ | ⟨e', h''⟩ <;> rintro ⟨⟩
  rfl

/-- **What a failed store by name leaves behind.** The root tables are as before. So is the rest of
the heap, apart from the last fault, unless the name was new and a slot was accepted for it: then
the object keeps a slot that it did not have. While 31 bits can number the slots this happens only
if the value turns out not to be live. What stays is then what naming the slot has made of the heap:
one null slot with the name, and the bytes it took. -/
theorem failed_store_by_name (o : HeapOptions) (ops : List Operation) (id : RecordId) (q : QName)
    (v : Slot) {e : Failure} {h' : Heap}
    (hfail : apply (.setPropertyByName id q v) (run (fresh o) ops) = (.error e, h')) :
    let h := run (fresh o) ops
    (∀ g, h'.toSpace.bucket g = h.toSpace.bucket g) ∧
    ({ h' with fault := h.fault } = h ↔ ¬ ∃ p p₁, h.TakesSlot id q p p₁) ∧
    ∀ p p₁, h.TakesSlot id q p p₁ → ∃ p', h'.object id = .ok p' ∧ p.count < p'.count ∧
      (p.count < 2 ^ 31 → e = .referenceError ∧ (∃ y, v = some y ∧ h.arena.isLive y = false) ∧
        (∃ h₁, (appendNamed id q).run h = .ok p.count h₁ ∧ { h' with fault := h₁.fault } = h₁) ∧
        p'.count = p.count + 1 ∧ p'.nameAt p.count = .ok q ∧ p'.get p.count = .ok none ∧
        h'.usedMemory = h.usedMemory + (p'.storageBytes - p.storageBytes)) := by
  intro h
  have hrun : (setPropertyByName id q v).run h = .error e h' := run_of_apply_error hfail
  refine ⟨?_, ⟨?_, fun hnot => atomic_setPropertyByName v hnot e h' hrun⟩, ?_⟩
  · by_cases htaken : ∃ p p₁, h.TakesSlot id q p p₁
    · obtain ⟨p, p₁, ht⟩ := htaken
      exact (ht.stays hrun).1
    · exact (same_but_fault (atomic_setPropertyByName v htaken e h' hrun)).1
  · rintro hsame ⟨p, p₁, ht⟩
    obtain ⟨-, p', hp', hmore⟩ := ht.stays hrun
    have hobject : h.object id = .ok p' := ((same_but_fault hsame).2 id).symm.trans hp'
    obtain rfl := Except.ok.inj (ht.object.symm.trans hobject)
    exact Nat.lt_irrefl _ hmore
  · intro p p₁ ht
    by_cases hcount : p.count < 2 ^ 31
    · obtain ⟨p₂, p', y, ha, hy, hdead, happ, rfl, rfl⟩ := ht.dead hcount hrun
      have hs : p.Sound := by
        obtain ⟨r, hr, hb⟩ := object_eq_ok ht.object
        exact (sound_run ops (steady_fresh o).1.toSound).1.objects id r p hr hb
      obtain ⟨hname, hvalue⟩ := ha.tells hs
      have hobject : ((h.withObject id p p₂).withObject id p₂ p').object id = .ok p' :=
        object_withObject (object_withObject ht.object)
      refine ⟨p', hobject, ?_, fun _ => ⟨rfl, ⟨y, hy, hdead⟩, ⟨_, happ, rfl⟩, ha.count, hname,
        hvalue, ha.usedMemory⟩⟩
      rw [ha.count]
      exact Nat.lt_succ_self _
    · obtain ⟨-, p', hp', hmore⟩ := ht.stays hrun
      exact ⟨p', hp', hmore, fun hlt => absurd hlt hcount⟩

end Heap

namespace Heap

/-- No record is at the place, and the object keeps a slot for it. -/
theorem failed_store_keeps_slot :
    let h := run (fresh (.tuned .balanced)) [.createPlainObject]
    let h' := (apply (.setPropertyByName 1 (.ofLocal "x") (some 7)) h).2
    { h' with fault := h.fault } ≠ h ∧ ∃ p, h'.object 1 = .ok p ∧ p.count = 1 := by
  have hrefused : (apply (.setPropertyByName 1 (.ofLocal "x") (some 7))
      (run (fresh (.tuned .balanced)) [.createPlainObject])).1 = .error .referenceError := by cbv
  have hroom : (run (fresh (.tuned .balanced)) [.createPlainObject]).canReserve 1 1 = true := by cbv
  have hmode : (run (fresh (.tuned .balanced)) [.createPlainObject]).options.compilerMode = false :=
    by cbv
  have hobject : ((run (fresh (.tuned .balanced)) [.createPlainObject]).object 1).map
      (fun p => (p.count, p.lookup? (.ofLocal "x"), (p.checkSlot (-1) false).map (·.1))) =
        .ok (0, none, .ok 0) := by cbv
  have hfailed := @failed_store_by_name _ (.tuned .balanced) [.createPlainObject] 1 (.ofLocal "x")
    (some 7) .referenceError (apply (.setPropertyByName 1 (.ofLocal "x") (some 7))
      (run (fresh (.tuned .balanced)) [.createPlainObject])).2 (Prod.ext hrefused rfl)
  generalize run (fresh (.tuned .balanced)) [.createPlainObject] = h at *
  intro h₀ h'
  obtain ⟨p, hp, htold⟩ := eq_ok_of_map hobject
  obtain ⟨hcount, htold⟩ := Prod.mk.inj htold
  obtain ⟨habsent, hcheck⟩ := Prod.mk.inj htold
  obtain ⟨⟨n, p₁⟩, hcheck, -⟩ := eq_ok_of_map hcheck
  obtain rfl := Object.eq_count_of_checkSlot hcheck
  have htaken : h.TakesSlot 1 (.ofLocal "x") p p₁ := ⟨hp, habsent, by rwa [hcount],
    by rwa [hmode]⟩
  obtain ⟨-, hiff, htrace⟩ := hfailed
  obtain ⟨p', hp', -, hmore⟩ := htrace p p₁ htaken
  obtain ⟨-, -, -, hone, -⟩ := hmore (by rw [hcount]; decide)
  exact ⟨fun hsame => hiff.1 hsame ⟨p, p₁, htaken⟩, p', hp', by rw [hone, hcount]⟩

end Heap

end ScriptHeap
