import Mathlib
import ScriptHeap.Environment
import ScriptHeap.Object.Edit
import ScriptHeap.Proofs.NameTable
import ScriptHeap.Proofs.Object
import ScriptHeap.Record.TypeRegistry

/-!
An object as a list of entries, each with a name and a value. Names and values are kept in two
arrays of different lengths, both longer than the count of slots in use, and every edit moves them
separately. To the host the object is still a plain list: each edit that is accepted is one edit of
the list, and what lies beyond the count is blank whenever the object grows over it.
-/

namespace ScriptHeap

/-- The name that the host sees. A name without a local part is none. -/
def QName.label? (q : QName) : Option QName := if q.isUnnamed then none else some q

lemma QName.label?_eq_some {q r : QName} : q.label? = some r ↔ q = r ∧ r.isUnnamed = false := by
  unfold label?
  split
  · next h =>
    refine iff_of_false nofun ?_
    rintro ⟨rfl, hr⟩
    simp [h] at hr
  · next h =>
    rw [Option.some.injEq]
    refine ⟨fun e => ⟨e, ?_⟩, And.left⟩
    subst e
    simpa using h

/-! ### The names of a table

Where the links lead has no bearing on the names, so these facts do not ask for a sound index. -/

namespace NameTable

/-- The name of a slot as the host sees it. -/
def label? (t : NameTable) (slot : Nat) : Option QName := (t.nameAt? slot).bind QName.label?

lemma label?_congr {t t' : NameTable} {s s' : Nat} (h : t'.nameAt? s' = t.nameAt? s) :
    t'.label? s' = t.label? s := by
  rw [label?, h, label?]

lemma label?_eq_some {t : NameTable} {s : Nat} {q : QName} :
    t.label? s = some q ↔ t.nameAt? s = some q ∧ q.isUnnamed = false := by
  simp only [label?, Option.bind_eq_some_iff, QName.label?_eq_some]
  constructor
  · rintro ⟨_, h, rfl, hq⟩
    exact ⟨h, hq⟩
  · rintro ⟨h, hq⟩
    exact ⟨q, h, rfl, hq⟩

lemma size_ensureSize (t : NameTable) (n : Nat) : (t.ensureSize n).size = max t.size n := by
  simp only [ensureSize, size, Array.size_append, Array.size_replicate]
  omega

lemma label?_ensureSize (t : NameTable) (n s : Nat) : (t.ensureSize n).label? s = t.label? s := by
  simp only [label?, nameAt?, slots_ensureSize]
  split
  · rfl
  · next h =>
    rw [Array.getElem?_eq_none (Nat.le_of_not_lt h)]
    split <;> rfl

section Links

variable [NameHash]

lemma nameAt?_link (t : NameTable) (slot s : Nat) : (t.link slot).nameAt? s = t.nameAt? s := by
  unfold link
  split
  · rfl
  · split
    · rfl
    · dsimp only
      split
      · exact nameAt?_setNext _ _ _ _
      · split
        · exact nameAt?_setNext _ _ _ _
        · rw [nameAt?_setNext, nameAt?_setNext]

lemma nameAt?_unlink (t : NameTable) (slot : Nat) (name : String) (s : Nat) :
    (t.unlink slot name).nameAt? s = t.nameAt? s := by
  unfold unlink
  split
  · rfl
  · split
    · rfl
    · split
      · rfl
      · exact nameAt?_setNext _ _ _ _

lemma size_unlink (t : NameTable) (slot : Nat) (name : String) :
    (t.unlink slot name).size = t.size := by
  unfold unlink
  split
  · rfl
  · split
    · rfl
    · split
      · rfl
      · simp [size, setNext]

lemma nameAt?_reindex (t : NameTable) (n s : Nat) : (t.reindex n).nameAt? s = t.nameAt? s := by
  unfold reindex
  split
  · rfl
  · generalize hu : NameTable.mk _ _ t.endless = u
    have h : u.nameAt? s = t.nameAt? s := by
      simp only [← hu, nameAt?, Array.getElem?_map]
      cases t.slots[s]? <;> rfl
    clear hu
    induction List.range (min n t.size) generalizing u with
    | nil => exact h
    | cons slot slots ih => exact ih _ ((nameAt?_link u slot s).trans h)

lemma nameAt?_indexSlot (t : NameTable) (slot n s : Nat) :
    (t.indexSlot slot n).nameAt? s = t.nameAt? s := by
  unfold indexSlot
  split
  · exact nameAt?_reindex t n s
  · exact nameAt?_link t slot s

lemma size_indexSlot (t : NameTable) (slot n : Nat) : (t.indexSlot slot n).size = t.size := by
  unfold indexSlot
  split
  · exact size_reindex t n
  · exact size_link t slot

lemma size_clear (t : NameTable) (slot : Nat) : (t.clear slot).size = t.size := by
  unfold clear
  split
  · rfl
  · next q _ =>
    generalize hu : (if t.isIndexed && !q.isUnnamed then t.unlink slot q.name else t) = u
    have hsize : u.size = t.size := by
      split at hu <;> subst hu
      · exact size_unlink t slot q.name
      · rfl
    simpa [size] using hsize

lemma label?_clear (t : NameTable) (slot s : Nat) :
    (t.clear slot).label? s = if s = slot then none else t.label? s := by
  unfold clear
  split
  · next hq =>
    split
    · next hs => rw [hs, label?, hq, Option.bind_none]
    · rfl
  · next q _ =>
    generalize hu : (if t.isIndexed && !q.isUnnamed then t.unlink slot q.name else t) = u
    have hname : u.nameAt? s = t.nameAt? s := by
      split at hu <;> subst hu
      · exact nameAt?_unlink t slot q.name s
      · rfl
    dsimp only
    split
    · next hs =>
      subst hs
      simp only [label?, nameAt?, Array.getElem?_setIfInBounds, if_true]
      split <;> rfl
    · next hs =>
      refine label?_congr (Eq.trans ?_ hname)
      simp [nameAt?, Ne.symm hs]

lemma size_rename (t : NameTable) (slot : Nat) (q : QName) (n : Nat) :
    (t.rename slot q n).size = max t.size n := by
  have hraw : (((t.ensureSize n).clear slot).setRaw slot q).size = max t.size n := by
    refine Eq.trans ?_ ((size_clear _ slot).trans (size_ensureSize t n))
    simp [size, setRaw]
  unfold rename
  dsimp only
  split
  · rw [size_indexSlot, hraw]
  · exact hraw

lemma nameAt?_rename (t : NameTable) (slot : Nat) (q : QName) (n s : Nat) :
    (t.rename slot q n).nameAt? s = (((t.ensureSize n).clear slot).setRaw slot q).nameAt? s := by
  unfold rename
  dsimp only
  split
  · exact nameAt?_indexSlot _ _ _ _
  · rfl

lemma nameAt?_rename_self (t : NameTable) {slot n : Nat} (hslot : slot < n) (q : QName) :
    (t.rename slot q n).nameAt? slot = some q := by
  have hsize : slot < ((t.ensureSize n).clear slot).slots.size := by
    have := (size_clear (t.ensureSize n) slot).trans (size_ensureSize t n)
    simp only [size] at this
    omega
  rw [nameAt?_rename]
  simp only [nameAt?, setRaw, Array.getElem?_modify, if_true, Array.getElem?_eq_getElem hsize]
  rfl

lemma label?_rename (t : NameTable) {slot n : Nat} (hslot : slot < n) (q : QName) (s : Nat) :
    (t.rename slot q n).label? s = if s = slot then q.label? else t.label? s := by
  split
  · next hs =>
    rw [hs, label?, nameAt?_rename_self t hslot, Option.bind_some]
  · next hs =>
    have hraw : (t.rename slot q n).nameAt? s = ((t.ensureSize n).clear slot).nameAt? s := by
      rw [nameAt?_rename]
      simp only [nameAt?, slots_setRaw_ne _ q hs]
    rw [label?_congr hraw, label?_clear, if_neg hs, label?_ensureSize]

end Links

lemma size_insertEntries {t : NameTable} {offset : Nat} (h : offset ≤ t.size) (count : Nat) :
    (t.insertEntries offset count).size = t.size + count := by
  simp only [insertEntries, size, Array.size_append, Array.size_extract, Array.size_replicate] at *
  omega

lemma label?_insertEntries {t : NameTable} {offset : Nat} (h : offset ≤ t.size) (count s : Nat) :
    (t.insertEntries offset count).label? s =
      if s < offset then t.label? s
      else if s < offset + count then none
      else t.label? (s - count) := by
  simp only [size] at h
  simp only [label?, nameAt?, insertEntries, Array.getElem?_append, Array.getElem?_extract,
    Array.getElem?_replicate, Array.size_append, Array.size_extract, Array.size_replicate,
    Nat.sub_zero, Nat.zero_add]
  rcases Nat.lt_or_ge s offset with h1 | h1
  · rw [if_pos (by omega), if_pos (by omega), if_pos (by omega), if_pos h1]
  · rw [if_neg (Nat.not_lt.2 h1)]
    rcases Nat.lt_or_ge s (offset + count) with h2 | h2
    · rw [if_pos (by omega), if_neg (by omega), if_pos (by omega), if_pos h2]
      rfl
    · rw [if_neg (by omega), if_neg (Nat.not_lt.2 h2)]
      split
      · congr 4
        omega
      · rw [Array.getElem?_eq_none (by omega)]

lemma size_removeEntry {t : NameTable} {slot : Nat} (h : slot < t.size) :
    (t.removeEntry slot).size = t.size - 1 := by
  simp only [size] at h
  simp [removeEntry, size, Array.eraseIdxIfInBounds, h]

lemma label?_removeEntry (t : NameTable) (slot s : Nat) :
    (t.removeEntry slot).label? s = if s < slot then t.label? s else t.label? (s + 1) := by
  simp only [label?, nameAt?, removeEntry, Array.eraseIdxIfInBounds]
  split
  · rw [Array.getElem?_eraseIdx]
    split <;> rfl
  · next h =>
    split
    · rfl
    · rw [Array.getElem?_eq_none (by omega), Array.getElem?_eq_none (by omega)]

end NameTable

/-! ### Lists of entries -/

structure Entry where
  name : Option QName
  value : Slot
deriving DecidableEq, Repr

/-- An entry without a name and with a null value. -/
def Entry.blank : Entry := ⟨none, none⟩

/-- The entries of an object, from the first slot on. -/
abbrev Listing := List Entry

namespace Listing

/-- The entry of a slot, blank where the list has none. -/
def entryAt (l : Listing) (i : Nat) : Entry := l.getD i .blank

/-- Blank entries fill the list up to `n`. -/
def padTo (l : Listing) (n : Nat) : Listing := l ++ List.replicate (n - l.length) .blank

/-- The slot that a store goes to. A negative one appends. -/
def target (l : Listing) (slot : Int) : Nat := if slot < 0 then l.length else slot.toNat

/-- The list with the slot that a store goes to. -/
def reach (l : Listing) (slot : Int) : Listing := l.padTo (l.target slot + 1)

/-- What an edit does to the list, if it is accepted. -/
def edit (l : Listing) : Object.Edit → Listing
  | .checkSlot slot _ => l.reach slot
  | .setValue slot v _ => (l.reach slot).modify (l.target slot) ({ · with value := v })
  | .setName slot q _ => (l.reach slot).modify (l.target slot) ({ · with name := q.label? })
  | .delete slot _ => if slot + 1 = l.length then l.dropLast else l.set slot .blank
  | .grow n => l.padTo n
  | .insert n offset => l.take offset ++ List.replicate n .blank ++ l.drop offset
  | .remove slot true _ => l.eraseIdx slot
  | .remove slot false _ => l.set slot .blank
  | .setDynamic _ => l

lemma entryAt_of_le {l : Listing} {i : Nat} (h : l.length ≤ i) : l.entryAt i = .blank := by
  rw [entryAt, List.getD_eq_getElem?_getD, List.getElem?_eq_none h, Option.getD_none]

lemma entryAt_of_getElem? {l : Listing} {i : Nat} {e : Entry} (h : l[i]? = some e) :
    l.entryAt i = e := by
  rw [entryAt, List.getD_eq_getElem?_getD, h, Option.getD_some]

@[simp] lemma length_padTo (l : Listing) (n : Nat) : (l.padTo n).length = max l.length n := by
  simp only [padTo, List.length_append, List.length_replicate]
  omega

@[simp] lemma entryAt_padTo (l : Listing) (n i : Nat) : (l.padTo n).entryAt i = l.entryAt i := by
  simp only [entryAt, padTo, List.getD_eq_getElem?_getD, List.getElem?_append,
    List.getElem?_replicate]
  split
  · rfl
  · next h =>
    rw [List.getElem?_eq_none (Nat.le_of_not_lt h)]
    split <;> rfl

lemma entryAt_modify {l : Listing} {n : Nat} (h : n < l.length) (f : Entry → Entry) (i : Nat) :
    entryAt (l.modify n f) i = if i = n then f (l.entryAt n) else l.entryAt i := by
  simp only [entryAt, List.getD_eq_getElem?_getD, List.getElem?_modify]
  by_cases hi : i = n
  · subst hi
    simp [List.getElem?_eq_getElem h]
  · simp [hi, Ne.symm hi]

lemma entryAt_set {l : Listing} {n : Nat} (h : n < l.length) (e : Entry) (i : Nat) :
    entryAt (l.set n e) i = if i = n then e else l.entryAt i := by
  simp only [entryAt, List.getD_eq_getElem?_getD, List.getElem?_set]
  by_cases hi : i = n
  · subst hi
    simp [h]
  · simp [hi, Ne.symm hi]

lemma entryAt_dropLast {l : Listing} {n : Nat} (h : n + 1 = l.length) (i : Nat) :
    entryAt l.dropLast i = if i = n then .blank else l.entryAt i := by
  simp only [entryAt, List.getD_eq_getElem?_getD, List.getElem?_dropLast]
  split
  · rw [if_neg (by omega)]
  · split
    · rfl
    · rw [List.getElem?_eq_none (by omega)]

lemma entryAt_open {l : Listing} {offset : Nat} (h : offset ≤ l.length) (n i : Nat) :
    entryAt (l.take offset ++ List.replicate n .blank ++ l.drop offset) i =
      if i < offset then l.entryAt i else if i < offset + n then .blank else l.entryAt (i - n) := by
  simp only [entryAt, List.getD_eq_getElem?_getD, List.getElem?_append, List.length_append,
    List.length_take, List.length_replicate, List.getElem?_take, List.getElem?_replicate,
    List.getElem?_drop, Nat.min_eq_left h]
  rcases Nat.lt_or_ge i offset with h1 | h1
  · rw [if_pos (by omega), if_pos h1, if_pos h1, if_pos h1]
  · have h1' : ¬ i < offset := Nat.not_lt.2 h1
    rcases Nat.lt_or_ge i (offset + n) with h2 | h2
    · have h3 : i - offset < n := by omega
      simp only [h1', h2, h3, if_true, if_false, Option.getD_some]
    · have h3 : offset + (i - (offset + n)) = i - n := by omega
      simp only [h1', Nat.not_lt.2 h2, h3, if_false]

lemma entryAt_eraseIdx (l : Listing) (n i : Nat) :
    entryAt (l.eraseIdx n) i = if i < n then l.entryAt i else l.entryAt (i + 1) := by
  simp only [entryAt, List.getD_eq_getElem?_getD, List.getElem?_eraseIdx]
  split <;> rfl

@[simp] lemma entryAt_reach (l : Listing) (slot : Int) (i : Nat) :
    entryAt (l.reach slot) i = l.entryAt i := entryAt_padTo l _ i

lemma target_lt_length_reach (l : Listing) (slot : Int) :
    l.target slot < (l.reach slot).length := by
  rw [reach, length_padTo]
  omega

lemma entryAt_edit_setValue (l : Listing) (slot : Int) (v : Slot) (compiler : Bool) (i : Nat) :
    entryAt (l.edit (.setValue slot v compiler)) i =
      if i = l.target slot then { l.entryAt i with value := v } else l.entryAt i := by
  rw [edit, entryAt_modify (l.target_lt_length_reach slot), entryAt_reach, entryAt_reach]
  split
  · next h => rw [h]
  · rfl

lemma entryAt_edit_setName (l : Listing) (slot : Int) (q : QName) (compiler : Bool) (i : Nat) :
    entryAt (l.edit (.setName slot q compiler)) i =
      if i = l.target slot then { l.entryAt i with name := q.label? } else l.entryAt i := by
  rw [edit, entryAt_modify (l.target_lt_length_reach slot), entryAt_reach, entryAt_reach]
  split
  · next h => rw [h]
  · rfl

/-- The last slot goes, the others are blanked. -/
lemma entryAt_edit_delete {l : Listing} {slot : Nat} (h : slot < l.length) (compiler : Bool)
    (i : Nat) : entryAt (l.edit (.delete slot compiler)) i =
      if i = slot then .blank else l.entryAt i := by
  rw [edit]
  split
  · next hlast => exact entryAt_dropLast hlast i
  · exact entryAt_set h .blank i

end Listing

/-! ### Objects as lists -/

namespace Object

/-- The list tells the entries of the object. The object has room for all of them, and slots beyond
the count are blank. -/
structure Spells (o : Object) (l : Listing) : Prop where
  length : l.length = o.count
  capacity : o.count ≤ o.capacity
  names : o.count ≤ o.names.size
  entry : ∀ i, l.entryAt i = ⟨o.names.label? i, o.slotAt i⟩

variable {o o' : Object} {l : Listing}

lemma get_of_lt {i : Nat} (hi : i < o.count) (hcap : o.count ≤ o.capacity) :
    o.get i = .ok (o.slotAt i) := by
  have hs : i < o.slots.size := Nat.lt_of_lt_of_le hi hcap
  have hslot : o.slots[i]? = some o.slots[i] := Array.getElem?_eq_getElem hs
  rw [Object.get, value?, if_pos hi, hslot, slotAt, hslot]
  rfl

lemma Spells.get (h : o.Spells l) {i : Nat} {e : Entry} (he : l[i]? = some e) :
    (o.nameAt i).map QName.label? = .ok e.name ∧ o.get i = .ok e.value := by
  have hi : i < o.count := by
    have := (List.getElem?_eq_some_iff.1 he).1
    have := h.length
    omega
  have hentry := (Listing.entryAt_of_getElem? he).symm.trans (h.entry i)
  constructor
  · have hn : i < o.names.slots.size := Nat.lt_of_lt_of_le hi h.names
    have hname : o.names.nameAt? i = some o.names.slots[i].name := by
      rw [NameTable.nameAt?, Array.getElem?_eq_getElem hn, Option.map_some]
    rw [nameAt, if_pos hi, hname, hentry, NameTable.label?, hname]
    rfl
  · rw [get_of_lt hi h.capacity, hentry]

/-- One slot in use has lost its name and its value. -/
lemma Spells.blanked (h : o.Spells l) {slot : Nat} (hslot : slot < o.count)
    (hcount : o'.count = o.count) (hslots : o'.slots = (o.write slot none).slots)
    (hsize : o'.names.size = o.names.size)
    (hlabel : ∀ i, o'.names.label? i = if i = slot then none else o.names.label? i) :
    o'.Spells (l.set slot .blank) := by
  have hcap : o'.capacity = o.capacity := by
    rw [Object.capacity, hslots]
    exact capacity_write o slot none
  refine ⟨?_, by rw [hcount, hcap]; exact h.capacity, by rw [hcount, hsize]; exact h.names,
    fun i => ?_⟩
  · rw [List.length_set, hcount]
    exact h.length
  · have hvalue : o'.slotAt i = if i = slot ∧ slot < o.capacity then none else o.slotAt i := by
      rw [slotAt, hslots]
      exact slotAt_write o slot none i
    rw [Listing.entryAt_set (by rw [h.length]; exact hslot), hlabel, hvalue]
    by_cases hi : i = slot
    · rw [if_pos hi, if_pos hi, if_pos ⟨hi, Nat.lt_of_lt_of_le hslot h.capacity⟩]
      rfl
    · rw [if_neg hi, if_neg hi, if_neg fun e => hi e.1]
      exact h.entry i

variable [NameHash]

lemma names_grow_size {n : Nat} (h : o.grow n = .ok o') :
    o'.names.size = max o.names.size n ∧ ∀ i, o'.names.label? i = o.names.label? i := by
  unfold grow at h
  split at h
  · obtain rfl := Except.ok.inj h
    exact ⟨NameTable.size_ensureSize _ n, NameTable.label?_ensureSize _ n⟩
  · split at h
    · simp at h
    · obtain rfl := Except.ok.inj h
      dsimp only
      split
      · rw [NameTable.size_reindex]
        exact ⟨NameTable.size_ensureSize _ n, fun i =>
          (NameTable.label?_congr (NameTable.nameAt?_reindex _ _ i)).trans
            (NameTable.label?_ensureSize _ n i)⟩
      · exact ⟨NameTable.size_ensureSize _ n, NameTable.label?_ensureSize _ n⟩

lemma Spells.grow (h : o.Spells l) {n : Nat} (hg : o.grow n = .ok o') : o'.Spells (l.padTo n) := by
  obtain ⟨hsize, hlabel⟩ := names_grow_size hg
  have hcount := count_grow hg
  obtain ⟨hcap, hn⟩ := capacity_grow hg
  obtain ⟨hlength, hcapacity, hnames, hentry⟩ := h
  refine ⟨?_, by omega, by omega, fun i => ?_⟩
  · rw [Listing.length_padTo, hlength, hcount]
  · rw [Listing.entryAt_padTo, hentry, hlabel, slotAt_grow hg]

/-- The slot is the one asked for, and the object reaches it. -/
lemma Spells.checkSlot (h : o.Spells l) {slot : Int} {compiler : Bool} {n : Nat}
    (hc : o.checkSlot slot compiler = .ok (n, o')) :
    n = l.target slot ∧ o'.Spells (l.reach slot) ∧ n < o'.count := by
  have htarget : n = l.target slot := by
    unfold Object.checkSlot at hc
    dsimp only at hc
    rw [Listing.target, h.length]
    generalize (if slot < 0 then o.count else slot.toNat) = k at hc ⊢
    split at hc
    · exact (Prod.mk.inj (Except.ok.inj hc)).1.symm
    · split at hc
      · simp at hc
      · obtain ⟨p, -, e⟩ := eq_ok_of_map hc
        exact (Prod.mk.inj e).1.symm
  refine ⟨htarget, ?_, (becomes_checkSlot hc).2⟩
  rw [Listing.reach, ← htarget]
  rcases checkSlot_cases hc with ⟨hn, rfl⟩ | hg
  · have hpad : l.padTo (n + 1) = l := by
      rw [Listing.padTo, Nat.sub_eq_zero_of_le (by rw [h.length]; omega), List.replicate_zero,
        List.append_nil]
    rwa [hpad]
  · exact h.grow hg

lemma Spells.setValue (h : o.Spells l) {slot : Int} {v : Slot} {compiler : Bool} {n : Nat}
    (hs : o.setValue slot v compiler = .ok (n, o')) :
    n = l.target slot ∧ o'.Spells (l.edit (.setValue slot v compiler)) := by
  obtain ⟨⟨k, p⟩, hc, e⟩ := eq_ok_of_map hs
  obtain ⟨rfl, rfl⟩ := Prod.mk.inj e
  obtain ⟨htarget, hp, hk⟩ := h.checkSlot hc
  have hroom : k < p.capacity := Nat.lt_of_lt_of_le hk hp.capacity
  refine ⟨htarget, ?_, by simpa using hp.capacity, hp.names, fun i => ?_⟩
  · rw [Listing.edit, List.length_modify]
    exact hp.length
  · have hentry := (Listing.entryAt_reach l slot i).symm.trans (hp.entry i)
    rw [Listing.entryAt_edit_setValue, ← htarget, slotAt_write, hentry]
    by_cases hi : i = k
    · rw [if_pos hi, if_pos ⟨hi, hroom⟩]
      rfl
    · rw [if_neg hi, if_neg fun e => hi e.1]
      rfl

lemma Spells.setName (h : o.Spells l) {slot : Int} {q : QName} {compiler : Bool} {n : Nat}
    (hs : o.setName slot q compiler = .ok (n, o')) :
    n = l.target slot ∧ o'.Spells (l.edit (.setName slot q compiler)) := by
  obtain ⟨⟨k, p⟩, hc, e⟩ := eq_ok_of_map hs
  obtain ⟨htarget, hp, hk⟩ := h.checkSlot hc
  dsimp only at e
  have hlabel : k = n ∧ o'.count = p.count ∧ o'.slots = p.slots ∧ p.count ≤ o'.names.size ∧
      ∀ i, o'.names.label? i = if i = k then q.label? else p.names.label? i := by
    split at e <;> obtain ⟨rfl, rfl⟩ := Prod.mk.inj e
    · next hsame =>
      refine ⟨rfl, rfl, rfl, hp.names, fun i => ?_⟩
      split
      · next hi => rw [hi, NameTable.label?, hsame, Option.bind_some]
      · rfl
    · refine ⟨rfl, rfl, rfl, ?_, NameTable.label?_rename _ hk q⟩
      rw [NameTable.size_rename]
      exact Nat.le_max_right _ _
  obtain ⟨rfl, hcount, hslots, hnames, hlabel⟩ := hlabel
  have hslot (i : Nat) : o'.slotAt i = p.slotAt i := by rw [slotAt, hslots, slotAt]
  refine ⟨htarget, ?_, ?_, hcount ▸ hnames, fun i => ?_⟩
  · rw [Listing.edit, List.length_modify, hcount]
    exact hp.length
  · rw [hcount, Object.capacity, hslots]
    exact hp.capacity
  · have hentry := (Listing.entryAt_reach l slot i).symm.trans (hp.entry i)
    rw [Listing.entryAt_edit_setName, ← htarget, hlabel, hslot, hentry]
    by_cases hi : i = k
    · rw [if_pos hi, if_pos hi]
    · rw [if_neg hi, if_neg hi]

lemma Spells.delete (h : o.Spells l) {slot : Nat} {compiler : Bool}
    (hd : o.delete slot compiler = .ok o') : o'.Spells (l.edit (.delete slot compiler)) := by
  unfold Object.delete at hd
  split at hd
  · simp at hd
  · split at hd
    · simp at hd
    · next hslot =>
      dsimp only at hd
      generalize hp : (if ((o.write slot none).names.nameAt? slot).any (!·.isUnnamed) then
        ({ o.write slot none with names := (o.write slot none).names.clear slot, shared := false }
          : Object) else o.write slot none) = p at hd
      have hslot : slot < o.count := Nat.not_le.1 hslot
      have hblank : p.count = o.count ∧ p.Spells (l.set slot .blank) := by
        split at hp <;> subst hp
        · exact ⟨rfl, h.blanked hslot rfl rfl (NameTable.size_clear _ slot)
            (NameTable.label?_clear _ slot)⟩
        · next hnone =>
          refine ⟨rfl, h.blanked hslot rfl rfl rfl fun i => ?_⟩
          split
          · next hi =>
            -- a name that was not cleared has no local part
            subst hi
            rcases hq : (o.write i none).names.nameAt? i with _ | q
            · rw [NameTable.label?, hq, Option.bind_none]
            · rw [NameTable.label?, hq, Option.bind_some, QName.label?, if_pos]
              simpa [hq] using hnone
          · rfl
      obtain ⟨hcount, hp⟩ := hblank
      obtain rfl := Except.ok.inj hd
      have hlength : l.length = p.count := h.length.trans hcount.symm
      rw [Listing.edit, hlength]
      split
      · next hlast =>
        have hdrop (i : Nat) : Listing.entryAt l.dropLast i = Listing.entryAt (l.set slot .blank) i
            := by
          rw [Listing.entryAt_dropLast (hlast.trans hlength.symm), Listing.entryAt_set (by omega)]
        refine ⟨?_, ?_, ?_, fun i => (hdrop i).trans (hp.entry i)⟩
        · rw [List.length_dropLast]
          dsimp only
          omega
        · have := hp.capacity
          simp only [Object.capacity] at this ⊢
          omega
        · have := hp.names
          dsimp only
          omega
      · exact hp

lemma Spells.insert (h : o.Spells l) {n offset : Nat} (hi : o.insert n offset = .ok o') :
    o'.Spells (l.edit (.insert n offset)) := by
  unfold Object.insert at hi
  split at hi
  · simp at hi
  · next hoffset =>
    have hoffset : offset ≤ l.length := by
      rw [h.length]
      exact Nat.not_lt.1 hoffset
    split at hi
    · next hn =>
      obtain rfl := Except.ok.inj hi
      have : l.edit (.insert n offset) = l := by simp [Listing.edit, hn]
      rwa [this]
    · split at hi
      · simp at hi
      · obtain ⟨p, hg, rfl⟩ := eq_ok_of_map hi
        have hp := h.grow hg
        have hcount : p.count = o.count + n := by
          have := count_grow hg
          omega
        have hlength := h.length
        have hcap := (capacity_grow hg).2
        have hnames := hp.names
        refine ⟨?_, ?_, ?_, fun i => ?_⟩
        · simp only [Listing.edit, List.length_append, List.length_take, List.length_replicate,
            List.length_drop]
          omega
        · simp only [Object.capacity, Array.size_append, Array.size_extract,
            Array.size_replicate] at hcap ⊢
          omega
        · dsimp only
          rw [NameTable.size_reindex, NameTable.size_insertEntries (by omega)]
          omega
        · have hvalue := slotAt_insert p (hlength ▸ hoffset) hcap i
          have hold (j : Nat) := (Listing.entryAt_padTo l (o.count + n) j).symm.trans (hp.entry j)
          dsimp only
          rw [Listing.edit, Listing.entryAt_open hoffset,
            NameTable.label?_congr (NameTable.nameAt?_reindex _ _ i),
            NameTable.label?_insertEntries (by omega), slotAt, hvalue]
          split
          · exact hold i
          · split
            · rfl
            · split
              · exact hold (i - n)
              · -- what lies beyond the old count was blank and still is
                have hlast := hold i
                rw [Listing.entryAt_of_le (by omega)] at hlast
                rw [hold (i - n), ← (Entry.mk.inj hlast).2]
                have hmoved := hold (i - n)
                rw [Listing.entryAt_of_le (by omega)] at hmoved
                rw [← (Entry.mk.inj hmoved).2]

lemma Spells.remove (h : o.Spells l) {slot : Nat} {compact compiler : Bool}
    (hr : o.remove slot compact compiler = .ok o') :
    o'.Spells (l.edit (.remove slot compact compiler)) := by
  unfold Object.remove at hr
  split at hr
  · simp at hr
  · split at hr
    · simp at hr
    · next hslot =>
      have hslot : slot < o.count := Nat.not_le.1 hslot
      have hlength := h.length
      have hcap := h.capacity
      have hnames := h.names
      rcases compact with _ | _ <;> obtain rfl := Except.ok.inj hr
      · exact h.blanked hslot rfl rfl (NameTable.size_clear _ slot) (NameTable.label?_clear _ slot)
      · refine ⟨?_, ?_, ?_, fun i => ?_⟩
        · rw [Listing.edit, List.length_eraseIdx_of_lt (by omega), hlength]
        · simp only [Object.capacity, Array.size_append, Array.size_extract, List.size_toArray,
            List.length_singleton] at hcap ⊢
          omega
        · dsimp only
          rw [NameTable.size_reindex, NameTable.size_removeEntry (by omega)]
          omega
        · have hvalue := slotAt_compact o hslot hcap i
          dsimp only
          rw [Listing.edit, Listing.entryAt_eraseIdx,
            NameTable.label?_congr (NameTable.nameAt?_reindex _ _ i),
            NameTable.label?_removeEntry, slotAt, hvalue]
          split
          · exact h.entry i
          · split
            · exact h.entry (i + 1)
            · -- the slot that is given up is blank, and so is what follows
              have hlast := h.entry (i + 1)
              rw [Listing.entryAt_of_le (by omega)] at hlast
              rw [h.entry, ← (Entry.mk.inj hlast).2]
              split
              · rfl
              · have hbeyond := h.entry i
                rw [Listing.entryAt_of_le (by omega)] at hbeyond
                rw [← (Entry.mk.inj hbeyond).2]

lemma Spells.edit (h : o.Spells l) {e : Edit} (he : o.edit e = .ok o') :
    o'.Spells (l.edit e) := by
  cases e with
  | checkSlot slot compiler =>
    obtain ⟨⟨n, _⟩, hc, rfl⟩ := eq_ok_of_map he
    exact (h.checkSlot hc).2.1
  | setValue slot v compiler =>
    obtain ⟨⟨n, _⟩, hs, rfl⟩ := eq_ok_of_map he
    exact (h.setValue hs).2
  | setName slot q compiler =>
    obtain ⟨⟨n, _⟩, hs, rfl⟩ := eq_ok_of_map he
    exact (h.setName hs).2
  | delete slot compiler => exact h.delete he
  | grow n => exact h.grow he
  | insert n offset => exact h.insert he
  | remove slot compact compiler => exact h.remove he
  | setDynamic dynamic =>
    obtain rfl := Except.ok.inj he
    exact ⟨h.length, h.capacity, h.names, h.entry⟩

/-- The edits of a sequence that are not refused. -/
def accepted (o : Object) : List Edit → List Edit
  | [] => []
  | e :: es =>
    match o.edit e with
    | .ok o' => e :: accepted o' es
    | .error _ => accepted o es

lemma Spells.editAll (es : List Edit) (h : o.Spells l) :
    (es.foldl apply o).Spells ((o.accepted es).foldl Listing.edit l) := by
  induction es generalizing o l with
  | nil => exact h
  | cons e es ih =>
    rcases he : o.edit e with f | o'
    · have happly : o.apply e = o := by rw [apply, he]
      rw [List.foldl_cons, happly, accepted, he]
      exact ih h
    · have happly : o.apply e = o' := by rw [apply, he]
      rw [List.foldl_cons, happly, accepted, he, List.foldl_cons]
      exact ih (h.edit he)

omit [NameHash] in
lemma spells_empty (dynamic : Bool) : (empty dynamic).Spells [] := by
  refine ⟨rfl, Nat.le_refl _, Nat.le_refl _, fun i => ?_⟩
  simp [Listing.entryAt, empty, NameTable.empty, NameTable.label?, NameTable.nameAt?, slotAt,
    Entry.blank]

/-- The entries of an instance when it is laid out: the names of the template with null values, and
`extra` blank entries behind them. -/
def layout (template : NameTable) (extra : Nat) : Listing :=
  template.entries.toList.map (fun q => ⟨q.label?, none⟩) ++ List.replicate extra .blank

lemma spells_ofTemplate (template : NameTable) (extra : Nat) (dynamic separate : Bool) :
    (ofTemplate template extra dynamic separate).Spells (layout template extra) := by
  have hsound := sound_ofTemplate template extra dynamic separate
  have hslots (i : Nat) : (ofTemplate template extra dynamic separate).slotAt i = none := by
    simp only [ofTemplate, slotAt, Array.getElem?_replicate]
    split <;> rfl
  have hnames : (ofTemplate template extra dynamic separate).count ≤
        (ofTemplate template extra dynamic separate).names.size ∧
      ∀ i, (ofTemplate template extra dynamic separate).names.label? i = template.label? i := by
    unfold ofTemplate
    dsimp only
    generalize hu : (if separate || dynamic || 0 < extra then
      template.ensureSize (template.size + extra) else template) = u
    have hu : template.size + extra ≤ u.size ∧ ∀ i, u.label? i = template.label? i := by
      split at hu <;> subst hu
      · rw [NameTable.size_ensureSize]
        exact ⟨Nat.le_max_right _ _, NameTable.label?_ensureSize _ _⟩
      · next hown =>
        have hextra : ¬ 0 < extra := fun h => hown (by simp [h])
        exact ⟨by omega, fun _ => rfl⟩
    split
    · rw [NameTable.size_reindex]
      exact ⟨hu.1, fun i => (NameTable.label?_congr (NameTable.nameAt?_reindex _ _ i)).trans
        (hu.2 i)⟩
    · exact hu
  refine ⟨?_, hsound.count_le, hnames.1, fun i => ?_⟩
  · simp [layout, NameTable.entries, ofTemplate, NameTable.size]
  · rw [hslots, hnames.2]
    simp only [layout, Listing.entryAt, List.getD_eq_getElem?_getD, List.getElem?_append,
      List.length_map, NameTable.entries, Array.length_toList, Array.size_map, List.getElem?_map,
      Array.getElem?_toList, Array.getElem?_map, List.getElem?_replicate, NameTable.label?,
      NameTable.nameAt?]
    split
    · next hi => simp [Array.getElem?_eq_getElem hi]
    · next hi =>
      rw [Array.getElem?_eq_none (Nat.le_of_not_lt hi)]
      split <;> rfl

/-- Objects as they begin, each with the list of its entries. -/
inductive Begins : Object → Listing → Prop
  | empty (dynamic : Bool) : Begins (.empty dynamic) []
  | laidOut (template : NameTable) (extra : Nat) (dynamic separate : Bool) :
    Begins (.ofTemplate template extra dynamic separate) (layout template extra)

lemma Begins.spells (h : Begins o l) : o.Spells l := by
  cases h with
  | empty dynamic => exact spells_empty dynamic
  | laidOut template extra dynamic separate =>
    exact spells_ofTemplate template extra dynamic separate

/-- Objects in use, however many slots they have: fresh ones, instances of a type, and what edits
make of them, whether or not an edit is refused. A copy is the same object, and both then go on by
themselves. -/
inductive Arises : Object → Prop
  | empty (dynamic : Bool) : Arises (.empty dynamic)
  | instantiated (id : TypeId) (d : TypeDef) (extra : Nat) (dynamic separate : Bool) :
    Arises (ofTemplate (TypeInfo.make id d).template extra dynamic separate)
  | edited (o : Object) (e : Edit) (ho : Arises o) : Arises (o.apply e)

lemma Spells.apply (h : o.Spells l) (e : Edit) : ∃ l', (o.apply e).Spells l' := by
  rw [Object.apply]
  split
  · next he => exact ⟨_, h.edit he⟩
  · exact ⟨l, h⟩

lemma Arises.spells (h : Arises o) : ∃ l, o.Spells l := by
  induction h with
  | empty dynamic => exact ⟨_, spells_empty dynamic⟩
  | instantiated id d extra dynamic separate =>
    exact ⟨_, spells_ofTemplate _ extra dynamic separate⟩
  | edited o e _ ih =>
    obtain ⟨l, hl⟩ := ih
    exact hl.apply e

lemma Arises.editedAll (es : List Edit) (h : Arises o) : Arises (es.foldl Object.apply o) := by
  induction es generalizing o with
  | nil => exact h
  | cons e es ih => exact ih (.edited o e h)

/-- **An object is a list of names and values.** Whatever has been done to it, the names and values
of the slots in use are those of the list that starts as the object did and then follows the edits
that were accepted; a refused edit leaves no trace. Stores and namings go to the slot that the list
tells, there are a name and a place for every slot in use, and slots that growth takes into use,
again or for the first time, are null and unnamed. -/
theorem listing_edits (h : Begins o l) (es : List Edit) :
    let o' := es.foldl apply o
    let l' := (o.accepted es).foldl Listing.edit l
    o'.count = l'.length ∧
    (∀ i e, l'[i]? = some e →
      (o'.nameAt i).map QName.label? = .ok e.name ∧ o'.get i = .ok e.value) ∧
    o'.count ≤ o'.names.size ∧ o'.count ≤ o'.capacity ∧
    (∀ slot v compiler n p, o'.setValue slot v compiler = .ok (n, p) → n = l'.target slot) ∧
    (∀ slot q compiler n p, o'.setName slot q compiler = .ok (n, p) → n = l'.target slot) ∧
    ∀ n p, o'.grow n = .ok p → ∀ i, o'.count ≤ i → i < n →
      (p.nameAt i).map QName.label? = .ok none ∧ p.get i = .ok none := by
  intro o' l'
  have hs : o'.Spells l' := h.spells.editAll es
  refine ⟨hs.length.symm, fun i e he => hs.get he, hs.names, hs.capacity,
    fun slot v compiler n p hp => (hs.setValue hp).1,
    fun slot q compiler n p hp => (hs.setName hp).1, fun n p hp i hi hn => ?_⟩
  refine (hs.grow hp).get (e := .blank) ?_
  have hlt : i < (Listing.padTo l' n).length := by
    rw [Listing.length_padTo]
    omega
  have hblank : Listing.entryAt (Listing.padTo l' n) i = .blank := by
    rw [Listing.entryAt_padTo, Listing.entryAt_of_le (hs.length ▸ hi)]
  rw [Listing.entryAt, List.getD_eq_getElem?_getD, List.getElem?_eq_getElem hlt,
    Option.getD_some] at hblank
  rw [List.getElem?_eq_getElem hlt, hblank]

end Object

namespace Object

/-- A named value moves up when slots open below it. An edit that is refused in between does not
count, and growth over the slot that was given up shows no trace of it. -/
theorem listing_shifted :
    let o := [.setValue 2 (some 7) false, .setName 2 (.ofLocal "a") false, .remove 0 true false,
      .setName 3 (.ofLocal "b") false, .insert 2 1, .delete 5 false, .grow 6].foldl apply
        (Object.empty true)
    (o.nameAt 4).map QName.label? = .ok (some (.ofLocal "a")) ∧ o.get 4 = .ok (some 7) ∧
      (o.nameAt 5).map QName.label? = .ok none := by
  have hlist := (listing_edits (.empty true) [.setValue 2 (some 7) false,
    .setName 2 (.ofLocal "a") false, .remove 0 true false, .setName 3 (.ofLocal "b") false,
    .insert 2 1, .delete 5 false, .grow 6]).2.1
  have hmoved := hlist 4 ⟨some (.ofLocal "a"), some 7⟩ (by decide +kernel)
  exact ⟨hmoved.1, hmoved.2, (hlist 5 .blank (by decide +kernel)).1⟩

end Object

end ScriptHeap
