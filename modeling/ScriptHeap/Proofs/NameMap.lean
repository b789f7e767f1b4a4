import Mathlib
import ScriptHeap.Proofs.Lookup
import ScriptHeap.Proofs.NamedStore

/-!
A dynamic object that is used by name alone is a finite map. Each name that is bound has one slot,
and keeps it until it is deleted. This holds across deletes in the middle, which leave a blank slot,
deletes at the end, whose slot is taken again, and the change to an index.
-/

namespace ScriptHeap

/-! ### Maps as lists of entries -/

/-- The entry of a name with a binding. Without one it is blank. -/
def Entry.of (q : QName) : Option Slot → Entry
  | some v => ⟨some q, v⟩
  | none => .blank

namespace Listing

/-- No name has two entries. -/
def Distinct (l : Listing) : Prop :=
  ∀ i j q, (l.entryAt i).name = some q → (l.entryAt j).name = some q → i = j

/-- The entries bind names as the map does. -/
def Binds (l : Listing) (m : QName → Option Slot) : Prop :=
  ∀ q v, m q = some v ↔ ∃ i, l.entryAt i = ⟨some q, v⟩

/-- Entry `i` gets a binding for `q`, or loses it. It had no other name, and no other entry has this
one. -/
structure Rebinds (l l' : Listing) (i : Nat) (q : QName) (b : Option Slot) : Prop where
  entry : ∀ j, l'.entryAt j = if j = i then .of q b else l.entryAt j
  only : ∀ j, (l.entryAt j).name = some q → j = i
  own : ∀ q', (l.entryAt i).name = some q' → q' = q

variable {l l' : Listing} {m : QName → Option Slot} {i : Nat} {q : QName} {b : Option Slot}

lemma target_natCast (l : Listing) (i : Nat) : l.target i = i := by
  rw [target, if_neg (by omega), Int.toNat_natCast]

lemma entryAt_nil (i : Nat) : entryAt [] i = .blank := entryAt_of_le (Nat.zero_le i)

lemma distinct_nil : Distinct [] := by
  intro i j q hi
  rw [entryAt_nil] at hi
  cases hi

lemma binds_nil : Binds [] fun _ => none := by
  intro q v
  refine iff_of_false nofun ?_
  rintro ⟨i, hi⟩
  rw [entryAt_nil] at hi
  cases hi

/-- A name that is not there stays away. -/
lemma rebinds_self (h : ∀ j, (l.entryAt j).name ≠ some q) : l.Rebinds l l.length q none := by
  have hblank : l.entryAt l.length = .blank := entryAt_of_le le_rfl
  refine ⟨fun j => ?_, fun j hj => absurd hj (h j), fun q' hq' => ?_⟩
  · split
    · next hj => rw [hj, hblank, Entry.of]
    · rfl
  · rw [hblank] at hq'
    cases hq'

lemma lt_length_of_name (h : (l.entryAt i).name = some q) : i < l.length := by
  by_contra hle
  rw [entryAt_of_le (Nat.not_lt.1 hle)] at h
  cases h

/-- A store to the slot of the name. -/
lemma rebinds_setValue (hd : l.Distinct) (hi : (l.entryAt i).name = some q) (v : Slot)
    (compiler : Bool) : l.Rebinds (l.edit (.setValue i v compiler)) i q (some v) := by
  refine ⟨fun j => ?_, fun j hj => hd j i q hj hi, fun q' hq' => ?_⟩
  · rw [entryAt_edit_setValue, target_natCast, Entry.of, ← hi]
    split
    · next hj => rw [hj]
    · rfl
  · exact Option.some.inj (hq'.symm.trans hi)

/-- A slot that is appended for the name. -/
lemma rebinds_append (hnone : ∀ j, (l.entryAt j).name ≠ some q) (hq : q.label? = some q) (v : Slot)
    (compiler : Bool) :
    l.Rebinds (((l.edit (.checkSlot (-1) compiler)).edit (.setName l.length q compiler)).edit
      (.setValue l.length v compiler)) l.length q (some v) := by
  refine ⟨fun j => ?_, fun j hj => absurd hj (hnone j), fun q' hq' => ?_⟩
  · rw [entryAt_edit_setValue, entryAt_edit_setName, target_natCast, target_natCast, hq, edit,
      entryAt_reach, Entry.of]
    by_cases hj : j = l.length
    · rw [if_pos hj, if_pos hj, if_pos hj]
    · rw [if_neg hj, if_neg hj, if_neg hj]
  · exact absurd (lt_length_of_name hq') (Nat.lt_irrefl _)

lemma rebinds_delete (hd : l.Distinct) (hi : (l.entryAt i).name = some q) (compiler : Bool) :
    l.Rebinds (l.edit (.delete i compiler)) i q none := by
  refine ⟨fun j => ?_, fun j hj => hd j i q hj hi, fun q' hq' => ?_⟩
  · rw [entryAt_edit_delete (lt_length_of_name hi), Entry.of]
  · exact Option.some.inj (hq'.symm.trans hi)

/-- Entries of other names are where they were. -/
lemma Rebinds.entry_iff (h : l.Rebinds l' i q b) {q' : QName} (hq : q' ≠ q) (j : Nat) (v : Slot) :
    l'.entryAt j = ⟨some q', v⟩ ↔ l.entryAt j = ⟨some q', v⟩ := by
  rw [h.entry]
  split
  · next hj =>
    subst hj
    refine iff_of_false (fun he => ?_) fun he => hq (h.own q' (by rw [he]))
    rcases b with _ | w <;> cases he
    exact hq rfl
  · rfl

/-- The name itself is at `i` or nowhere. -/
lemma Rebinds.entry_self (h : l.Rebinds l' i q b) (j : Nat) (v : Slot) :
    l'.entryAt j = ⟨some q, v⟩ ↔ j = i ∧ b = some v := by
  rw [h.entry]
  split
  · next hj =>
    rw [and_iff_right hj]
    rcases b with _ | w
    · exact iff_of_false nofun nofun
    · simp [Entry.of]
  · next hj => exact iff_of_false (fun he => hj (h.only j (by rw [he]))) fun he => hj he.1

lemma Rebinds.distinct (h : l.Rebinds l' i q b) (hl : l.Distinct) : l'.Distinct := by
  intro j k q' hj hk
  have hj : l'.entryAt j = ⟨some q', (l'.entryAt j).value⟩ := by rw [← hj]
  have hk : l'.entryAt k = ⟨some q', (l'.entryAt k).value⟩ := by rw [← hk]
  by_cases hq : q' = q
  · subst hq
    rw [((h.entry_self j _).1 hj).1, ((h.entry_self k _).1 hk).1]
  · refine hl j k q' ?_ ?_
    · rw [(h.entry_iff hq j _).1 hj]
    · rw [(h.entry_iff hq k _).1 hk]

theorem Rebinds.binds (h : l.Rebinds l' i q b) (hl : l.Binds m) :
    l'.Binds (Function.update m q b) := by
  intro q' v
  by_cases hq : q' = q
  · subst hq
    simp only [Function.update_self, h.entry_self, exists_eq_left]
  · simp only [Function.update_of_ne hq, hl q' v, h.entry_iff hq]

end Listing

/-! ### Lookups -/

namespace Object

variable [NameHash] {o : Object} {l : Listing}

/-- A lookup finds the entry that has the name, if there is one only. -/
lemma Spells.lookup_eq_some (h : o.Spells l) (hm : o.Made) (hd : l.Distinct) {q : QName}
    {i : Nat} : o.lookup? q = some i ↔ (l.entryAt i).name = some q := by
  have hmem (s : Nat) : (l.entryAt s).name = some q ↔
      q.name ≠ "" ∧ s < o.count ∧ o.names.nameAt? s = some q := by
    have hlabel : (l.entryAt s).name = some q ↔
        o.names.nameAt? s = some q ∧ q.isUnnamed = false := by
      rw [h.entry]
      exact NameTable.label?_eq_some
    have hnamed : q.isUnnamed = false ↔ q.name ≠ "" := by
      rw [Ne, ← QName.isUnnamed_iff, Bool.not_eq_true]
    constructor
    · intro hs
      obtain ⟨hname, hq⟩ := hlabel.1 hs
      exact ⟨hnamed.1 hq, h.length ▸ Listing.lt_length_of_name hs, hname⟩
    · rintro ⟨hq, -, hname⟩
      exact hlabel.2 ⟨hname, hnamed.2 hq⟩
  rw [lookup?, NameTable.lookup?_eq_some hm.sound.2, hmem]
  refine and_congr_right fun hq => ⟨fun hleast => hleast.1, fun hi => ⟨hi, fun s hs => ?_⟩⟩
  exact (hd i s q ((hmem i).2 ⟨hq, hi⟩) ((hmem s).2 ⟨hq, hs⟩)).le

lemma Spells.not_named (h : o.Spells l) (hm : o.Made) (hd : l.Distinct) {q : QName}
    (hq : o.lookup? q = none) (i : Nat) : (l.entryAt i).name ≠ some q := by
  intro hi
  rw [(h.lookup_eq_some hm hd).2 hi] at hq
  cases hq

lemma dynamic_delete {slot : Nat} {compiler : Bool} {p : Object}
    (h : o.delete slot compiler = .ok p) : p.dynamic = o.dynamic := by
  unfold delete at h
  split at h
  · simp at h
  · split at h
    · simp at h
    · obtain rfl := Except.ok.inj h
      split <;> split <;> rfl

lemma delete_of_lt {slot : Nat} (hd : o.dynamic = true) (hs : slot < o.count) (compiler : Bool) :
    ∃ p, o.delete slot compiler = .ok p := by
  unfold delete
  rw [hd, Bool.not_true, Bool.false_and, if_neg (by decide), if_neg (Nat.not_le.2 hs)]
  exact ⟨_, rfl⟩

lemma Made.of_edit (hm : o.Made) {e : Edit} {p : Object} (he : o.edit e = .ok p)
    (hc : p.count < 2 ^ 31) : p.Made := by
  have hp : o.apply e = p := by rw [apply, he]
  exact hp ▸ .edited o e hm (hp ▸ hc)

end Object

/-! ### Calls by name -/

/-- A call that uses an object by name. -/
inductive NameCall where
  | store (q : QName) (v : Slot)
  | delete (q : QName)

namespace NameCall

def name : NameCall → QName
  | store q _ => q
  | delete q => q

/-- What the name is bound to afterwards. -/
def binding : NameCall → Option Slot
  | store _ v => some v
  | delete _ => none

def operation (id : RecordId) : NameCall → Operation
  | store q v => .setPropertyByName id q v
  | delete q => .deletePropertyByName id q

end NameCall

/-- The map that the calls make of the empty one. -/
def bindings (cs : List NameCall) : QName → Option Slot :=
  cs.foldl (fun m c => Function.update m c.name c.binding) fun _ => none

namespace Heap

variable [Environment]

/-- The host stores null or a live value under a name with a local part. The call is not refused for
memory and leaves the object with slots that 31 bits can number. -/
structure Permits (h : Heap) (id : RecordId) (c : NameCall) : Prop where
  named : ∀ q v, c = .store q v → q.name ≠ ""
  live : ∀ q y, c = .store q (some y) → h.arena.isLive y = true
  memory : (apply (c.operation id) h).1 ≠ .error .outOfMemory
  count : ∀ n, (apply (c.operation id) h).2.propertyCount id = .ok n → n < 2 ^ 31

/-- Each call of the sequence is permitted when it is made. -/
def PermitsAll (id : RecordId) : Heap → List NameCall → Prop
  | _, [] => True
  | h, c :: cs => h.Permits id c ∧ PermitsAll id (apply (c.operation id) h).2 cs

/-- A call that succeeds, and leaves so many slots. -/
lemma Permits.of_ok {h : Heap} {id : RecordId} {c : NameCall} (answer : Answer) (n : Nat)
    (hnamed : ∀ q v, c = .store q v → q.name ≠ "")
    (hlive : ∀ q y, c = .store q (some y) → h.arena.isLive y = true)
    (hok : (apply (c.operation id) h).1 = .ok answer)
    (hcount : (apply (c.operation id) h).2.propertyCount id = .ok n) (hn : n < 2 ^ 31) :
    h.Permits id c := by
  refine ⟨hnamed, hlive, ?_, fun k hk => ?_⟩
  · rw [hok]
    nofun
  · obtain rfl := Except.ok.inj (hcount.symm.trans hk)
    exact hn

/-- A dynamic object has these entries, and no name twice. -/
structure Keeps (h : Heap) (id : RecordId) (l : Listing) : Prop where
  object : ∃ o, h.object id = .ok o ∧ o.dynamic = true ∧ o.Made ∧ o.Spells l
  distinct : l.Distinct

variable {h : Heap} {id : RecordId} {l : Listing} {q : QName}

/-- What is asked by name is told by the entry with the name. -/
lemma Keeps.answers (hk : h.Keeps id l) (q : QName) :
    (∃ i v, l.entryAt i = ⟨some q, v⟩ ∧ h.lookupProperty id q = .ok i ∧
      h.getPropertyByName id q = .ok v) ∨
    (∀ i, (l.entryAt i).name ≠ some q) ∧ h.lookupProperty id q = .error .notFound ∧
      h.getPropertyByName id q = .error .notFound := by
  obtain ⟨o, ho, -, hm, hs⟩ := hk.object
  rcases hq : o.lookup? q with _ | i
  · have hlookup : h.lookupProperty id q = .error .notFound := by
      simp only [lookupProperty, ho, bind, Except.bind, hq]
    refine .inr ⟨hs.not_named hm hk.distinct hq, hlookup, ?_⟩
    rw [getPropertyByName, hlookup]
    rfl
  · have hlookup : h.lookupProperty id q = .ok i := by
      simp only [lookupProperty, ho, bind, Except.bind, hq]
    have hname := (hs.lookup_eq_some hm hk.distinct).1 hq
    have hi : i < o.count := hs.length ▸ Listing.lt_length_of_name hname
    refine .inl ⟨i, o.slotAt i, ?_, hlookup, ?_⟩
    · rw [hs.entry] at hname ⊢
      rw [← hname]
    · rw [getPropertyByName, hlookup]
      change (h.object id).bind (·.get i) = _
      rw [ho]
      exact Object.get_of_lt hi hs.capacity

lemma Keeps.lookup_iff (hk : h.Keeps id l) {i : Nat} :
    h.lookupProperty id q = .ok i ↔ (l.entryAt i).name = some q := by
  rcases hk.answers q with ⟨j, v, hj, hlookup, -⟩ | ⟨hnone, hlookup, -⟩
  · rw [hlookup, Except.ok.injEq]
    constructor
    · rintro rfl
      rw [hj]
    · exact fun hi => hk.distinct j i q (by rw [hj]) hi
  · rw [hlookup]
    exact iff_of_false nofun (hnone i)

lemma Keeps.getPropertyByName_eq (hk : h.Keeps id l) {m : QName → Option Slot} (hb : l.Binds m)
    (q : QName) : h.getPropertyByName id q = (m q).elim (.error .notFound) .ok := by
  rcases hk.answers q with ⟨i, v, hi, -, hget⟩ | ⟨hnone, -, hget⟩
  · rw [hget, (hb q v).2 ⟨i, hi⟩]
    rfl
  · have hm : m q = none := by
      rcases hm : m q with _ | v
      · rfl
      · obtain ⟨i, hi⟩ := (hb q v).1 hm
        exact absurd (by rw [hi]) (hnone i)
    rw [hget, hm]
    rfl

/-- Names with the same entries get the same answers. -/
lemma Keeps.congr {h' : Heap} {l' : Listing} (hk : h.Keeps id l) (hk' : h'.Keeps id l')
    (hsame : ∀ i v, l'.entryAt i = ⟨some q, v⟩ ↔ l.entryAt i = ⟨some q, v⟩) :
    h'.lookupProperty id q = h.lookupProperty id q ∧
      h'.getPropertyByName id q = h.getPropertyByName id q := by
  rcases hk.answers q with ⟨i, v, hi, hlookup, hget⟩ | ⟨hnone, hlookup, hget⟩
  · have hi' := (hsame i v).2 hi
    rcases hk'.answers q with ⟨j, w, hj, hlookup', hget'⟩ | ⟨hnone', -, -⟩
    · obtain rfl := hk'.distinct i j q (by rw [hi']) (by rw [hj])
      rw [hi'] at hj
      obtain ⟨-, rfl⟩ := Entry.mk.inj hj
      exact ⟨hlookup'.trans hlookup.symm, hget'.trans hget.symm⟩
    · exact absurd (by rw [hi']) (hnone' i)
  · rcases hk'.answers q with ⟨j, w, hj, -, -⟩ | ⟨-, hlookup', hget'⟩
    · exact absurd (by rw [(hsame j w).1 hj]) (hnone j)
    · exact ⟨hlookup'.trans hlookup.symm, hget'.trans hget.symm⟩

lemma Keeps.notFound_iff (hk : h.Keeps id l) :
    h.lookupProperty id q = .error .notFound ↔ ∀ i, (l.entryAt i).name ≠ some q := by
  rcases hk.answers q with ⟨i, v, hi, hlookup, -⟩ | ⟨hnone, hlookup, -⟩
  · rw [hlookup]
    exact iff_of_false nofun fun hnone => hnone i (by rw [hi])
  · exact iff_of_true hlookup hnone

/-! ### The two calls -/

section Calls

variable {o : Object} {v : Slot}

/-- The name is there, and its slot gets another value. -/
lemma keeps_found {i : Nat} (hk : h.Keeps id l) (ho : h.object id = .ok o) (hd : o.dynamic = true)
    (hm : o.Made) (hs : o.Spells l) (hi : (l.entryAt i).name = some q) :
    (h.withValue id o i v).Keeps id (l.edit (.setValue i v true)) := by
  have hlt : i < o.count := hs.length ▸ Listing.lt_length_of_name hi
  have hedit : o.edit (.setValue i v true) = .ok (o.write i v) := by
    rw [Object.edit, Object.setValue_of_lt hlt]
    rfl
  exact ⟨⟨_, object_withValue ho i v, hd, hm.of_edit hedit hm.sound.1, hs.edit hedit⟩,
    (Listing.rebinds_setValue hk.distinct hi v true).distinct hk.distinct⟩

/-- The name is not there, and a slot has been appended for it. -/
lemma keeps_appended {p p' : Object} (hk : h.Keeps id l) (ho : h.object id = .ok o)
    (hd : o.dynamic = true) (hm : o.Made) (hs : o.Spells l)
    (hnone : ∀ j, (l.entryAt j).name ≠ some q) (hq : q.label? = some q)
    (ha : h.Appended id q o p p') (hcount : p'.count < 2 ^ 31) :
    let mode := h.options.compilerMode
    (((h.withObject id o p).withObject id p p').withValue id p' o.count v).Keeps id
      (((l.edit (.checkSlot (-1) mode)).edit (.setName l.length q mode)).edit
        (.setValue l.length v mode)) := by
  intro mode
  have hlast : o.count < p'.count := by
    rw [ha.count]
    exact Nat.lt_succ_self _
  have hp : o.edit (.checkSlot (-1) mode) = .ok p := by
    rw [Object.edit, ha.check]
    rfl
  have hp' : p.edit (.setName o.count q mode) = .ok p' := by
    rw [Object.edit, ha.name]
    rfl
  have hw : p'.edit (.setValue o.count v mode) = .ok (p'.write o.count v) := by
    rw [Object.edit, Object.setValue_of_lt hlast]
    rfl
  have hpcount : p.count < 2 ^ 31 := by
    have h1 := Object.count_grow ha.grown
    have h2 := ha.count
    omega
  have hmade : (p'.write o.count v).Made :=
    ((hm.of_edit hp hpcount).of_edit hp' hcount).of_edit hw hcount
  have ho₁ : ((h.withObject id o p).withObject id p p').object id = .ok p' :=
    object_withObject (object_withObject ho)
  refine ⟨⟨_, object_withValue ho₁ o.count v, ha.dynamic.trans hd, hmade, ?_⟩, ?_⟩
  · rw [hs.length]
    exact ((hs.edit hp).edit hp').edit hw
  · exact (Listing.rebinds_append hnone hq v mode).distinct hk.distinct

/-- **A store gives the name its binding.** It tells the slot, which is the one the name had. -/
theorem Keeps.store (hk : h.Keeps id l) (hc : h.Permits id (.store q v)) :
    ∃ i l' h', apply (.setPropertyByName id q v) h = (.ok (.slot i), h') ∧ h'.Keeps id l' ∧
      l.Rebinds l' i q (some v) := by
  obtain ⟨o, ho, hd, hm, hs⟩ := hk.object
  have hlive : ∀ y, v = some y → h.arena.isLive y = true := by
    rintro y rfl
    exact hc.live q y rfl
  have hmemory : ∀ h', (setPropertyByName id q v).run h ≠ .error .outOfMemory h' := by
    intro h' hrun
    refine hc.memory ?_
    rw [NameCall.operation, apply_setPropertyByName, hrun]
  have happly {i : Nat} {h' : Heap} (hrun : (setPropertyByName id q v).run h = .ok i h') :
      apply (.setPropertyByName id q v) h = (.ok (.slot i), h') := by
    rw [apply_setPropertyByName, hrun]
  have hlt : o.count < 2 ^ 31 := hm.sound.1
  rcases hfind : o.lookup? q with _ | i
  · have hnone := hs.not_named hm hk.distinct hfind
    have hlabel : q.label? = some q := by
      refine QName.label?_eq_some.2 ⟨rfl, ?_⟩
      rw [← Bool.not_eq_true, QName.isUnnamed_iff]
      exact hc.named q v rfl
    rcases appendNamed_cases ho hlt q with ⟨f, hrun, hf⟩ | ⟨p, p', ha, happ⟩
    · -- an append to a dynamic object is refused for memory only
      rcases hf with hf | ⟨hfixed, -⟩
      · exact absurd (run_setPropertyByName_absent ho hfind v |>.trans (run_bind_error hrun))
          (hf ▸ hmemory _)
      · rw [hd] at hfixed
        cases hfixed
    · have hrun := happly ((setPropertyByName_appended ho hlt hfind ha happ v).1 hlive)
      have ho₁ : ((h.withObject id o p).withObject id p p').object id = .ok p' :=
        object_withObject (object_withObject ho)
      have hcount : p'.count < 2 ^ 31 := by
        refine hc.count p'.count ?_
        rw [NameCall.operation, hrun, propertyCount, object_withValue ho₁ o.count v]
        rfl
      refine ⟨l.length, _, _, ?_, keeps_appended hk ho hd hm hs hnone hlabel ha hcount,
        Listing.rebinds_append hnone hlabel v _⟩
      rw [hrun, hs.length]
  · have hi := (hs.lookup_eq_some hm hk.distinct).1 hfind
    have hilt : i < o.count := hs.length ▸ Listing.lt_length_of_name hi
    have hfound := run_setPropertyByName_found ho hfind v
    rw [slotArgument_of_lt (hilt.trans hlt)] at hfound
    rcases setProperty_cases ho hilt hlive with hrun | hrun
    · exact absurd (hfound.trans hrun) (hmemory _)
    · exact ⟨i, _, _, happly (hfound.trans hrun), keeps_found hk ho hd hm hs hi,
        Listing.rebinds_setValue hk.distinct hi v true⟩

lemma apply_deletePropertyByName (id : RecordId) (q : QName) (h : Heap) :
    apply (.deletePropertyByName id q) h = match (deletePropertyByName id q).run h with
      | .ok _ h' => (.ok .done, h')
      | .error e h' => (.error e, h') := by
  unfold apply perform
  rw [EStateM.run_bind]
  rcases (deletePropertyByName id q).run h with ⟨_, h'⟩ | ⟨e, h'⟩ <;> rfl

lemma run_deletePropertyByName_found {slot : Nat} (ho : h.object id = .ok o)
    (hq : o.lookup? q = some slot) :
    (deletePropertyByName id q).run h = (deleteProperty id slot).run h := by
  unfold deletePropertyByName
  rw [run_get_bind, ho]
  dsimp only
  rw [hq]

lemma run_deletePropertyByName_absent (ho : h.object id = .ok o) (hq : o.lookup? q = none) :
    (deletePropertyByName id q).run h = .error .notFound (h.withFault (.noProperty q)) := by
  unfold deletePropertyByName
  rw [run_get_bind, ho]
  dsimp only
  rw [hq]
  rfl

/-- **A delete takes the binding of the name away.** If there is none the delete is refused, and
nothing but the last fault changes. -/
theorem Keeps.delete (hk : h.Keeps id l) (hc : h.Permits id (.delete q)) :
    ∃ i l' res h', apply (.deletePropertyByName id q) h = (res, h') ∧ h'.Keeps id l' ∧
      l.Rebinds l' i q none ∧
      ((∀ j, (l.entryAt j).name ≠ some q) →
        res = .error .notFound ∧ { h' with fault := h.fault } = h) ∧
      ∀ j, (l.entryAt j).name = some q → res = .ok .done := by
  obtain ⟨o, ho, hd, hm, hs⟩ := hk.object
  rcases hfind : o.lookup? q with _ | i
  · have hnone := hs.not_named hm hk.distinct hfind
    refine ⟨l.length, l, .error .notFound, h.withFault (.noProperty q), ?_,
      ⟨⟨o, ho, hd, hm, hs⟩, hk.distinct⟩, Listing.rebinds_self hnone, fun _ => ⟨rfl, rfl⟩,
      fun j hj => absurd hj (hnone j)⟩
    rw [apply_deletePropertyByName, run_deletePropertyByName_absent ho hfind]
  · have hi := (hs.lookup_eq_some hm hk.distinct).1 hfind
    have hilt : i < o.count := hs.length ▸ Listing.lt_length_of_name hi
    obtain ⟨p, hp⟩ := Object.delete_of_lt hd hilt h.options.compilerMode
    have hok : (deleteProperty id i).run h = .ok () (h.withObject id o p) := by
      unfold deleteProperty
      rw [run_get_bind]
      exact run_editObject_ok ho (by rw [hp]; rfl)
    have hres : apply (.deletePropertyByName id q) h = (.ok .done, h.withObject id o p) := by
      rw [apply_deletePropertyByName, run_deletePropertyByName_found ho hfind, hok]
    have hobject : (h.withObject id o p).object id = .ok p := object_withObject ho
    have hedit : o.edit (.delete i h.options.compilerMode) = .ok p := hp
    have hreb := Listing.rebinds_delete hk.distinct hi h.options.compilerMode
    refine ⟨i, _, _, _, hres, ⟨⟨p, hobject, (Object.dynamic_delete hp).trans hd,
      hm.of_edit hedit (hc.count p.count ?_), hs.edit hedit⟩, hreb.distinct hk.distinct⟩, hreb,
      fun hnone => absurd hi (hnone i), fun _ _ => rfl⟩
    rw [NameCall.operation, hres, propertyCount, hobject]
    rfl

end Calls

/-! ### Fresh objects -/

/-- The type of plain objects is the one that every heap starts with. -/
lemma objectType_run (o : HeapOptions) (ops : List Operation) :
    (run (fresh o) ops).types.get? .object = some (.make .object TypeRegistry.objectDef) := by
  have hstart : (Space.fresh o).types.get? .object =
      some (.make .object TypeRegistry.objectDef) := by
    refine (Space.get?_defineAll TypeRegistry.builtinDefs .empty .object).trans ?_
    rfl
  have hfresh := (turnover_fresh o).get?_types hstart
  exact (turnover_run ops (steady_fresh o).1.toSound).2.get?_types hfresh

lemma object_of_createPlainObject {h' : Heap} (hs : h.toSpace.Sound)
    (htype : h.types.get? .object = some (.make .object TypeRegistry.objectDef))
    (hnew : apply .createPlainObject h = (.ok (.record id), h')) :
    h'.object id = .ok ((TypeInfo.make .object TypeRegistry.objectDef).instantiate 0) := by
  have hy : Yields createPlainObject h fun res h' => ∀ id, res = .ok id →
      h'.object id = .ok ((TypeInfo.make .object TypeRegistry.objectDef).instantiate 0) := by
    unfold createPlainObject createObject
    rw [yields_bind, yields_get]
    dsimp only
    rw [htype, Option.filter_some_pos (by rfl)]
    refine yields_allocateBody (fun info _ _ id hid => ?_) fun e h' _ _ id hid => by cases hid
    obtain rfl := Except.ok.inj hid
    obtain ⟨r, hr, hb, -⟩ := (Space.births_allocate hs.store info 0 (.object
      ((TypeInfo.make .object TypeRegistry.objectDef).instantiate 0))).born
    exact object_of_live? hr hb
  have happly : Yields (perform .createPlainObject) h fun res h' => ∀ id, res = .ok (.record id) →
      h'.object id = .ok ((TypeInfo.make .object TypeRegistry.objectDef).instantiate 0) := by
    refine yields_map.2 (hy.mono fun res h' hres id hid => hres id ?_)
    rcases res with e | id' <;> cases hid
    rfl
  have := yields_apply.1 happly id (by rw [hnew])
  rwa [hnew] at this

/-- A plain object starts without entries. -/
lemma keeps_createPlainObject {o : HeapOptions} {ops : List Operation} {h' : Heap}
    (hnew : apply .createPlainObject (run (fresh o) ops) = (.ok (.record id), h')) :
    h'.Keeps id [] := by
  have hobject := object_of_createPlainObject (sound_run ops (steady_fresh o).1.toSound).1
    (objectType_run o ops) hnew
  have hspells := Object.spells_ofTemplate
    (TypeInfo.make .object TypeRegistry.objectDef).template 0 true false
  have hcount : (Object.ofTemplate (TypeInfo.make .object TypeRegistry.objectDef).template 0 true
      false).count = 0 := Object.size_template .object TypeRegistry.objectDef
  have hlist : Object.layout (TypeInfo.make .object TypeRegistry.objectDef).template 0 = [] :=
    List.eq_nil_of_length_eq_zero (hspells.length.trans hcount)
  rw [hlist] at hspells
  refine ⟨⟨_, hobject, rfl, ?_, hspells⟩, Listing.distinct_nil⟩
  exact .instantiated .object TypeRegistry.objectDef 0 true false (hcount.trans_lt (by decide))

/-! ### Runs of calls -/

/-- One call, whatever its kind. -/
lemma Keeps.call (hk : h.Keeps id l) {c : NameCall} (hc : h.Permits id c) :
    ∃ i l', (apply (c.operation id) h).2.Keeps id l' ∧ l.Rebinds l' i c.name c.binding := by
  cases c with
  | store q v =>
    obtain ⟨i, l', h', happly, hk', hreb⟩ := hk.store hc
    refine ⟨i, l', ?_, hreb⟩
    rwa [NameCall.operation, happly]
  | delete q =>
    obtain ⟨i, l', res, h', happly, hk', hreb, -⟩ := hk.delete hc
    refine ⟨i, l', ?_, hreb⟩
    rwa [NameCall.operation, happly]

lemma Keeps.calls (cs : List NameCall) {m : QName → Option Slot} (hk : h.Keeps id l)
    (hb : l.Binds m) (hcs : PermitsAll id h cs) : ∃ l',
      (run h (cs.map (·.operation id))).Keeps id l' ∧
      l'.Binds (cs.foldl (fun m c => Function.update m c.name c.binding) m) := by
  induction cs generalizing h l m with
  | nil => exact ⟨l, hk, hb⟩
  | cons c cs ih =>
    obtain ⟨hc, hcs⟩ := hcs
    obtain ⟨i, l', hk', hreb⟩ := hk.call hc
    exact ih hk' (hreb.binds hb) hcs

/-- **A plain object used by name is a finite map with stable slots.** Whatever has been stored and
deleted, a name is bound to the value that was stored last, and to none after a delete; two names
never share a slot. A call leaves value and slot of every other name alone. A store succeeds and
keeps the slot that the name has. A delete of a name that is not there is refused and changes
nothing. -/
theorem named_slots_map {o : HeapOptions} {ops : List Operation} {h₀ : Heap}
    (hnew : apply .createPlainObject (run (fresh o) ops) = (.ok (.record id), h₀))
    (cs : List NameCall) (hcs : PermitsAll id h₀ cs) :
    let h := run h₀ (cs.map (·.operation id))
    (∀ q, h.getPropertyByName id q = (bindings cs q).elim (.error .notFound) .ok) ∧
    (∀ q q' i, h.lookupProperty id q = .ok i → h.lookupProperty id q' = .ok i → q = q') ∧
    ∀ c, h.Permits id c →
      let res := (apply (c.operation id) h).1
      let h' := (apply (c.operation id) h).2
      (∀ q, q ≠ c.name → h'.lookupProperty id q = h.lookupProperty id q ∧
        h'.getPropertyByName id q = h.getPropertyByName id q) ∧
      (∀ q v, c = .store q v → ∃ i, res = .ok (.slot i) ∧ h'.lookupProperty id q = .ok i ∧
        ∀ j, h.lookupProperty id q = .ok j → j = i) ∧
      (∀ q, c = .delete q → h'.lookupProperty id q = .error .notFound ∧
        (∀ i, h.lookupProperty id q = .ok i → res = .ok .done) ∧
        (h.lookupProperty id q = .error .notFound →
          res = .error .notFound ∧ { h' with fault := h.fault } = h)) := by
  intro h
  obtain ⟨l, hk, hb⟩ := (keeps_createPlainObject hnew).calls cs Listing.binds_nil hcs
  refine ⟨hk.getPropertyByName_eq hb, fun q q' i hq hq' => ?_,
    fun c hc => ⟨fun q hq => ?_, fun q v e => ?_, fun q e => ?_⟩⟩
  · exact Option.some.inj ((hk.lookup_iff.1 hq).symm.trans (hk.lookup_iff.1 hq'))
  · obtain ⟨i, l', hk', hreb⟩ := hk.call hc
    exact hk.congr hk' (hreb.entry_iff hq)
  · subst e
    obtain ⟨i, l', h', happly, hk', hreb⟩ := hk.store hc
    change apply (NameCall.operation id (.store q v)) h = _ at happly
    rw [happly]
    refine ⟨i, rfl, hk'.lookup_iff.2 ?_, fun j hj => hreb.only j (hk.lookup_iff.1 hj)⟩
    rw [(hreb.entry_self i v).2 ⟨rfl, rfl⟩]
  · subst e
    obtain ⟨i, l', res, h', happly, hk', hreb, habsent, hpresent⟩ := hk.delete hc
    change apply (NameCall.operation id (.delete q)) h = _ at happly
    rw [happly]
    refine ⟨hk'.notFound_iff.2 fun j hj => ?_, fun i hi => hpresent i (hk.lookup_iff.1 hi),
      fun hnone => habsent (hk.notFound_iff.1 hnone)⟩
    have hentry : l'.entryAt j = ⟨some q, (l'.entryAt j).value⟩ := by rw [← hj]
    exact nomatch ((hreb.entry_self j _).1 hentry).2

end Heap

namespace Heap

/-- Two names, of which one has been deleted and stored again. -/
def renewed : List NameCall :=
  [.store (.ofLocal "x") none, .store ⟨"space", "x"⟩ (some 1), .delete (.ofLocal "x"),
    .store (.ofLocal "x") (some 1)]

/-- A name that was deleted in the middle comes back at the end. -/
theorem named_slots_renewed :
    let h₀ := run (fresh (.tuned .balanced)) [.createPlainObject]
    let h := run h₀ (renewed.map (·.operation 1))
    h.getPropertyByName 1 (.ofLocal "x") = .ok (some 1) ∧
      h.lookupProperty 1 (.ofLocal "x") = .ok 2 ∧ h.lookupProperty 1 ⟨"space", "x"⟩ ≠ .ok 2 := by
  have hnew : apply .createPlainObject (run (fresh (.tuned .balanced)) []) =
      (.ok (.record 1), run (fresh (.tuned .balanced)) [.createPlainObject]) :=
    Prod.ext (by cbv) rfl
  have hcs : PermitsAll 1 (run (fresh (.tuned .balanced)) [.createPlainObject]) renewed := by
    refine ⟨.of_ok (.slot 0) 1 (by rintro _ _ ⟨⟩; decide) (by rintro _ _ ⟨⟩) ?_ ?_ (by decide),
      .of_ok (.slot 1) 2 (by rintro _ _ ⟨⟩; decide) (by rintro _ _ ⟨⟩; cbv) ?_ ?_ (by decide),
      .of_ok .done 2 (by rintro _ _ ⟨⟩) (by rintro _ _ ⟨⟩) ?_ ?_ (by decide),
      .of_ok (.slot 2) 3 (by rintro _ _ ⟨⟩; decide) (by rintro _ _ ⟨⟩; cbv) ?_ ?_ (by decide),
      trivial⟩ <;> cbv
  have hlookup : (run (run (fresh (.tuned .balanced)) [.createPlainObject])
      (renewed.map (·.operation 1))).lookupProperty 1 (.ofLocal "x") = .ok 2 := by cbv
  obtain ⟨hget, hslots, -⟩ := named_slots_map hnew renewed hcs
  refine ⟨(hget (.ofLocal "x")).trans rfl, hlookup, fun hother => ?_⟩
  exact absurd (hslots _ _ 2 hlookup hother) (by decide)

end Heap

end ScriptHeap
