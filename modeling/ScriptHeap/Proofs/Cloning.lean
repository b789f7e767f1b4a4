import ScriptHeap.Proofs.Outcomes

/-!
Clones. While a deep clone is under way its copies are live objects, and every reference that the
barrier has still to note is held by a copy. Records that are no copies stay as they were, and so do
the root tables. When the clone is done the barrier runs for each copy, which leaves nothing to
note.
-/

namespace ScriptHeap

namespace Space

/-- Records have come about in places where none was live. All others are as they were, and so are
the root tables. -/
structure Adds (s s' : Space) (new : List RecordId) : Prop where
  fresh : ∀ j ∈ new, s.arena.live? j = none
  others : ∀ j, j ∉ new → s'.arena.live? j = s.arena.live? j
  roots : ∀ g, (s'.bucket g).roots = (s.bucket g).roots
  needsRepair : s'.needsRepair = s.needsRepair

namespace Adds

variable {s t u : Space} {new : List RecordId}

lemma refl (s : Space) : Adds s s [] := ⟨by simp, fun _ _ => rfl, fun _ => rfl, rfl⟩

lemma birth (h : Adds s t new) {id : RecordId} {body : Body} (hb : Births t u id body) :
    Adds s u (id :: new) := by
  refine ⟨fun j hj => ?_, fun j hj => ?_, fun g => (hb.roots g).trans (h.roots g),
    hb.needsRepair.trans h.needsRepair⟩
  · by_cases hnew : j ∈ new
    · exact h.fresh j hnew
    · obtain rfl := (List.mem_cons.1 hj).resolve_right hnew
      rw [← h.others j hnew, hb.fresh]
  · rw [List.mem_cons, not_or] at hj
    rw [hb.others j hj.1, h.others j hj.2]

/-- What happens to a record that has come about does not matter. -/
lemma rewrite (h : Adds s t new) {id : RecordId} (hid : id ∈ new)
    (hothers : ∀ j, j ≠ id → u.arena.live? j = t.arena.live? j)
    (hroots : ∀ g, (u.bucket g).roots = (t.bucket g).roots)
    (hrepair : u.needsRepair = t.needsRepair) : Adds s u new := by
  refine ⟨h.fresh, fun j hj => ?_, fun g => (hroots g).trans (h.roots g),
    hrepair.trans h.needsRepair⟩
  rw [hothers j fun e => hj (e ▸ hid), h.others j hj]

lemma dead_of_mem (h : Adds s t new) {x : RecordId} (hx : x ∈ new) :
    s.arena.isLive x = false := by
  rw [Arena.isLive, h.fresh x hx]
  rfl

/-- What was live is as it was. -/
lemma live?_eq (h : Adds s t new) {x : RecordId} (hx : s.arena.isLive x = true) :
    t.arena.live? x = s.arena.live? x := by
  refine h.others x fun hmem => ?_
  rw [h.dead_of_mem hmem] at hx
  cases hx

end Adds

/-- The barrier runs for several holders. -/
lemma notes_recordEach (xs : List RecordId) (s : Space) :
    Notes s (xs.foldl recordReferences s) fun x _ => x ∈ xs := by
  induction xs generalizing s with
  | nil => exact (Notes.refl s).mono fun x y _ _ => by simp
  | cons z xs ih =>
    have h1 := notes_recordReferences s z
    have h2 := ih (s.recordReferences z)
    exact (h1.trans h2).mono fun x y _ _ hx => List.mem_cons.1 hx

end Space

namespace Heap

open Space

variable [Environment] {strict : Prop}

/-- The barrier runs for several holders. -/
lemma changes_noteAll {limit : Nat} (xs : List RecordId) {P : List (RecordId × RecordId)}
    (s : Space) (hP : ∀ p ∈ P, p.1 ∈ xs) :
    Changes strict Unasked limit ⟨P, s⟩ ⟨[], xs.foldl Space.recordReferences s⟩ := by
  induction xs generalizing P s with
  | nil =>
    obtain rfl : P = [] := List.eq_nil_iff_forall_not_mem.2 fun p hp => by simpa using hP p hp
    exact .refl _
  | cons x xs ih =>
    have hnote : Change strict Unasked limit ⟨P, s⟩
        ⟨P.filter fun p => p.1 ≠ x, s.recordReferences x⟩ := by
      refine .noteAll fun p hp => ?_
      by_cases e : p.1 = x
      · exact .inr e
      · exact .inl (List.mem_filter.2 ⟨hp, by simpa using e⟩)
    refine (Changes.single hnote).trans (ih (s.recordReferences x) fun p hp => ?_)
    obtain ⟨hp, hne⟩ := List.mem_filter.1 hp
    exact (List.mem_cons.1 (hP p hp)).resolve_left (by simpa using hne)

/-- A copy is a new record with the type and the body of the original; no other record changes. -/
structure Copies (strict : Prop) (h h' : Heap) (type : TypeId) (o : Object) (copy : RecordId) :
    Prop where
  evolves : ∀ P, Evolves strict Unasked P (P ++ o.references.map (copy, ·)) h h'
  adds : ∀ s new, Adds s h.toSpace new → Adds s h'.toSpace (copy :: new)
  fresh : h.arena.live? copy = none
  born : ∃ r, h'.arena.live? copy = some r ∧ r.body = .object o ∧
    (h.toSpace.Typed → r.type = type)
  others : ∀ j, j ≠ copy → h'.arena.live? j = h.arena.live? j

lemma Copies.live {h h' : Heap} {type : TypeId} {o : Object} {copy j : RecordId} {r : Record}
    (hc : Copies strict h h' type o copy) (hr : h.arena.live? j = some r) :
    h'.arena.live? j = some r := by
  refine (hc.others j fun e => ?_).trans hr
  subst e
  simp [hc.fresh] at hr

lemma yields_copyRecord (strict : Prop) {id : RecordId} {h : Heap}
    {Q : Except Failure RecordId → Heap → Prop}
    (hs : h.toSpace.Sound)
    (hok : ∀ r o copy h', h.arena.live? id = some r → r.body = .object o →
      Copies strict h h' r.type o copy → Q (.ok copy) h')
    (herr : Refused h Q) : Yields (copyRecord id) h Q := by
  unfold copyRecord
  rw [yields_bind, yields_get]
  dsimp only
  split
  · exact herr _ _ rfl rfl
  · next r hr =>
    split
    · next o hb =>
      rw [yields_bind]
      refine yields_allocateBody (fun info hinfo hadmits => ?_) herr
      have hbirth := births_allocate hs.store info 0 (.object o)
      have hn := notes_refLinks (h.toSpace.allocate info 0 (.object o)).2
        (h.toSpace.allocate info 0 (.object o)).1.id r.header.refLinks
      refine hok r o _ _ hr hb ⟨fun P => ?_, fun s new hadds => ?_, hbirth.fresh, ?_,
        fun j hj => ?_⟩
      · have hfits (ht : h.toSpace.Typed) : (Body.object o).fits info.kind = true := by
          obtain ⟨info', hinfo', hfits⟩ := ht.fits id r hr
          obtain rfl := Option.some.inj (hinfo'.symm.trans hinfo)
          exact hb ▸ hfits
        have hborn : Evolves strict Unasked P
            (P ++ o.references.map ((h.toSpace.allocate info 0 (.object o)).1.id, ·)) h
            { h with toSpace := (h.toSpace.allocate info 0 (.object o)).2 } := by
          refine .single (.allocate 0 (.object o) hinfo hfits hadmits (fun o' e => ?_)
            (fun _ y hy => ?_) (fun p hp => List.mem_append_left _ hp) fun y hy => ?_)
          · exact Body.object.inj e ▸ hs.objects id r o hr hb
          · exact .inr ⟨id, r, hr, hb ▸ hy⟩
          · exact List.mem_append_right _ (List.mem_map.2 ⟨y, hy, rfl⟩)
        exact hborn.trans (.single (.refLinks _ _))
      · refine (hadds.birth hbirth).rewrite List.mem_cons_self (fun j hj => ?_) (fun _ => rfl) rfl
        exact (Arena.live?_modifyHeader _ _ _ _).trans (if_neg hj)
      · obtain ⟨seq, size, hborn⟩ := live?_allocate_self hs.store info 0 (.object o)
        obtain ⟨q, hq, e⟩ := hn.relinked.alike.live hborn
        exact ⟨q, hq, Record.body_of_core e, fun ht =>
          (congrArg (·.type) e :).trans (ht.ids _ _ hinfo)⟩
      · refine (Arena.live?_modifyHeader _ _ _ _).trans ?_
        rw [if_neg hj]
        exact hbirth.others j hj
    · exact herr _ _ rfl rfl

variable (strict) in
lemma gives_copyRecord {h : Heap} (hs : h.toSpace.Sound) (id : RecordId) :
    Gives (copyRecord id) h fun copy h' => ∃ r o, h.arena.live? id = some r ∧
      r.body = .object o ∧ Copies strict h h' r.type o copy := by
  have hcopy : Yields (copyRecord id) h fun res h' => ∀ copy, res = .ok copy →
      ∃ r o, h.arena.live? id = some r ∧ r.body = .object o ∧
        Copies strict h h' r.type o copy := by
    refine yields_copyRecord strict hs (fun r o copy h' hr hb hc copy' e => ?_)
      fun e h' _ _ copy he => by cases he
    obtain rfl := Except.ok.inj e
    exact ⟨r, o, hr, hb, hc⟩
  exact hcopy.gives.mono fun copy h' hcopied => hcopied copy rfl

/-! ### A deep clone under way -/

def Cloning.targets (c : Cloning) : List RecordId := c.copies.map (·.2)

omit [Environment] in
lemma Cloning.mem_targets {c : Cloning} {x t : RecordId} (h : (x, t) ∈ c.copies) :
    t ∈ c.targets := List.mem_map.2 ⟨_, h, rfl⟩

omit [Environment] in
lemma Cloning.mem_of_lookup {c : Cloning} {x t : RecordId} (h : c.copies.lookup x = some t) :
    (x, t) ∈ c.copies := by
  obtain ⟨l₁, l₂, e, -⟩ := List.lookup_eq_some_iff.1 h
  simp [e]

/-- A deep clone that began in `start` has come this far. -/
structure Underway (strict : Prop) (start h : Heap) (c : Cloning) : Prop where
  evolves : ∃ P, Evolves strict Unasked [] P start h ∧ ∀ p ∈ P, p.1 ∈ c.targets
  adds : Adds start.toSpace h.toSpace c.targets
  copies : ∀ t ∈ c.targets, ∃ r o, h.arena.live? t = some r ∧ r.body = .object o
  pending : ∀ t ∈ c.pending, t ∈ c.targets

/-- The first `n` slots of a copy are being filled. -/
structure Filling (strict : Prop) (start h : Heap) (c : Cloning) (copy : RecordId) (n : Nat) :
    Prop extends Underway strict start h c where
  mem : copy ∈ c.targets
  room : ∃ r o, h.arena.live? copy = some r ∧ r.body = .object o ∧ n ≤ o.count

/-- Wherever a clone stops, it has come there by changes, and only records have come about. -/
def Reached (strict : Prop) (start h : Heap) : Prop :=
  ∃ P new, Evolves strict Unasked [] P start h ∧ Adds start.toSpace h.toSpace new

section Loop

variable {start h : Heap} {c : Cloning} {copy : RecordId} {n : Nat}

lemma Underway.reached (hu : Underway strict start h c) {h' : Heap}
    (he : h'.toSpace = h.toSpace) (ho : h'.options = h.options) : Reached strict start h' := by
  obtain ⟨P, hP, -⟩ := hu.evolves
  exact ⟨P, c.targets, hP.trans (.of_eq he ho), he ▸ hu.adds⟩

lemma Underway.sound (hu : Underway strict start h c) (hs : start.toSpace.Sound) :
    h.toSpace.Sound := by
  obtain ⟨P, hP, -⟩ := hu.evolves
  exact (hP.changes.sound hs).1

/-- A copy comes to refer to another copy. -/
lemma Filling.redirect {slot : Nat} {target : RecordId} (hf : Filling strict start h c copy n)
    (hslot : slot < n) (htarget : target ∈ c.targets) :
    Yields (Heap.redirect copy slot target) h fun _ h' => Filling strict start h' c copy n := by
  obtain ⟨r, o, hr, hb, hn⟩ := hf.room
  obtain ⟨q, -, hq, -⟩ := hf.copies target htarget
  obtain ⟨P, hP, hPmem⟩ := hf.evolves
  have ho : h.arena.object? copy = some o := Arena.object?_eq_some.2 ⟨r, hr, hb⟩
  have hlive (j : RecordId) := Arena.live?_setBody h.arena copy
    (.object (o.write slot (some target))) j
  unfold Heap.redirect
  rw [yields_modifySpace]
  simp only [ho]
  refine ⟨⟨⟨(copy, target) :: P, hP.trans (.single ?_), ?_⟩, ?_, fun t ht => ?_, hf.pending⟩,
    hf.mem, ?_⟩
  · exact .redirect hr hb (Nat.lt_of_lt_of_le hslot hn) hq
      (fun p hp => List.mem_cons_of_mem _ hp) (by simp)
  · simpa using ⟨hf.mem, fun a b hp => hPmem (a, b) hp⟩
  · exact hf.adds.rewrite hf.mem (fun j hj => (hlive j).trans (if_neg hj)) (fun _ => rfl) rfl
  · obtain ⟨r', o', hr', hb'⟩ := hf.copies t ht
    simp only [hlive, hr']
    split
    · exact ⟨_, _, rfl, rfl⟩
    · exact ⟨_, _, rfl, hb'⟩
  · simp only [hlive, hr, if_true]
    exact ⟨_, _, rfl, rfl, hn⟩

/-- A copy more. -/
lemma Underway.copied {child target : RecordId} {type : TypeId} {o : Object} {h' : Heap}
    (hu : Underway strict start h c) (hc : Copies strict h h' type o target) :
    Underway strict start h' ⟨(child, target) :: c.copies, target :: c.pending⟩ := by
  obtain ⟨P, hP, hPmem⟩ := hu.evolves
  refine ⟨⟨_, hP.trans (hc.evolves P), fun p hp => ?_⟩, hc.adds _ _ hu.adds, fun t ht => ?_,
    fun t ht => ?_⟩
  · rcases List.mem_append.1 hp with hp | hp
    · exact List.mem_cons_of_mem _ (hPmem p hp)
    · obtain ⟨y, -, rfl⟩ := List.mem_map.1 hp
      exact List.mem_cons_self
  · rcases List.mem_cons.1 ht with rfl | ht
    · obtain ⟨r, hr, hb, -⟩ := hc.born
      exact ⟨r, o, hr, hb⟩
    · obtain ⟨r, o', hr, hb⟩ := hu.copies t ht
      exact ⟨r, o', hc.live hr, hb⟩
  · rcases List.mem_cons.1 ht with rfl | ht
    · exact List.mem_cons_self
    · exact List.mem_cons_of_mem _ (hu.pending t ht)

lemma Filling.copied {child target : RecordId} {type : TypeId} {o : Object} {h' : Heap}
    (hf : Filling strict start h c copy n) (hc : Copies strict h h' type o target) :
    Filling strict start h' ⟨(child, target) :: c.copies, target :: c.pending⟩ copy n := by
  obtain ⟨r, o', hr, hb, hn⟩ := hf.room
  exact ⟨hf.toUnderway.copied hc, List.mem_cons_of_mem _ hf.mem, r, o', hc.live hr, hb, hn⟩

lemma Filling.cloneSlot {slot : Nat} (hs : start.toSpace.Sound)
    (hf : Filling strict start h c copy n) (hslot : slot < n) (child : RecordId) :
    Yields (Heap.cloneSlot copy c slot child) h fun res h' => match res with
      | .ok c' => Filling strict start h' c' copy n
      | .error _ => Reached strict start h' := by
  unfold Heap.cloneSlot
  rw [yields_bind, yields_get]
  dsimp only
  split
  · exact hf
  · split
    · next target hlook =>
      have hmem : target ∈ c.targets := Cloning.mem_targets (Cloning.mem_of_lookup hlook)
      rw [yields_bind]
      refine (hf.redirect hslot hmem).mono fun res h' hf' => ?_
      rcases res with e | a
      · exact hf'.reached rfl rfl
      · exact hf'
    · rw [yields_bind]
      refine yields_copyRecord strict (hf.sound hs) (fun r o target h' _ _ hc => ?_)
        fun e h' he ho => hf.reached he ho
      have hf' : Filling strict start h' ⟨(child, target) :: c.copies, target :: c.pending⟩ copy
          n := hf.copied hc
      dsimp only
      rw [yields_bind]
      refine (hf'.redirect hslot List.mem_cons_self).mono fun res h'' hf' => ?_
      rcases res with e | a
      · exact hf'.reached rfl rfl
      · exact hf'

lemma Filling.cloneSlots (hs : start.toSpace.Sound) (values : List Slot)
    (hf : Filling strict start h c copy n) (hn : values.length ≤ n) :
    Yields (Heap.cloneSlots copy values c) h fun res h' => match res with
      | .ok c' => Filling strict start h' c' copy n
      | .error _ => Reached strict start h' := by
  have hslots : ∀ p ∈ values.zipIdx, p.2 < n := fun p hp => by
    obtain ⟨-, hlt, -⟩ := List.mem_zipIdx hp
    omega
  unfold Heap.cloneSlots
  generalize values.zipIdx = slots at hslots
  induction slots generalizing h c with
  | nil => exact hf
  | cons p slots ih =>
    rw [List.foldlM_cons, yields_bind]
    obtain ⟨v, slot⟩ := p
    refine Yields.mono (Q := fun res h' => match res with
      | .ok c' => Filling strict start h' c' copy n
      | .error _ => Reached strict start h') ?_ fun res h' hf' => ?_
    · rcases v with _ | child
      · exact hf
      · exact hf.cloneSlot hs (hslots _ List.mem_cons_self) child
    · rcases res with e | c'
      · exact hf'
      · exact ih hf' fun p hp => hslots p (List.mem_cons_of_mem _ hp)

/-- Each copy is filled in turn. -/
lemma Underway.settleCopies (hs : start.toSpace.Sound) (fuel : Nat)
    (hu : Underway strict start h c) :
    Yields (Heap.settleCopies fuel c) h fun res h' => match res with
      | .ok c' => Underway strict start h' c'
      | .error _ => Reached strict start h' := by
  induction fuel generalizing h c with
  | zero => exact hu
  | succ fuel ih =>
    unfold Heap.settleCopies
    split
    · exact hu
    · next copy rest hpend =>
      rw [yields_bind, yields_get]
      dsimp only
      split
      · exact hu.reached rfl rfl
      · next o ho =>
        obtain ⟨r, hr, hb⟩ := object_eq_ok ho
        have hmem : copy ∈ c.targets := hu.pending copy (by simp [hpend])
        have hf : Filling strict start h { c with pending := rest } copy o.count :=
          ⟨⟨hu.evolves, hu.adds, hu.copies, fun t ht => hu.pending t (by simp [hpend, ht])⟩, hmem,
            ⟨r, o, hr, hb, le_refl _⟩⟩
        have hlen : o.values.length ≤ o.count := by
          simp [Object.values]
        rw [yields_bind]
        refine (hf.cloneSlots hs o.values hlen).mono fun res h' hf' => ?_
        rcases res with e | c'
        · exact hf'
        · exact ih hf'.toUnderway

end Loop

/-- Copies have come about by changes, and then the barrier has run for each of them. -/
def Settled (strict : Prop) (h h' : Heap) (copies : List RecordId) : Prop :=
  ∃ P m, Evolves strict Unasked [] P h m ∧ (∀ p ∈ P, p.1 ∈ copies) ∧
    Adds h.toSpace m.toSpace copies ∧
    h' = { m with toSpace := copies.foldl Space.recordReferences m.toSpace }

variable (strict) in
/-- **What a clone does.** A deep one that is refused may stop after some of the copies. -/
theorem yields_cloneObject {h : Heap} (hs : h.toSpace.Sound) (id : RecordId) (deep : Bool) :
    Yields (cloneObject id deep) h fun res h' => match res with
      | .ok copy => h.arena.live? copy = none ∧ ∃ copies, Settled strict h h' copies
      | .error _ => Reached strict h h' ∧ (deep = false → h'.toSpace = h.toSpace) := by
  unfold cloneObject
  rw [yields_bind, yields_get]
  dsimp only
  rw [yields_bind]
  refine yields_copyRecord strict hs (fun r o copy h1 _ _ hc => ?_)
    fun e h' he ho => ⟨⟨[], [], .of_eq he ho, he ▸ .refl _⟩, fun _ => he⟩
  have hstart := hc.evolves []
  rw [List.nil_append] at hstart
  have hadds : Adds h.toSpace h1.toSpace [copy] := hc.adds _ _ (.refl _)
  have hholder : ∀ p ∈ o.references.map (copy, ·), p.1 ∈ [copy] := by
    intro p hp
    obtain ⟨y, -, rfl⟩ := List.mem_map.1 hp
    exact List.mem_singleton.2 rfl
  dsimp only
  split
  · next hdeep =>
    have hu : Underway strict h h1 ⟨[(id, copy)], [copy]⟩ := by
      refine ⟨⟨_, hstart, hholder⟩, hadds, fun t ht => ?_, fun t ht => ht⟩
      obtain rfl := List.mem_singleton.1 ht
      obtain ⟨q, hq, hb, -⟩ := hc.born
      exact ⟨q, o, hq, hb⟩
    rw [yields_bind]
    refine (hu.settleCopies hs _).mono fun res h2 hres => ?_
    rcases res with e | c
    · exact ⟨hres, by simp [hdeep]⟩
    · obtain ⟨P, hP, hmem⟩ := hres.evolves
      dsimp only
      rw [yields_bind, yields_modifySpace]
      refine ⟨hc.fresh, Environment.arrange _ c.copies, P, h2, hP, fun p hp => ?_, ?_, rfl⟩
      · simpa [Cloning.targets] using hmem p hp
      · obtain ⟨hfresh, hothers, hroots, hrepair⟩ := hres.adds
        refine ⟨fun j hj => hfresh j ?_, fun j hj => hothers j fun hmem => hj ?_, hroots, hrepair⟩
        · simpa [Cloning.targets] using hj
        · simpa [Cloning.targets] using hmem
  · rw [yields_bind, yields_modifySpace]
    exact ⟨hc.fresh, [copy], _, h1, hstart, hholder, hadds, rfl⟩

variable (strict) in
/-- **A clone consists of changes.** If it is shallow or succeeds it leaves nothing to note. -/
theorem evolves_cloneObject {h : Heap} (hs : h.toSpace.Sound) (id : RecordId) (deep : Bool) :
    Yields (cloneObject id deep) h fun res h' => ∃ P,
      Evolves strict Unasked [] P h h' ∧
      (deep = false ∨ (∃ copy, res = .ok copy) → P = []) ∧
      ∀ copy, res = .ok copy → h.arena.live? copy = none := by
  refine (yields_cloneObject strict hs id deep).mono fun res h' hres => ?_
  rcases res with e | copy
  · obtain ⟨⟨P, new, hP, -⟩, hsame⟩ := hres
    rcases deep with _ | _
    · exact ⟨[], .of_eq (hsame rfl) hP.options, fun _ => rfl, by simp⟩
    · exact ⟨P, hP, by simp, by simp⟩
  · obtain ⟨hfresh, copies, P, m, hP, hmem, -, rfl⟩ := hres
    refine ⟨[], hP.trans ⟨rfl, changes_noteAll _ _ hmem⟩, fun _ => rfl, ?_⟩
    rintro _ he
    obtain rfl := Except.ok.inj he
    exact hfresh

end Heap

end ScriptHeap
