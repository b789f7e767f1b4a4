import ScriptHeap.Proofs.Requests
import ScriptHeap.Proofs.Turnover

/-!
The changes that operations are made of, and what each of them preserves. A change is written down
together with the references that the write barrier has still to note. Any sequence of changes
keeps the space sound. A sequence is strict if it stores references to live records only and
collects only when it is calm and nothing is left to note; it keeps the space closed and covered as
well.
-/

namespace ScriptHeap.Space

/-- The record is live, or some live record refers to it. -/
def Held (s : Space) (y : RecordId) : Prop :=
  (∃ q, s.arena.live? y = some q) ∨ ∃ x r, s.arena.live? x = some r ∧ y ∈ r.body.references

lemma Held.live {s : Space} (hc : s.arena.Closed) {y : RecordId} (h : s.Held y) :
    ∃ q, s.arena.live? y = some q := by
  rcases h with h | ⟨x, r, hr, hy⟩
  · exact h
  · exact hc x r y hr hy

/-! ### Births -/

/-- A live record more, of the generation that is allocated into. -/
structure Births (s s' : Space) (id : RecordId) (body : Body) : Prop where
  fresh : s.arena.live? id = none
  born : ∃ r, s'.arena.live? id = some r ∧ r.body = body ∧ r.header.marked = false ∧
    r.header.rootLinks = ∅ ∧ r.header.generation = s.collector.allocGeneration
  others : ∀ j, j ≠ id → s'.arena.live? j = s.arena.live? j
  store : s'.toStore.Sound
  arrivals : ∀ g, (s'.bucket g).arrivals =
    if g = s.collector.allocGeneration then id :: (s.bucket g).arrivals else (s.bucket g).arrivals
  roots : ∀ g, (s'.bucket g).roots = (s.bucket g).roots
  phase : s'.collector.phase = s.collector.phase
  worklist : s'.collector.worklist = s.collector.worklist
  needsRepair : s'.needsRepair = s.needsRepair
  rootCapacity : s'.collector.rootCapacity = s.collector.rootCapacity

/-- A new record joins the bucket that is allocated into. -/
lemma bucket_allocate [Environment] (s : Space) (info : TypeInfo) (extra : Nat) (body : Body)
    (g : Gen) :
    (s.allocate info extra body).2.bucket g = if g = s.collector.allocGeneration then
      (s.bucket g).link (s.allocate info extra body).1.id else s.bucket g := by
  refine (Collector.bucket_updateBucket _ s.collector.allocGeneration (·.link _) g).trans ?_
  split
  · next e => rw [e]; rfl
  · rfl

theorem births_allocate [Environment] {s : Space} (hs : s.toStore.Sound) (info : TypeInfo)
    (extra : Nat) (body : Body) :
    Births s (s.allocate info extra body).2 (s.allocate info extra body).1.id body := by
  have ha := Store.allocates_allocate hs info extra body
  have hbucket := bucket_allocate s info extra body
  set id := (s.allocate info extra body).1.id with hid
  obtain ⟨seq, size, hborn⟩ := live?_allocate_self hs info extra body
  refine ⟨ha.fresh, ⟨_, hborn, rfl, rfl, rfl, rfl⟩, fun j hj => live?_allocate_ne hs hj, ?_,
    fun g => ?_, fun g => ?_, rfl, rfl, rfl, rfl⟩
  · exact ha.sound.of_sameShape (Arena.sameShape_modify _ _ _)
  · rw [hbucket]
    split <;> rfl
  · rw [hbucket]
    split <;> rfl

namespace Births

variable {s s' : Space} {id : RecordId} {body : Body} (h : Births s s' id body)
include h

/-- A live record is the new one or was live before. -/
lemma live' {j : RecordId} {q : Record} (hq : s'.arena.live? j = some q) :
    (j = id ∧ q.body = body ∧ q.header.marked = false ∧ q.header.rootLinks = ∅ ∧
      q.header.generation = s.collector.allocGeneration) ∨ s.arena.live? j = some q := by
  by_cases hj : j = id
  · subst hj
    obtain ⟨r, hr, e⟩ := h.born
    rw [hq] at hr
    exact .inl ⟨rfl, Option.some.inj hr ▸ e⟩
  · exact .inr (h.others j hj ▸ hq)

lemma live {j : RecordId} {r : Record} (hr : s.arena.live? j = some r) :
    j ≠ id ∧ s'.arena.live? j = some r := by
  have hj : j ≠ id := fun e => by
    subst e
    simp [h.fresh] at hr
  exact ⟨hj, (h.others j hj).trans hr⟩

lemma sound (hs : s.Sound) (ho : ∀ o, body = .object o → o.Sound) : s'.Sound := by
  have hnot (g : Gen) : id ∉ (s.bucket g).roots := fun hid => by
    obtain ⟨r, hr⟩ := (hs.listed.live g id hid).resolve_left not_false
    simp [h.fresh] at hr
  refine ⟨h.store, ⟨fun g j => ?_, fun g => ?_⟩, ⟨fun g j q hq => ?_, fun g j q hq hj => ?_,
    fun g j hj => .inr ?_, fun g => ?_, fun g => ?_⟩, fun j q hq => ?_, h.phase.trans hs.idle,
    h.worklist.trans hs.worklist, fun j q o hq hb => ?_⟩
  · rw [h.arrivals]
    have hold := hs.binned.mem g j
    by_cases hj : j = id
    · subst hj
      obtain ⟨r, hr, -, -, -, hgen⟩ := h.born
      rw [h.fresh] at hold
      split
      · next e => simp [hr, hgen, e]
      · next e => simp [hr, hgen, Ne.symm e, hold]
    · rw [h.others j hj, ← hold]
      split <;> simp [hj]
  · rw [h.arrivals]
    split
    · refine List.nodup_cons.2 ⟨fun hm => ?_, hs.binned.nodup g⟩
      obtain ⟨r, hr, -⟩ := (hs.binned.mem g id).1 hm
      simp [h.fresh] at hr
    · exact hs.binned.nodup g
  · rw [h.roots]
    rcases h.live' hq with ⟨rfl, -, -, e, -⟩ | hq
    · simp [e, hnot g]
    · exact hs.listed.mem g j q hq
  · rw [h.roots] at hj
    rcases h.live' hq with ⟨rfl, -⟩ | hq
    · exact absurd hj (hnot g)
    · exact hs.listed.elder g j q hq hj
  · rw [h.roots] at hj
    obtain ⟨r, hr⟩ := (hs.listed.live g j hj).resolve_left not_false
    exact ⟨r, (h.live hr).2⟩
  · rw [h.roots]
    exact hs.listed.nodup g
  · rw [h.roots, h.rootCapacity]
    exact hs.listed.length_le g
  · rcases h.live' hq with ⟨-, -, e, -⟩ | hq
    · exact e
    · exact hs.unmarked j q hq
  · rcases h.live' hq with ⟨-, e, -⟩ | hq
    · exact ho o (e ▸ hb)
    · exact hs.objects j q o hq hb

/-- No record refers to the new one yet, since records refer to live records only. -/
lemma closed (hc : s.arena.Closed) (hrefs : ∀ y ∈ body.references, s.Held y) :
    s'.arena.Closed := by
  intro x q y hq hy
  have hlive : ∃ r, s.arena.live? y = some r := by
    rcases h.live' hq with ⟨-, e, -⟩ | hq
    · exact (hrefs y (e ▸ hy)).live hc
    · exact hc x q y hq hy
  obtain ⟨r, hr⟩ := hlive
  exact ⟨r, (h.live hr).2⟩

lemma covered {pending pending' : List (RecordId × RecordId)} (hc : s.arena.Closed)
    (hcov : s.Covered pending) (hP : ∀ p ∈ pending, p ∈ pending')
    (hnew : ∀ y ∈ body.references, (id, y) ∈ pending') : s'.Covered pending' := by
  rintro hn x y g hx ⟨r, q, hr, hy, hq, hp, hg, hlt⟩
  simp only [h.roots]
  rcases h.live' hr with ⟨rfl, e, -⟩ | hr
  · exact absurd (hnew y (e ▸ hy)) hx
  · obtain ⟨q', hq'⟩ := hc x r y hr hy
    obtain rfl := Option.some.inj (hq.symm.trans (h.live hq').2)
    have hx' : (x, y) ∉ pending := fun hm => hx (hP _ hm)
    exact hcov (h.needsRepair ▸ hn) x y g hx' ⟨r, q, hr, hy, hq', hp, hg, hlt⟩

end Births

/-! ### Other bodies -/

/-- One live record has another body, which refers to nothing but what is told. -/
structure Rewrites (s s' : Space) (id : RecordId) (body : Body) : Prop where
  live : ∀ r, s.arena.live? id = some r → s'.arena.live? id = some { r with body }
  others : ∀ j, j ≠ id → s'.arena.live? j = s.arena.live? j
  resembles : Resembles s s'
  store : s.toStore.Sound → s'.toStore.Sound
  needsRepair : s'.needsRepair = s.needsRepair

/-- Only the body and the charge change. -/
lemma rewrites_setBody (s : Space) (id : RecordId) (body : Body) (stats : Stats) :
    Rewrites s { s with
      arena := s.arena.setBody id body
      collector := { s.collector with stats } } id body := by
  have hlive (j : RecordId) := Arena.live?_setBody s.arena id body j
  refine ⟨fun q hq => ?_, fun j hj => ?_, ⟨fun j q hq => ?_, fun j hj => ?_, rfl, rfl, rfl, rfl⟩,
    fun hs => hs.of_sameShape (Arena.sameShape_modify _ _ _), rfl⟩
  · rw [hlive, if_pos rfl, hq]
    rfl
  · rw [hlive, if_neg hj]
  · rw [hlive, hq]
    split <;> exact ⟨_, rfl, rfl, rfl, rfl⟩
  · rw [hlive, hj]
    split <;> rfl

namespace Rewrites

variable {s s' : Space} {id : RecordId} {r : Record} {body : Body} (h : Rewrites s s' id body)
  (hr : s.arena.live? id = some r)
include h hr

/-- A live record has the new body, or is what it was. -/
lemma live' {j : RecordId} {q : Record} (hq : s'.arena.live? j = some q) :
    (j = id ∧ q = { r with body }) ∨ s.arena.live? j = some q := by
  by_cases hj : j = id
  · subst hj
    exact .inl ⟨rfl, Option.some.inj (hq.symm.trans (h.live r hr))⟩
  · exact .inr (h.others j hj ▸ hq)

lemma sound (hs : s.Sound) (ho : ∀ o, body = .object o → o.Sound) : s'.Sound := by
  refine h.resembles.sound hs (h.store hs.store) fun j q o hq hb => ?_
  rcases h.live' hr hq with ⟨-, rfl⟩ | hq
  · exact ho o hb
  · exact hs.objects j q o hq hb

lemma closed (hc : s.arena.Closed)
    (hrefs : ∀ y ∈ body.references, ∃ q, s.arena.live? y = some q) : s'.arena.Closed := by
  intro x q y hq hy
  have hlive : ∃ p, s.arena.live? y = some p := by
    rcases h.live' hr hq with ⟨-, rfl⟩ | hq
    · exact hrefs y hy
    · exact hc x q y hq hy
  obtain ⟨p, hp⟩ := hlive
  obtain ⟨p', hp', -⟩ := h.resembles.live y p hp
  exact ⟨p', hp'⟩

lemma covered {pending pending' : List (RecordId × RecordId)} (hcov : s.Covered pending)
    (hP : ∀ p ∈ pending, p ∈ pending')
    (hnew : ∀ y ∈ body.references, y ∈ r.body.references ∨ (id, y) ∈ pending') :
    s'.Covered pending' := by
  rintro hn x y g hx ⟨q, p, hq, hy, hp, hperm, hg, hlt⟩
  simp only [h.resembles.bucket]
  -- the header of the target is the same, whatever became of its body
  have htarget : ∃ p', s.arena.live? y = some p' ∧ p.header = p'.header := by
    rcases h.live' hr hp with ⟨rfl, rfl⟩ | hp
    · exact ⟨r, hr, rfl⟩
    · exact ⟨p, hp, rfl⟩
  obtain ⟨p', hp', e⟩ := htarget
  rw [e] at hperm hg
  have hx' : (x, y) ∉ pending := fun hm => hx (hP _ hm)
  refine hcov (h.needsRepair ▸ hn) x y g hx' ?_
  rcases h.live' hr hq with ⟨rfl, rfl⟩ | hq
  · exact ⟨r, p', hr, (hnew y hy).resolve_right hx, hp', hperm, hg, hlt⟩
  · exact ⟨q, p', hq, hy, hp', hperm, hg, hlt⟩

end Rewrites

/-! ### The barrier -/

namespace Notes

variable {s s' : Space} {noted : RecordId → RecordId → Prop} (h : Notes s s' noted)
include h

lemma sound (hs : s.Sound) : s'.Sound := by
  have hrel := h.relinked
  have hsetup := setup_of_bare hrel.bare
  have hstore : s'.toStore = { s.toStore with arena := s'.arena } :=
    congrArg (Store.mk s'.arena) (pools_of_bare hrel.bare)
  refine ⟨hstore ▸ hs.store.of_sameShape hrel.alike.shape,
    hs.binned.of_alike hrel.alike (arrivals_of_bare hrel.bare), h.listed _ hs.listed,
    fun id q hq => ?_, (phase_of_setup hsetup).trans hs.idle,
    (worklist_of_setup hsetup).trans hs.worklist, fun id q o hq ho => ?_⟩
  · obtain ⟨r, hr, -⟩ := hrel.alike.live' hq
    exact (hrel.marks id r q hr hq).trans (hs.unmarked id r hr)
  · obtain ⟨r, hr, e⟩ := hrel.alike.live' hq
    exact hs.objects id r o hr (Record.body_of_core e ▸ ho)

lemma closed (hc : s.arena.Closed) : s'.arena.Closed := by
  have halike := h.relinked.alike
  intro x q y hq hy
  obtain ⟨r, hr, e⟩ := halike.live' hq
  obtain ⟨p, hp⟩ := hc x r y hr (Record.body_of_core e ▸ hy)
  obtain ⟨p', hp', -⟩ := halike.live hp
  exact ⟨p', hp'⟩

lemma covered (hs : s.Sound) {pending pending' : List (RecordId × RecordId)}
    (hcov : s.Covered pending) (hP : ∀ p ∈ pending, p ∈ pending' ∨ noted p.1 p.2) :
    s'.Covered pending' := by
  have hrel := h.relinked
  intro hn x y g hx hcross
  replace hcross := hcross.of_alike hrel.alike
  by_cases hm : (x, y) ∈ pending
  · have hnoted : noted x y := (hP _ hm).resolve_left hx
    rcases h.noted _ hs.listed x y g hnoted hcross with hmem | ho
    · exact ⟨g, le_refl _, hmem⟩
    · simp [needsRepair, ho] at hn
  · have hn' := needsRepair_of_relisted hrel.toRelisted hn
    obtain ⟨j, hj, hmem⟩ := hcov hn' x y g hm hcross
    exact ⟨j, hj, hrel.roots j x hmem⟩

end Notes

/-! ### Permanence and pruning -/

/-- Whether a record is permanent has no bearing on where it is. -/
lemma resembles_permanent (s : Space) (id : RecordId) (permanent pendingFull : Bool) :
    Resembles s { s with
      arena := s.arena.modifyHeader id ({ · with permanent })
      collector := { s.collector with pendingFull } } := by
  have hlive (j : RecordId) := Arena.live?_modifyHeader s.arena id ({ · with permanent }) j
  refine ⟨fun j r hr => ?_, fun j hj => ?_, rfl, rfl, rfl, rfl⟩
  · rw [hlive, hr]
    split <;> exact ⟨_, rfl, rfl, rfl, rfl⟩
  · rw [hlive, hj]
    split <;> rfl

lemma live_permanent {s : Space} {id : RecordId} {permanent : Bool} {j : RecordId} {q : Record}
    (hq : (s.arena.modifyHeader id ({ · with permanent })).live? j = some q) :
    ∃ r, s.arena.live? j = some r ∧ q.body = r.body ∧
      q.header.generation = r.header.generation ∧
      (q.header.permanent = r.header.permanent ∨ q.header.permanent = permanent) := by
  rw [Arena.live?_modifyHeader] at hq
  split at hq
  · obtain ⟨r, hr, rfl⟩ := Option.map_eq_some_iff.1 hq
    exact ⟨r, hr, rfl, rfl, .inr rfl⟩
  · exact ⟨q, hq, rfl, rfl, .inl rfl⟩

/-- A record that has become permanent is none that a reference has to be noted for. -/
lemma crosses_of_pinned {s : Space} {id x y : RecordId} {g : Gen}
    (h : (s.arena.modifyHeader id ({ · with permanent := true })).Crosses x y g) :
    s.arena.Crosses x y g := by
  obtain ⟨r', q', hr', hy, hq', hp, hg, hlt⟩ := h
  obtain ⟨r, hr, er, egr, -⟩ := live_permanent hr'
  obtain ⟨q, hq, -, egq, hperm⟩ := live_permanent hq'
  have hperm' : q'.header.permanent = q.header.permanent := hperm.resolve_right (by simp [hp])
  rw [er] at hy
  rw [hperm'] at hp
  rw [egq] at hg
  rw [egr] at hlt
  exact ⟨r, q, hr, hy, hq, hp, hg, hlt⟩

lemma sound_permanent {s : Space} (hs : s.Sound) (id : RecordId) (permanent pendingFull : Bool) :
    ({ s with
      arena := s.arena.modifyHeader id ({ · with permanent })
      collector := { s.collector with pendingFull } } : Space).Sound := by
  refine (resembles_permanent s id permanent pendingFull).sound hs
    (hs.store.of_sameShape (Arena.sameShape_modify _ _ _)) fun j q o hq ho => ?_
  obtain ⟨r, hr, e, -⟩ := live_permanent hq
  exact hs.objects j r o hr (e ▸ ho)

lemma closed_permanent {s : Space} (hc : s.arena.Closed) (id : RecordId) (permanent : Bool) :
    (s.arena.modifyHeader id ({ · with permanent })).Closed := by
  intro x q y hq hy
  obtain ⟨r, hr, e, -⟩ := live_permanent hq
  obtain ⟨p, hp⟩ := hc x r y hr (e ▸ hy)
  obtain ⟨p', hp', -⟩ := (resembles_permanent s id permanent false).live y p hp
  exact ⟨p', hp'⟩

lemma live?_prune {s : Space} (hs : s.Sound) (id : RecordId) :
    s.prune.2.arena.live? id = s.arena.live? id := hs.store.live?_prune id

lemma resembles_prune {s : Space} (hs : s.Sound) : Resembles s s.prune.2 :=
  ⟨fun id r hr => ⟨r, by rw [live?_prune hs, hr], rfl, rfl, rfl⟩,
    fun id hr => by rw [live?_prune hs, hr], rfl, rfl, rfl, rfl⟩

/-! ### Changes -/

/-- A space, and the references that the barrier has still to note, each with its holder. -/
structure Draft where
  pending : List (RecordId × RecordId)
  space : Space

/-- What only the host can ask for. -/
inductive Command where
  | collect
  | allocateInto
deriving DecidableEq

/-- The host has asked for nothing. -/
abbrev Unasked : Command → Prop := fun _ => False

/-- One change. What is pending may grow at will, but only the barrier takes from it. Collections
and other generations to allocate into take place only if they may. -/
inductive Change [Environment] (strict : Prop) (may : Command → Prop) (limit : Nat) :
    Draft → Draft → Prop
  | allocate {P Q : List (RecordId × RecordId)} {s : Space} {type : TypeId} {info : TypeInfo}
    (extra : Nat) (body : Body) : s.types.get? type = some info →
    (s.Typed → body.fits info.kind = true) →
    s.Admits limit type (info.instanceSize + extra + body.storageBytes) →
    (∀ o, body = .object o → o.Sound) →
    (strict → ∀ y ∈ body.references, s.Held y) → (∀ p ∈ P, p ∈ Q) →
    (∀ y ∈ body.references, ((s.allocate info extra body).1.id, y) ∈ Q) →
    Change strict may limit ⟨P, s⟩ ⟨Q, (s.allocate info extra body).2⟩
  | write {P Q : List (RecordId × RecordId)} {s : Space} {id : RecordId} {r : Record}
    {o o' : Object} {v : Slot} : s.arena.live? id = some r → r.body = .object o →
    o.Becomes o' v →
    (o.Sound → o'.storageBytes ≤ o.storageBytes ∨
      s.usedMemory + (o'.storageBytes - o.storageBytes) ≤ limit) →
    (∀ y, v = some y → ∃ q, s.arena.live? y = some q) → (∀ p ∈ P, p ∈ Q) →
    (∀ y, v = some y → (id, y) ∈ Q) →
    Change strict may limit ⟨P, s⟩
      ⟨Q, ({ s with arena := s.arena.setBody id (.object o') } : Space).track
        ((o'.storageBytes : Int) - o.storageBytes)⟩
  | redirect {P Q : List (RecordId × RecordId)} {s : Space} {id slot target : RecordId}
    {r q : Record} {o : Object} : s.arena.live? id = some r → r.body = .object o →
    slot < o.count → s.arena.live? target = some q → (∀ p ∈ P, p ∈ Q) → (id, target) ∈ Q →
    Change strict may limit ⟨P, s⟩
      ⟨Q, { s with arena := s.arena.setBody id (.object (o.write slot (some target))) }⟩
  | install {P Q : List (RecordId × RecordId)} {s : Space} {id : RecordId} {r : Record}
    {p : Payload} : s.arena.live? id = some r → r.body.kind? = some .native →
    (strict → ∀ y ∈ p.references, s.Held y) →
    (∀ p ∈ P, p ∈ Q) → (∀ y ∈ p.references, (id, y) ∈ Q) →
    Change strict may limit ⟨P, s⟩ ⟨Q, { s with arena := s.arena.setBody id (.native p) }⟩
  | note {P Q : List (RecordId × RecordId)} {s : Space} {x y : RecordId} :
    (∀ p ∈ P, p ∈ Q ∨ p = (x, y)) →
    Change strict may limit ⟨P, s⟩ ⟨Q, s.recordReference x (some y)⟩
  | noteAll {P Q : List (RecordId × RecordId)} {s : Space} {x : RecordId} :
    (∀ p ∈ P, p ∈ Q ∨ p.1 = x) → Change strict may limit ⟨P, s⟩ ⟨Q, s.recordReferences x⟩
  | refLinks {P : List (RecordId × RecordId)} {s : Space} (x : RecordId) (refLinks : GenSet) :
    Change strict may limit ⟨P, s⟩ ⟨P, s.modifyHeader x ({ · with refLinks })⟩
  | pin {P : List (RecordId × RecordId)} {s : Space} (x : RecordId) :
    Change strict may limit ⟨P, s⟩ ⟨P, s.modifyHeader x ({ · with permanent := true })⟩
  | unpin {P : List (RecordId × RecordId)} {s : Space} (x : RecordId) :
    Change strict may limit ⟨P, s⟩ ⟨P, { s.modifyHeader x ({ · with permanent := false }) with
      collector := { s.collector with pendingFull := true } }⟩
  | collect {P : List (RecordId × RecordId)} {s : Space} (mode : Mode) (roots : List RecordId) :
    may .collect → (strict → P = [] ∧ s.Calm mode roots) →
    Change strict may limit ⟨P, s⟩ ⟨P, (s.collect mode roots).2⟩
  | prune {P : List (RecordId × RecordId)} {s : Space} :
    Change strict may limit ⟨P, s⟩ ⟨P, s.prune.2⟩
  | emit {P : List (RecordId × RecordId)} {s : Space} (e : Event) :
    Change strict may limit ⟨P, s⟩ ⟨P, s.emit e⟩
  | countRedline {P : List (RecordId × RecordId)} {s : Space} :
    Change strict may limit ⟨P, s⟩ ⟨P, { s with collector := { s.collector with
      stats := { s.collector.stats with
        totalRedlines := s.collector.stats.totalRedlines + 1 } } }⟩
  | enable {P : List (RecordId × RecordId)} {s : Space} (on : Bool) :
    Change strict may limit ⟨P, s⟩ ⟨P, { s with collector := { s.collector with enabled := on } }⟩
  | allocateInto {P : List (RecordId × RecordId)} {s : Space} (g : Gen) : may .allocateInto →
    Change strict may limit ⟨P, s⟩
      ⟨P, { s with collector := { s.collector with allocGeneration := g } }⟩
  | define {P : List (RecordId × RecordId)} {s : Space} (d : TypeDef) :
    Change strict may limit ⟨P, s⟩ ⟨P, { s with types := (s.types.define d).2 }⟩

variable [Environment] {strict : Prop} {may : Command → Prop} {limit : Nat} {d d' : Draft}

/-- **A change keeps the space sound.** -/
theorem Change.sound (h : Change strict may limit d d') (hs : d.space.Sound) : d'.space.Sound := by
  cases h with
  | allocate extra body _ _ _ ho _ _ _ =>
    exact (births_allocate hs.store _ extra body).sound hs ho
  | write hr hbody hb _ _ _ _ =>
    refine (rewrites_setBody _ _ _ _).sound hr hs fun o' e => ?_
    obtain rfl := Body.object.inj e
    exact (hb (hs.objects _ _ _ hr hbody)).1
  | redirect hr hbody hslot _ _ _ =>
    refine (rewrites_setBody _ _ _ _).sound hr hs fun o' e => ?_
    obtain rfl := Body.object.inj e
    exact (Object.becomes_write (.inl hslot) (hs.objects _ _ _ hr hbody)).1
  | install hr _ _ _ _ => exact (rewrites_setBody _ _ _ _).sound hr hs fun o e => by cases e
  | note _ => exact (notes_recordReference _ _ _).sound hs
  | noteAll _ => exact (notes_recordReferences _ _).sound hs
  | refLinks x refLinks => exact (notes_refLinks _ x refLinks).sound hs
  | pin x => exact sound_permanent hs x true _
  | unpin x => exact sound_permanent hs x false true
  | collect mode roots _ => exact (passRun_collect hs mode roots).sound hs
  | prune =>
    exact (resembles_prune hs).sound hs hs.store.prune fun id q o hq =>
      hs.objects id q o (live?_prune hs id ▸ hq)
  | emit _ | countRedline | enable _ | allocateInto _ | define _ =>
    refine Quiet.sound ?_ hs
    exact ⟨rfl, rfl, rfl, rfl, rfl, rfl, rfl, rfl⟩

/-- **A strict change keeps the space steady**, but for what is pending. -/
theorem Change.steady (h : Change strict may limit d d') (hstrict : strict)
    (hs : d.space.Steady d.pending) : d'.space.Steady d'.pending := by
  have hsound := h.sound hs.toSound
  obtain ⟨hs, hc, hcov⟩ := hs
  cases h with
  | @allocate _ _ s _ info extra body _ _ _ _ hrefs hP hnew =>
    have hb := births_allocate hs.store info extra body
    have hclosed := hb.closed hc (hrefs hstrict)
    have hcovered := hb.covered hc hcov hP hnew
    exact ⟨hsound, hclosed, hcovered⟩
  | @write _ _ s id _ o o' v hr hbody hb _ hv hP hnew =>
    have hw := rewrites_setBody s id (.object o')
      (s.collector.stats.track ((o'.storageBytes : Int) - o.storageBytes))
    obtain ⟨-, hrefs⟩ := hb (hs.objects _ _ _ hr hbody)
    refine ⟨hsound, hw.closed hr hc fun y hy => ?_, hw.covered hr hcov hP fun y hy => ?_⟩
    · rcases hrefs y hy with hy | e
      · exact hc _ _ y hr (hbody ▸ hy)
      · exact hv y e
    · rcases hrefs y hy with hy | e
      · exact .inl (hbody ▸ hy)
      · exact .inr (hnew y e)
  | @redirect _ _ s id slot target _ _ o hr hbody hslot hq hP hnew =>
    have hw := rewrites_setBody s id (.object (o.write slot (some target))) s.collector.stats
    obtain ⟨-, hrefs⟩ := Object.becomes_write (.inl hslot) (hs.objects _ _ _ hr hbody)
    refine ⟨hsound, hw.closed hr hc fun y hy => ?_, hw.covered hr hcov hP fun y hy => ?_⟩
    · rcases hrefs y hy with hy | e
      · exact hc _ _ y hr (hbody ▸ hy)
      · obtain rfl := Option.some.inj e
        exact ⟨_, hq⟩
    · rcases hrefs y hy with hy | e
      · exact .inl (hbody ▸ hy)
      · obtain rfl := Option.some.inj e
        exact .inr hnew
  | @install _ _ s id _ p hr _ hrefs hP hnew =>
    have hw := rewrites_setBody s id (.native p) s.collector.stats
    refine ⟨hsound, hw.closed hr hc fun y hy => ?_, hw.covered hr hcov hP fun y hy => ?_⟩
    · exact (hrefs hstrict y hy).live hc
    · exact .inr (hnew y hy)
  | @note _ _ s x y hP =>
    have hn := notes_recordReference s x y
    refine ⟨hsound, hn.closed hc, hn.covered hs hcov fun p hp => ?_⟩
    rcases hP p hp with hp | rfl
    · exact .inl hp
    · exact .inr ⟨rfl, rfl⟩
  | @noteAll _ _ s x hP =>
    have hn := notes_recordReferences s x
    exact ⟨hsound, hn.closed hc, hn.covered hs hcov hP⟩
  | @refLinks _ s x refLinks =>
    have hn := notes_refLinks s x refLinks
    exact ⟨hsound, hn.closed hc, hn.covered hs hcov fun p hp => .inl hp⟩
  | pin x =>
    refine ⟨hsound, closed_permanent hc x true, fun hn y z g hm hcross => ?_⟩
    exact hcov hn y z g hm (crosses_of_pinned hcross)
  | unpin x => exact ⟨hsound, closed_permanent hc x false, fun hn => by simp [needsRepair] at hn⟩
  | collect mode roots _ hcalm =>
    obtain ⟨rfl, hcalm'⟩ := hcalm hstrict
    exact Steady.collect ⟨hs, hc, hcov⟩ hcalm'
  | prune =>
    refine ⟨hsound, fun x r y hr hy => ?_, fun hn x y g hm hcross => ?_⟩
    · obtain ⟨q, hq⟩ := hc x r y (live?_prune hs x ▸ hr) hy
      exact ⟨q, (live?_prune hs y).trans hq⟩
    · obtain ⟨r, q, hr, hy, hq, hrest⟩ := hcross
      exact hcov hn x y g hm ⟨r, q, live?_prune hs x ▸ hr, hy, live?_prune hs y ▸ hq, hrest⟩
  | emit _ | countRedline | enable _ | allocateInto _ | define _ =>
    refine ⟨hsound, hc, Quiet.covered ?_ hcov⟩
    exact ⟨rfl, rfl, rfl, rfl, rfl, rfl, rfl, rfl⟩

/-- The capacity of the root tables is fixed. -/
lemma Change.rootCapacity (h : Change strict may limit d d') (hs : d.space.Sound) :
    d'.space.collector.rootCapacity = d.space.collector.rootCapacity := by
  cases h with
  | note _ =>
    exact rootCapacity_of_setup (setup_of_bare (notes_recordReference _ _ _).relinked.bare)
  | noteAll _ =>
    exact rootCapacity_of_setup (setup_of_bare (notes_recordReferences _ _).relinked.bare)
  | collect mode roots _ => exact (passRun_collect hs mode roots).rootCapacity
  | _ => rfl

/-- What a change does to the stock of records. -/
theorem Change.turnover (h : Change strict may limit d d') (hs : d.space.Sound) :
    Turnover limit d.space d'.space := by
  cases h with
  | allocate extra body hinfo hfits hadmits _ _ _ _ =>
    exact .single (.allocate extra body hinfo hfits hadmits)
  | @write _ _ s id r o o' _ hr hbody hb hgrow _ _ _ =>
    have hkind : (Body.object o').kind? = r.body.kind? := by
      rw [hbody]
      rfl
    have hroom : (Body.object o').storageBytes ≤ r.body.storageBytes ∨
        s.usedMemory + ((Body.object o').storageBytes - r.body.storageBytes) ≤ limit := by
      rw [hbody]
      exact hgrow (hs.objects id r o hr hbody)
    have hstep := Turn.resize hr hkind hroom
    rw [hbody] at hstep
    exact .single hstep
  | @redirect _ _ s id slot target r _ o hr hbody _ _ _ _ =>
    refine .retain ⟨Arena.sameStock_modify _ fun r' hr' => ?_, rfl, rfl, rfl⟩
    obtain rfl := Option.some.inj (hr.symm.trans hr')
    have hstorage : (o.write slot (some target)).storageBytes = o.storageBytes := by
      simp [Object.storageBytes]
    simp only [Record.stock, hbody, Body.storageBytes, Body.kind?, hstorage]
  | install hr hkind _ _ _ =>
    refine .retain ⟨Arena.sameStock_modify _ fun r' hr' => ?_, rfl, rfl, rfl⟩
    obtain rfl := Option.some.inj (hr.symm.trans hr')
    rw [Record.stock, Record.stock, hkind, Body.storageBytes_of_native hkind]
    rfl
  | note _ => exact .retain (.of_relisted (notes_recordReference _ _ _).relinked.toRelisted)
  | noteAll _ => exact .retain (.of_relisted (notes_recordReferences _ _).relinked.toRelisted)
  | refLinks x refLinks => exact .retain (.modifyHeader _ _ fun _ => rfl)
  | pin x => exact .retain (.modifyHeader _ _ fun _ => rfl)
  | @unpin _ s x =>
    have h1 : Retains s (s.modifyHeader x ({ · with permanent := false })) :=
      .modifyHeader _ _ fun _ => rfl
    exact .retain (h1.trans ⟨.refl _, rfl, rfl, rfl⟩)
  | collect mode roots _ => exact turnover_collect _ mode roots
  | prune => exact .single .prune
  | define d => exact .single (.define d)
  | emit _ | countRedline | enable _ | allocateInto _ =>
    exact .retain ⟨.refl _, rfl, rfl, rfl⟩

lemma Change.mono {may' : Command → Prop} (h : Change strict may limit d d')
    (hmay : ∀ c, may c → may' c) : Change strict may' limit d d' := by
  cases h with
  | collect mode roots hc hcalm => exact .collect mode roots (hmay _ hc) hcalm
  | allocateInto g hg => exact .allocateInto g (hmay _ hg)
  | _ => constructor <;> assumption

/-- A sequence of changes. -/
def Changes (strict : Prop) (may : Command → Prop) (limit : Nat) : Draft → Draft → Prop :=
  Relation.ReflTransGen (Change strict may limit)

namespace Changes

lemma refl (d : Draft) : Changes strict may limit d d := Relation.ReflTransGen.refl

lemma of_eq {P : List (RecordId × RecordId)} {s s' : Space} (e : s' = s) :
    Changes strict may limit ⟨P, s⟩ ⟨P, s'⟩ := e ▸ refl _

lemma single (h : Change strict may limit d d') : Changes strict may limit d d' :=
  Relation.ReflTransGen.single h

lemma trans {d'' : Draft} (h : Changes strict may limit d d')
    (k : Changes strict may limit d' d'') : Changes strict may limit d d'' :=
  Relation.ReflTransGen.trans h k

lemma mono {may' : Command → Prop} (h : Changes strict may limit d d')
    (hmay : ∀ c, may c → may' c) : Changes strict may' limit d d' :=
  Relation.ReflTransGen.mono (fun _ _ hstep => Change.mono hstep hmay) _ _ h

/-- **Changes keep the space sound**, and the capacity of its tables. -/
theorem sound (h : Changes strict may limit d d') (hs : d.space.Sound) : d'.space.Sound ∧
    d'.space.collector.rootCapacity = d.space.collector.rootCapacity := by
  induction h with
  | refl => exact ⟨hs, rfl⟩
  | tail _ hstep ih => exact ⟨hstep.sound ih.1, (hstep.rootCapacity ih.1).trans ih.2⟩

/-- **Strict changes keep the space steady.** -/
theorem steady (h : Changes strict may limit d d') (hstrict : strict)
    (hs : d.space.Steady d.pending) : d'.space.Steady d'.pending := by
  induction h with
  | refl => exact hs
  | tail _ hstep ih => exact hstep.steady hstrict ih

/-- What a sequence of changes does to the stock of records. -/
theorem turnover (h : Changes strict may limit d d') (hs : d.space.Sound) :
    Turnover limit d.space d'.space := by
  induction h with
  | refl => exact .refl _
  | tail hsteps hstep ih => exact ih.trans (hstep.turnover (sound hsteps hs).1)

end Changes

end ScriptHeap.Space
