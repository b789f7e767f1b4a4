import ScriptHeap.Collector.Barrier
import ScriptHeap.Proofs.Arena

/-!
Root tables. Between collections a table lists exactly the live records whose links say so, each of
them elder than the generation of the table and none of them twice. The write barrier preserves
this, and afterwards the holder is in the table of every younger generation it refers to, unless a
table was full.
-/

namespace ScriptHeap

lemma Gen.pairwise_above (g : Gen) : (above g).Pairwise (· < ·) := by
  revert g
  decide

namespace Space

/-- Every live record is in the bucket of its generation, and there once. -/
structure Binned (s : Space) : Prop where
  mem : ∀ g id, id ∈ (s.bucket g).arrivals ↔
    ∃ r, s.arena.live? id = some r ∧ r.header.generation = g
  nodup : ∀ g, (s.bucket g).arrivals.Nodup

/-- The root tables agree with the links of the live records. Tables of stale generations may also
list records that are no longer live. -/
structure Listed (s : Space) (stale : Gen → Prop) : Prop where
  mem : ∀ g id r, s.arena.live? id = some r →
    (id ∈ (s.bucket g).roots ↔ r.header.rootLinks.contains g = true)
  elder : ∀ g id r, s.arena.live? id = some r → id ∈ (s.bucket g).roots → g < r.header.generation
  live : ∀ g id, id ∈ (s.bucket g).roots → stale g ∨ ∃ r, s.arena.live? id = some r
  nodup : ∀ g, (s.bucket g).roots.Nodup
  length_le : ∀ g, (s.bucket g).roots.length ≤ s.collector.rootCapacity

/-- A space without its records and root tables, and without what tells of full tables. -/
def bare (s : Space) : Space :=
  { s with
    arena := .empty
    journal := []
    collector := { s.collector with
      buckets := Vector.ofFn fun g => { s.bucket g with roots := [] }
      overflow := false
      stats := { s.collector.stats with totalOverflows := 0 } } }

/-- What is left of a space without its records, buckets and counters. -/
def setup (s : Space) : Space :=
  { s with
    arena := .empty
    pools := .empty 0
    finalized := []
    journal := []
    collector := { s.collector with
      buckets := Vector.replicate 4 .empty
      overflow := false
      stats := {} } }

/-- Only links and root tables changed. -/
structure Relisted (s s' : Space) : Prop where
  alike : s.arena.Alike s'.arena
  marks : ∀ id r q, s.arena.live? id = some r → s'.arena.live? id = some q →
    q.header.marked = r.header.marked
  bare : s'.bare = s.bare
  overflow : s.collector.overflow = true → s'.collector.overflow = true

/-- Only links and root tables changed, and no table lost a record. -/
structure Relinked (s s' : Space) : Prop extends Relisted s s' where
  roots : ∀ g id, id ∈ (s.bucket g).roots → id ∈ (s'.bucket g).roots

@[simp] lemma bucket_updateBucket (s : Space) (g : Gen) (f : Bucket → Bucket) (h : Gen) :
    (s.updateBucket g f).bucket h = if h = g then f (s.bucket g) else s.bucket h :=
  Collector.bucket_updateBucket _ _ _ _

lemma bucket_bare (s : Space) (g : Gen) : s.bare.bucket g = { s.bucket g with roots := [] } :=
  Vector.getElem_ofFn g.isLt

lemma arrivals_of_bare {s s' : Space} (h : s'.bare = s.bare) (g : Gen) :
    (s'.bucket g).arrivals = (s.bucket g).arrivals := by
  have := congrArg (fun s => (s.bucket g).arrivals) h
  simpa [bucket_bare] using this

lemma pools_of_bare {s s' : Space} (h : s'.bare = s.bare) : s'.pools = s.pools :=
  congrArg (fun s => s.pools) h

lemma setup_of_bare {s s' : Space} (h : s'.bare = s.bare) : s'.setup = s.setup :=
  congrArg (fun s => s.setup) h

section Setup

variable {s s' : Space} (h : s'.setup = s.setup)
include h

lemma worklist_of_setup : s'.collector.worklist = s.collector.worklist :=
  congrArg (fun s => s.collector.worklist) h

lemma phase_of_setup : s'.collector.phase = s.collector.phase :=
  congrArg (fun s => s.collector.phase) h

lemma pendingFull_of_setup : s'.collector.pendingFull = s.collector.pendingFull :=
  congrArg (fun s => s.collector.pendingFull) h

lemma allocGeneration_of_setup :
    s'.collector.allocGeneration = s.collector.allocGeneration :=
  congrArg (fun s => s.collector.allocGeneration) h

lemma rootCapacity_of_setup : s'.collector.rootCapacity = s.collector.rootCapacity :=
  congrArg (fun s => s.collector.rootCapacity) h

end Setup

lemma bare_updateBucket (s : Space) (g : Gen) {f : Bucket → Bucket}
    (hf : ∀ b, { f b with roots := [] } = { b with roots := [] }) :
    (s.updateBucket g f).bare = s.bare := by
  unfold bare
  have (h : Gen) : ({ (s.updateBucket g f).bucket h with roots := [] } : Bucket) =
      { s.bucket h with roots := [] } := by
    rw [bucket_updateBucket]
    split
    · next e => rw [hf, e]
    · rfl
  simp only [this]
  rfl

namespace Relisted

lemma refl (s : Space) : s.Relisted s := by
  refine ⟨.refl _, fun id r q hr hq => ?_, rfl, id⟩
  rw [Option.some.inj (hq.symm.trans hr)]

lemma trans {s t u : Space} (h : s.Relisted t) (k : t.Relisted u) : s.Relisted u := by
  refine ⟨h.alike.trans k.alike, fun id r q hr hq => ?_, k.bare.trans h.bare,
    fun ho => k.overflow (h.overflow ho)⟩
  obtain ⟨p, hp, -⟩ := h.alike.live hr
  exact (k.marks id p q hp hq).trans (h.marks id r p hr hp)

end Relisted

namespace Relinked

lemma refl (s : Space) : s.Relinked s := ⟨.refl s, fun _ _ => id⟩

lemma trans {s t u : Space} (h : s.Relinked t) (k : t.Relinked u) : s.Relinked u :=
  ⟨h.toRelisted.trans k.toRelisted, fun g id hid => k.roots g id (h.roots g id hid)⟩

end Relinked

lemma Binned.of_alike {s s' : Space} (hs : s.Binned) (ha : s.arena.Alike s'.arena)
    (hb : ∀ g, (s'.bucket g).arrivals = (s.bucket g).arrivals) : s'.Binned := by
  refine ⟨fun g id => ?_, fun g => by simpa [hb] using hs.nodup g⟩
  rw [hb, hs.mem]
  constructor
  · rintro ⟨r, hr, rfl⟩
    obtain ⟨q, hq, e⟩ := ha.live hr
    exact ⟨q, hq, Record.generation_of_core e⟩
  · rintro ⟨q, hq, rfl⟩
    obtain ⟨r, hr, e⟩ := ha.live' hq
    exact ⟨r, hr, (Record.generation_of_core e).symm⟩

/-! ### Headers of whole generations -/

/-- Changes the headers of all records of some generations. -/
def onBuckets (f : Header → Header) (gs : List Gen) (s : Space) : Space :=
  gs.foldl (fun s g => s.modifyHeaders (s.bucket g).live f) s

lemma onBuckets_eq (f : Header → Header) (gs : List Gen) (s : Space) :
    s.onBuckets f gs = { s with arena := (s.onBuckets f gs).arena } := by
  induction gs generalizing s with
  | nil => rfl
  | cons g gs ih => exact ih (s.modifyHeaders (s.bucket g).live f)

section OnBuckets

variable {f : Header → Header}
  (hf : ∀ r : Record, ({ r with header := f r.header } : Record).core = r.core)
include hf

lemma alike_onBuckets (gs : List Gen) (s : Space) : s.arena.Alike (s.onBuckets f gs).arena := by
  induction gs generalizing s with
  | nil => exact .refl _
  | cons g gs ih =>
    exact (Arena.alike_modifyHeaders _ _ hf).trans (ih (s.modifyHeaders (s.bucket g).live f))

lemma live?_onBuckets {gs : List Gen} (hn : gs.Nodup) {s : Space} (hb : s.Binned) {id : RecordId}
    {r : Record} (hr : s.arena.live? id = some r) : (s.onBuckets f gs).arena.live? id =
      some (if r.header.generation ∈ gs then { r with header := f r.header } else r) := by
  induction gs generalizing s r with
  | nil => exact hr
  | cons g gs ih =>
    obtain ⟨hnot, hn⟩ := List.nodup_cons.1 hn
    have h1 := Arena.live?_modifyHeaders s.arena f (List.nodup_reverse.2 (hb.nodup g)) id
    have hmem : id ∈ (s.bucket g).arrivals.reverse ↔ r.header.generation = g := by
      simp [hb.mem, hr]
    rw [hr, if_congr hmem rfl rfl] at h1
    have hb1 : (s.modifyHeaders (s.bucket g).live f).Binned :=
      hb.of_alike (Arena.alike_modifyHeaders _ _ hf) fun _ => rfl
    by_cases hg : r.header.generation = g
    · rw [if_pos hg] at h1
      have hgen : (f r.header).generation = r.header.generation := Record.generation_of_core (hf r)
      refine (ih hn hb1 h1).trans ?_
      simp [hgen, hg, hnot]
    · rw [if_neg hg] at h1
      refine (ih hn hb1 h1).trans ?_
      simp [hg]

end OnBuckets

/-! ### The table of one generation -/

/-- Listing a holder has an effect on this holder and on one table. -/
structure Lists (s s' : Space) (g : Gen) (holder : RecordId) : Prop where
  relinked : s.Relinked s'
  others : ∀ j, j ≠ holder → s'.arena.get? j = s.arena.get? j
  listed : ∀ stale, s.Listed stale →
    (∀ r, s.arena.live? holder = some r → g < r.header.generation) →
    s'.Listed stale ∧ (∀ r, s.arena.live? holder = some r →
      holder ∈ (s'.bucket g).roots ∨ s'.collector.overflow = true)

lemma core_setLinks (r : Record) (rootLinks refLinks : GenSet) :
    ({ r with header := { r.header with rootLinks, refLinks } } : Record).core = r.core := rfl

lemma listed_of_rootLinks {s s' : Space} {stale : Gen → Prop} (hs : s.Listed stale)
    (ha : s.arena.Alike s'.arena)
    (hl : ∀ id r q, s.arena.live? id = some r → s'.arena.live? id = some q →
      q.header.rootLinks = r.header.rootLinks)
    (hr : ∀ g, (s'.bucket g).roots = (s.bucket g).roots)
    (hc : s'.collector.rootCapacity = s.collector.rootCapacity) : s'.Listed stale := by
  refine ⟨fun g id q hq => ?_, fun g id q hq hid => ?_, fun g id hid => ?_, fun g => ?_,
    fun g => ?_⟩
  · obtain ⟨r, hr', -⟩ := ha.live' hq
    rw [hr, hs.mem g id r hr', hl id r q hr' hq]
  · obtain ⟨r, hr', e⟩ := ha.live' hq
    rw [Record.generation_of_core e]
    exact hs.elder g id r hr' (hr g ▸ hid)
  · refine (hs.live g id (hr g ▸ hid)).imp_right fun ⟨r, hr'⟩ => ?_
    obtain ⟨q, hq, -⟩ := ha.live hr'
    exact ⟨q, hq⟩
  · rw [hr]
    exact hs.nodup g
  · rw [hr, hc]
    exact hs.length_le g

/-- A holder more in the table of `g`, and in the links of the holder. -/
lemma listed_addRoot {s s' : Space} {stale : Gen → Prop} {g : Gen} {holder : RecordId}
    {r : Record} (hs : s.Listed stale) (hr : s.arena.live? holder = some r)
    (hg : g < r.header.generation) (hnot : r.header.rootLinks.contains g = false)
    (hroom : (s.bucket g).roots.length < s.collector.rootCapacity)
    (ha : s'.arena = s.arena.modifyHeader holder fun h =>
      { h with refLinks := h.refLinks.insert g, rootLinks := h.rootLinks.insert g })
    (hb : ∀ h, (s'.bucket h).roots =
      if h = g then (s.bucket g).roots ++ [holder] else (s.bucket h).roots)
    (hc : s'.collector.rootCapacity = s.collector.rootCapacity) : s'.Listed stale := by
  have halike : s.arena.Alike s'.arena := by
    rw [ha]
    exact Arena.alike_modifyHeader _ _ fun r => core_setLinks r _ _
  have hmem (h : Gen) (id : RecordId) :
      id ∈ (s'.bucket h).roots ↔ id ∈ (s.bucket h).roots ∨ h = g ∧ id = holder := by
    rw [hb]
    by_cases hh : h = g
    · simp [hh]
    · simp [hh]
  have hlinks {id : RecordId} {p q : Record} (hp : s.arena.live? id = some p)
      (hq : s'.arena.live? id = some q) (h : Gen) : q.header.rootLinks.contains h = true ↔
        p.header.rootLinks.contains h = true ∨ h = g ∧ id = holder := by
    rw [ha, Arena.live?_modifyHeader, hp] at hq
    by_cases hid : id = holder
    · rw [if_pos hid] at hq
      obtain rfl := Option.some.inj hq
      simp [hid, or_comm]
    · rw [if_neg hid] at hq
      obtain rfl := Option.some.inj hq
      simp [hid]
  refine ⟨fun h id q hq => ?_, fun h id q hq hid => ?_, fun h id hid => ?_, fun h => ?_,
    fun h => ?_⟩
  · obtain ⟨p, hp, -⟩ := halike.live' hq
    rw [hmem, hlinks hp hq, hs.mem h id p hp]
  · obtain ⟨p, hp, e⟩ := halike.live' hq
    rw [Record.generation_of_core e]
    rcases (hmem h id).1 hid with hid | ⟨rfl, rfl⟩
    · exact hs.elder h id p hp hid
    · rw [hr] at hp
      exact Option.some.inj hp ▸ hg
  · have hlive {p : Record} (hp : s.arena.live? id = some p) : ∃ q, s'.arena.live? id = some q := by
      obtain ⟨q, hq, -⟩ := halike.live hp
      exact ⟨q, hq⟩
    rcases (hmem h id).1 hid with hid | ⟨-, rfl⟩
    · exact (hs.live h id hid).imp_right fun ⟨p, hp⟩ => hlive hp
    · exact .inr (hlive hr)
  · rw [hb]
    split
    · have hout : holder ∉ (s.bucket g).roots := by simp [hs.mem g holder r hr, hnot]
      refine List.nodup_append.2 ⟨hs.nodup g, List.nodup_singleton holder, ?_⟩
      rintro id hid _ hid' rfl
      exact hout (List.mem_singleton.1 hid' ▸ hid)
    · exact hs.nodup h
  · rw [hb, hc]
    split
    · simpa using Nat.succ_le_of_lt hroom
    · exact hs.length_le h

lemma lists_of_missing {s : Space} {g : Gen} {holder : RecordId}
    (hn : s.arena.live? holder = none) : Lists s s g holder := by
  refine ⟨.refl _, fun _ _ => rfl, fun stale hs _ => ⟨hs, fun r hr => ?_⟩⟩
  simp [hn] at hr

/-- The holder stays where it is, either because it is listed or because there is no room. -/
lemma lists_of_refLinks {s s' : Space} {g : Gen} {holder : RecordId}
    (ha : s'.arena = s.arena.modifyHeader holder fun h =>
      { h with refLinks := h.refLinks.insert g })
    (hb : ∀ h, s'.bucket h = s.bucket h) (hbare : s'.bare = s.bare)
    (ho : s.collector.overflow = true → s'.collector.overflow = true)
    (hnew : ∀ stale, s.Listed stale → ∀ r, s.arena.live? holder = some r →
      holder ∈ (s.bucket g).roots ∨ s'.collector.overflow = true) : Lists s s' g holder := by
  have halike : s.arena.Alike s'.arena := by
    rw [ha]
    exact Arena.alike_modifyHeader _ _ fun _ => rfl
  refine ⟨⟨⟨halike, fun id r q hr hq => ?_, hbare, ho⟩, fun h id hid => ?_⟩, fun j hj => ?_,
    fun stale hs _ => ⟨?_, fun r hr => ?_⟩⟩
  · rw [ha] at hq
    exact Arena.header_of_modifyHeader (·.marked) hr hq fun _ => rfl
  · rw [hb]
    exact hid
  · rw [ha, Arena.modifyHeader, Arena.get?_modify, if_neg hj]
  · refine listed_of_rootLinks hs halike (fun id r q hr hq => ?_) (fun h => by rw [hb])
      (rootCapacity_of_setup (setup_of_bare hbare))
    rw [ha] at hq
    exact Arena.header_of_modifyHeader (·.rootLinks) hr hq fun _ => rfl
  · rw [hb]
    exact hnew stale hs r hr

/-- There is room for the holder. -/
lemma lists_of_room {s : Space} {g : Gen} {holder : RecordId} {r : Record}
    (hr : s.arena.live? holder = some r) (hnot : r.header.rootLinks.contains g = false)
    (hroom : (s.bucket g).roots.length < s.collector.rootCapacity) :
    Lists s ((s.modifyHeader holder fun h =>
      { h with refLinks := h.refLinks.insert g, rootLinks := h.rootLinks.insert g }).updateBucket g
        fun b => { b with roots := b.roots ++ [holder] }) g holder := by
  let s1 : Space := s.modifyHeader holder fun h =>
    { h with refLinks := h.refLinks.insert g, rootLinks := h.rootLinks.insert g }
  have hroots (h : Gen) :
      ((s1.updateBucket g fun b => { b with roots := b.roots ++ [holder] }).bucket h).roots =
        if h = g then (s.bucket g).roots ++ [holder] else (s.bucket h).roots := by
    rw [bucket_updateBucket]
    split <;> rfl
  refine ⟨⟨⟨?_, fun id r q hr hq => ?_, bare_updateBucket s1 g fun _ => rfl, id⟩,
    fun h id hid => ?_⟩, fun j hj => ?_, fun stale hs hg => ⟨?_, fun q _ => .inl ?_⟩⟩
  · exact Arena.alike_modifyHeader s.arena holder (f := fun h =>
      { h with refLinks := h.refLinks.insert g, rootLinks := h.rootLinks.insert g })
      fun r => core_setLinks r _ _
  · exact Arena.header_of_modifyHeader (·.marked) hr hq fun _ => rfl
  · rw [hroots]
    split
    · next e => exact List.mem_append_left _ (e ▸ hid)
    · exact hid
  · change (s.arena.modifyHeader holder _).get? j = s.arena.get? j
    rw [Arena.modifyHeader, Arena.get?_modify, if_neg hj]
  · exact listed_addRoot hs hr (hg r hr) hnot hroom rfl hroots rfl
  · rw [hroots, if_pos rfl]
    exact List.mem_append_right _ (List.mem_singleton.2 rfl)

theorem lists_addRoot (s : Space) (g : Gen) (holder : RecordId) :
    Lists s (s.addRoot g holder).2 g holder := by
  unfold addRoot
  split
  · next hn =>
    exact lists_of_missing (by simpa [Arena.header?] using hn)
  · next h hh =>
    obtain ⟨r, hr, rfl⟩ := Arena.header?_eq_some.1 hh
    split
    · next hc =>
      exact lists_of_refLinks rfl (fun _ => rfl) rfl id
        fun stale hs r' _ => .inl ((hs.mem g holder r hr).2 hc)
    · next hc =>
      dsimp only
      split
      · refine lists_of_refLinks ?_ (fun h => ?_) ?_ (fun _ => rfl) fun _ _ _ _ => .inr rfl
        · split <;> rfl
        · split <;> rfl
        · split <;> rfl
      · next hroom =>
        exact lists_of_room hr (by simpa using hc) (Nat.not_le.1 hroom)

/-- The barrier adds no holder but the given one, and to no table but the given one. -/
lemma mem_roots_addRoot {s : Space} {g h : Gen} {holder x : RecordId}
    (hx : x ∈ ((s.addRoot g holder).2.bucket h).roots) :
    x ∈ (s.bucket h).roots ∨ (x, h) = (holder, g) := by
  unfold addRoot at hx
  split at hx
  · exact .inl hx
  · split at hx
    · exact .inl hx
    · dsimp only at hx
      split at hx
      · split at hx <;> exact .inl hx
      · rw [bucket_updateBucket] at hx
        split at hx
        · next hg =>
          subst hg
          rcases List.mem_append.1 hx with hx | hx
          · exact .inl hx
          · exact .inr (by rw [List.mem_singleton.1 hx])
        · exact .inl hx

/-! ### The barrier -/

/-- The barrier has run for some references, told by their holder and the record they refer to. -/
structure Notes (s s' : Space) (noted : RecordId → RecordId → Prop) : Prop where
  relinked : s.Relinked s'
  listed : ∀ stale, s.Listed stale → s'.Listed stale
  noted : ∀ stale, s.Listed stale → ∀ x y g, noted x y → s.arena.Crosses x y g →
    x ∈ (s'.bucket g).roots ∨ s'.collector.overflow = true

namespace Notes

variable {s t u : Space} {P Q : RecordId → RecordId → Prop}

lemma refl (s : Space) : Notes s s fun _ _ => False :=
  ⟨.refl s, fun _ => id, fun _ _ _ _ _ h => h.elim⟩

lemma mono (h : Notes s t Q) (hPQ : ∀ x y g, s.arena.Crosses x y g → P x y → Q x y) :
    Notes s t P :=
  ⟨h.relinked, h.listed, fun stale hs x y g hP hc => h.noted stale hs x y g (hPQ x y g hc hP) hc⟩

/-- What was noted first stays listed, and what is noted next is as old as before. -/
lemma trans (h : Notes s t P) (k : Notes t u Q) : Notes s u fun x y => P x y ∨ Q x y := by
  refine ⟨h.relinked.trans k.relinked, fun stale hs => k.listed stale (h.listed stale hs), ?_⟩
  rintro stale hs x y g (hP | hQ) hc
  · rcases h.noted stale hs x y g hP hc with hmem | ho
    · exact .inl (k.relinked.roots g x hmem)
    · exact .inr (k.relinked.overflow ho)
  · have hc' : t.arena.Crosses x y g := hc.of_alike h.relinked.alike.symm
    exact k.noted stale (h.listed stale hs) x y g hQ hc'

end Notes

/-- What a record was last seen to refer to does not matter. -/
lemma notes_refLinks (s : Space) (x : RecordId) (refLinks : GenSet) :
    Notes s (s.modifyHeader x ({ · with refLinks })) fun _ _ => False := by
  have halike : s.arena.Alike (s.arena.modifyHeader x ({ · with refLinks })) :=
    Arena.alike_modifyHeader _ _ fun _ => rfl
  refine ⟨⟨⟨halike, fun _ _ _ hr hq => ?_, rfl, id⟩, fun _ _ => id⟩, fun stale hs => ?_,
    fun _ _ _ _ _ h => h.elim⟩
  · exact Arena.header_of_modifyHeader (·.marked) hr hq fun _ => rfl
  · refine listed_of_rootLinks hs halike (fun _ _ _ hr hq => ?_) (fun _ => rfl) rfl
    exact Arena.header_of_modifyHeader (·.rootLinks) hr hq fun _ => rfl

theorem notes_recordReference (s : Space) (holder y : RecordId) :
    Notes s (s.recordReference holder (some y)) fun x z => x = holder ∧ z = y := by
  unfold recordReference
  simp only [Option.bind_some]
  split
  · next target hd ht hh =>
    obtain ⟨q, hq, rfl⟩ := Arena.header?_eq_some.1 ht
    obtain ⟨r, hr, rfl⟩ := Arena.header?_eq_some.1 hh
    split
    · next hyoung =>
      simp only [Bool.and_eq_true, Bool.not_eq_true', decide_eq_true_eq] at hyoung
      obtain ⟨hrel, -, hlist⟩ := lists_addRoot s q.header.generation holder
      have hg (r' : Record) (hr' : s.arena.live? holder = some r') :
          q.header.generation < r'.header.generation := by
        rw [hr] at hr'
        exact Option.some.inj hr' ▸ hyoung.2
      refine ⟨hrel, fun stale hs => (hlist stale hs hg).1, ?_⟩
      rintro stale hs _ _ _ ⟨rfl, rfl⟩ ⟨r', q', hr', -, hq', -, rfl, -⟩
      rw [hq] at hq'
      exact Option.some.inj hq' ▸ (hlist stale hs hg).2 r' hr'
    · next hold =>
      refine ⟨.refl _, fun _ => id, ?_⟩
      rintro _ _ _ _ _ ⟨rfl, rfl⟩ ⟨r', q', hr', -, hq', hp, rfl, hlt⟩
      rw [hq] at hq'
      rw [hr] at hr'
      obtain rfl := Option.some.inj hq'
      obtain rfl := Option.some.inj hr'
      simp [hp, hlt] at hold
  · next hnone =>
    refine ⟨.refl _, fun _ => id, ?_⟩
    rintro _ _ _ _ _ ⟨rfl, rfl⟩ ⟨r, q, hr, -, hq, -⟩
    have hx := Arena.header?_eq_some.2 ⟨r, hr, rfl⟩
    have hy := Arena.header?_eq_some.2 ⟨q, hq, rfl⟩
    exact absurd hx (hnone _ _ hy)

lemma notes_recordAll (holder : RecordId) (refs : List RecordId) (s : Space) :
    Notes s (refs.foldl (fun s id => s.recordReference holder (some id)) s)
      fun x y => x = holder ∧ y ∈ refs := by
  induction refs generalizing s with
  | nil => exact (Notes.refl s).mono fun x y _ _ => by simp
  | cons y ys ih =>
    have h1 := notes_recordReference s holder y
    have h2 := ih (s.recordReference holder (some y))
    refine (h1.trans h2).mono ?_
    rintro x z _ _ ⟨rfl, hz⟩
    rcases List.mem_cons.1 hz with rfl | hz
    · exact .inl ⟨rfl, rfl⟩
    · exact .inr ⟨rfl, hz⟩

theorem notes_recordReferences (s : Space) (holder : RecordId) :
    Notes s (s.recordReferences holder) fun x _ => x = holder := by
  unfold recordReferences
  split
  · next r hr =>
    refine (notes_recordAll holder r.body.references s).mono ?_
    rintro x y _ ⟨q, _, hq, hy, -⟩ rfl
    rw [hr] at hq
    obtain rfl := Option.some.inj hq
    exact ⟨rfl, hy⟩
  · next hn =>
    refine (Notes.refl s).mono ?_
    rintro x y _ ⟨q, _, hq, -⟩ rfl
    simp [hn] at hq

end Space

end ScriptHeap
