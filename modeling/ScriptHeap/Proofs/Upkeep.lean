import ScriptHeap.Proofs.MarkPhase

/-!
Upkeep of the root tables. Compacting a table drops the holders that no longer refer into its
generation. Such a holder is listed for the next elder generation it refers to, unless another table
up to that one lists it, so what was covered stays covered. A repair forgets all tables and lists
every elder record again.
-/

namespace ScriptHeap

lemma GenSet.leastAbove?_eq_some {s : GenSet} {g h : Gen} (hs : s.leastAbove? g = some h) :
    s.contains h = true ∧ g < h ∧ ∀ j, g < j → s.contains j = true → h ≤ j := by
  unfold leastAbove? at hs
  obtain ⟨hc, as, bs, hl, hn⟩ := List.find?_eq_some_iff_append.1 hs
  have hsorted : (Gen.above g).Pairwise (· < ·) := Gen.pairwise_above g
  refine ⟨hc, Gen.mem_above.1 (by simp [hl]), fun j hj hcj => ?_⟩
  have hmem : j ∈ as ++ h :: bs := hl ▸ Gen.mem_above.2 hj
  rw [hl] at hsorted
  rcases List.mem_append.1 hmem with hm | hm
  · have := hn j hm
    simp [hcj] at this
  · rcases List.mem_cons.1 hm with rfl | hm
    · exact le_refl _
    · exact ((List.pairwise_cons.1 (List.pairwise_append.1 hsorted).2.1).1 j hm).le

/-- A set with a member above `g` has a least one. -/
lemma GenSet.exists_leastAbove? {s : GenSet} {g j : Gen} (hj : g < j) (hs : s.contains j = true) :
    ∃ h, s.leastAbove? g = some h := by
  refine Option.isSome_iff_exists.1 (List.find?_isSome.2 ⟨j, Gen.mem_above.2 hj, hs⟩)

namespace Space

lemma references?_eq_some {s : Space} {id : RecordId} {refs : GenSet} :
    s.references? id = some refs ↔ ∃ r, s.arena.live? id = some r ∧
      s.arena.youngerThan r.header.generation r.body.references = refs := by
  simp [references?]

/-! ### Links of the holders -/

/-- The record with its links brought up to date for the table of `g`. -/
def relinkedAt (s : Space) (g : Gen) (r : Record) : Record :=
  let refs := s.arena.youngerThan r.header.generation r.body.references
  { r with header := { r.header with
      refLinks := refs
      rootLinks := if refs.contains g then r.header.rootLinks else r.header.rootLinks.erase g } }

lemma relink_eq (s : Space) (g : Gen) (holder : RecordId) :
    s.relink g holder = { s with arena := (s.relink g holder).arena } := by
  unfold relink
  split <;> rfl

lemma get?_relink (s : Space) (g : Gen) (holder id : RecordId) :
    (s.relink g holder).arena.live? id =
      if id = holder then (s.arena.live? id).map (s.relinkedAt g) else s.arena.live? id := by
  unfold relink
  split
  · next hn =>
    rcases hr : s.arena.live? holder with _ | r
    · by_cases h : id = holder
      · simp [h, hr]
      · simp [h]
    · simp [references?, hr] at hn
  · next refs hrefs =>
    obtain ⟨r, hr, rfl⟩ := references?_eq_some.1 hrefs
    refine (Arena.live?_modifyHeader _ _ _ _).trans ?_
    by_cases h : id = holder
    · simp only [h, if_true, hr, Option.map_some]
      rfl
    · simp [h]

lemma alike_relink (s : Space) (g : Gen) (holder : RecordId) :
    s.arena.Alike (s.relink g holder).arena := by
  unfold relink
  split
  · exact .refl _
  · next refs _ =>
    exact Arena.alike_modifyHeader s.arena holder (f := fun h => { h with
      refLinks := refs
      rootLinks := if refs.contains g then h.rootLinks else h.rootLinks.erase g })
      fun r => core_setLinks r _ _

/-- The links of all holders of the table. -/
lemma relinkAll (holders : List RecordId) (hn : holders.Nodup) (s : Space) (g : Gen) :
    holders.foldl (relink · g) s = { s with arena := (holders.foldl (relink · g) s).arena } ∧
    s.arena.Alike (holders.foldl (relink · g) s).arena ∧
    ∀ id, (holders.foldl (relink · g) s).arena.live? id =
      if id ∈ holders then (s.arena.live? id).map (s.relinkedAt g) else s.arena.live? id := by
  induction holders generalizing s with
  | nil => exact ⟨rfl, .refl _, by simp⟩
  | cons holder holders ih =>
    obtain ⟨hnot, hn⟩ := List.nodup_cons.1 hn
    obtain ⟨heq, halike, hlive⟩ := ih hn (s.relink g holder)
    have h1 := alike_relink s g holder
    refine ⟨?_, h1.trans halike, fun id => ?_⟩
    · rw [List.foldl_cons, heq, relink_eq]
    · have hsame : (s.relink g holder).relinkedAt g = s.relinkedAt g := by
        funext r
        simp only [relinkedAt, h1.youngerThan]
      rw [List.foldl_cons, hlive, get?_relink, hsame]
      by_cases h : id = holder
      · simp [h, hnot]
      · simp [h]

/-! ### One table -/

/-- The table of `g` holds on to the holders that refer into its generation. The others have not
moved yet. -/
def trimmed (s : Space) (g : Gen) : Space :=
  ((s.bucket g).roots.foldl (relink · g) s).updateBucket g
    ({ · with roots := (s.bucket g).roots.filter (s.staysListed g) })

/-- The holders that move, with the generations they move to. -/
def moves (s : Space) (g : Gen) : List (RecordId × Gen) :=
  (s.bucket g).roots.filterMap fun id => (s.movesTo? g id).map (id, ·)

/-- Holders are listed one after the other. -/
def listAll (s : Space) (moves : List (RecordId × Gen)) : Space :=
  moves.foldl (fun s (id, next) => (s.addRoot next id).2) s

lemma compactTable_eq (s : Space) (g : Gen) :
    s.compactTable g = (s.trimmed g).listAll (s.moves g) := rfl

lemma mem_moves {s : Space} {g next : Gen} {id : RecordId} :
    (id, next) ∈ s.moves g ↔ id ∈ (s.bucket g).roots ∧ s.movesTo? g id = some next := by
  simp only [moves, List.mem_filterMap, Option.map_eq_some_iff, Prod.mk.injEq]
  constructor
  · rintro ⟨_, h, _, h', rfl, rfl⟩
    exact ⟨h, h'⟩
  · rintro ⟨h, h'⟩
    exact ⟨id, h, next, h', rfl, rfl⟩

lemma staysListed_iff {s : Space} {g : Gen} {id : RecordId} {r : Record}
    (hr : s.arena.live? id = some r) : s.staysListed g id = true ↔
      (s.arena.youngerThan r.header.generation r.body.references).contains g = true := by
  simp [staysListed, references?, hr]

lemma not_staysListed {s : Space} {g : Gen} {id : RecordId} (hn : s.arena.live? id = none) :
    s.staysListed g id = false := by
  simp [staysListed, references?, hn]

lemma movesTo?_eq {s : Space} {g : Gen} {id : RecordId} {r : Record}
    (hr : s.arena.live? id = some r)
    (hout : (s.arena.youngerThan r.header.generation r.body.references).contains g = false) :
    s.movesTo? g id =
      ((s.arena.youngerThan r.header.generation r.body.references).leastAbove? g).filter
        fun next => !(r.header.rootLinks.erase g).anyUpTo next := by
  simp [movesTo?, references?, Arena.header?, hr, hout]

/-- A holder moves to a generation that it refers to. -/
lemma lt_of_movesTo? {s : Space} {g next : Gen} {id : RecordId} {r : Record}
    (hr : s.arena.live? id = some r) (h : s.movesTo? g id = some next) :
    next < r.header.generation := by
  rcases hout : (s.arena.youngerThan r.header.generation r.body.references).contains g with _ | _
  · rw [movesTo?_eq hr hout] at h
    obtain ⟨hc, -, -⟩ := GenSet.leastAbove?_eq_some (Option.filter_eq_some_iff.1 h).1
    obtain ⟨y, hcross⟩ := (Arena.contains_youngerThan hr).1 hc
    obtain ⟨r', hr', hlt⟩ := hcross.holder
    rw [hr] at hr'
    exact Option.some.inj hr' ▸ hlt
  · simp [movesTo?, references?, Arena.header?, hr, hout] at h

section Trimmed

variable {s : Space} {g : Gen} (hn : (s.bucket g).roots.Nodup)
include hn

lemma bucket_trimmed (h : Gen) : (s.trimmed g).bucket h =
    if h = g then { s.bucket g with roots := (s.bucket g).roots.filter (s.staysListed g) }
    else s.bucket h := by
  unfold trimmed
  rw [bucket_updateBucket, (relinkAll _ hn s g).1]
  rfl

lemma live?_trimmed (id : RecordId) : (s.trimmed g).arena.live? id =
    if id ∈ (s.bucket g).roots then (s.arena.live? id).map (s.relinkedAt g)
    else s.arena.live? id := (relinkAll _ hn s g).2.2 id

lemma relisted_trimmed : s.Relisted (s.trimmed g) := by
  obtain ⟨heq, halike, hlive⟩ := relinkAll _ hn s g
  refine ⟨halike, fun id r q hr hq => ?_, ?_, fun ho => ?_⟩
  · rw [live?_trimmed hn, hr] at hq
    split at hq <;> obtain rfl := Option.some.inj hq <;> rfl
  · refine (bare_updateBucket _ g (f := ({ · with
      roots := (s.bucket g).roots.filter (s.staysListed g) })) fun _ => rfl).trans ?_
    rw [heq]
    rfl
  · unfold trimmed
    rw [heq]
    exact ho

lemma mem_roots_trimmed (h : Gen) (id : RecordId) : id ∈ ((s.trimmed g).bucket h).roots ↔
    id ∈ (s.bucket h).roots ∧ (h = g → s.staysListed g id = true) := by
  rw [bucket_trimmed hn]
  by_cases hh : h = g
  · simp [hh]
  · simp [hh]

lemma rootLinks_trimmed {stale : Gen → Prop} (hl : s.Listed stale) {id : RecordId} {r q : Record}
    (hr : s.arena.live? id = some r) (hq : (s.trimmed g).arena.live? id = some q) (h : Gen) :
    q.header.rootLinks.contains h = true ↔
      r.header.rootLinks.contains h = true ∧ (h = g → s.staysListed g id = true) := by
  rw [live?_trimmed hn, hr] at hq
  by_cases hid : id ∈ (s.bucket g).roots
  · rw [if_pos hid] at hq
    obtain rfl := Option.some.inj hq
    rw [staysListed_iff hr]
    unfold relinkedAt
    dsimp only
    split
    · next hc => simp [hc]
    · next hc => simp [hc, and_comm]
  · rw [if_neg hid] at hq
    obtain rfl := Option.some.inj hq
    refine ⟨fun hc => ⟨hc, fun e => ?_⟩, And.left⟩
    subst e
    exact absurd ((hl.mem h id r hr).2 hc) hid

/-- The trimmed table has forgotten the holders that are gone. -/
lemma listed_trimmed {stale : Gen → Prop} (hl : s.Listed stale) :
    (s.trimmed g).Listed fun h => stale h ∧ h ≠ g := by
  have hmem := mem_roots_trimmed hn
  have hrel := relisted_trimmed hn
  have hlive {id : RecordId} {r : Record} (hr : s.arena.live? id = some r) :
      ∃ q, (s.trimmed g).arena.live? id = some q := by
    obtain ⟨q, hq, -⟩ := hrel.alike.live hr
    exact ⟨q, hq⟩
  refine ⟨fun h id q hq => ?_, fun h id q hq hid => ?_, fun h id hid => ?_, fun h => ?_,
    fun h => ?_⟩
  · obtain ⟨r, hr, -⟩ := hrel.alike.live' hq
    rw [hmem, rootLinks_trimmed hn hl hr hq, hl.mem h id r hr]
  · obtain ⟨r, hr, e⟩ := hrel.alike.live' hq
    rw [Record.generation_of_core e]
    exact hl.elder h id r hr ((hmem h id).1 hid).1
  · obtain ⟨hid, hstays⟩ := (hmem h id).1 hid
    by_cases hh : h = g
    · rcases hr : s.arena.live? id with _ | r
      · simp [not_staysListed hr, hh] at hstays
      · exact .inr (hlive hr)
    · exact (hl.live h id hid).imp (fun hs => ⟨hs, hh⟩) fun ⟨r, hr⟩ => hlive hr
  · rw [bucket_trimmed hn]
    split
    · exact hn.filter _
    · exact hl.nodup h
  · rw [bucket_trimmed hn, rootCapacity_of_setup (setup_of_bare hrel.bare)]
    split
    · exact (List.length_filter_le _ _).trans (hl.length_le g)
    · exact hl.length_le h

end Trimmed

lemma relinked_listAll (moves : List (RecordId × Gen)) (s : Space) :
    s.Relinked (s.listAll moves) := by
  induction moves generalizing s with
  | nil => exact .refl s
  | cons p ps ih => exact (lists_addRoot s p.2 p.1).relinked.trans (ih _)

lemma listed_listAll (moves : List (RecordId × Gen)) {s : Space} {stale : Gen → Prop}
    (hl : s.Listed stale)
    (hm : ∀ p ∈ moves, ∀ r, s.arena.live? p.1 = some r → p.2 < r.header.generation) :
    (s.listAll moves).Listed stale ∧ ∀ p ∈ moves, ∀ r, s.arena.live? p.1 = some r →
      p.1 ∈ ((s.listAll moves).bucket p.2).roots ∨ (s.listAll moves).collector.overflow = true := by
  induction moves generalizing s with
  | nil => exact ⟨hl, by simp⟩
  | cons p ps ih =>
    have h1 := lists_addRoot s p.2 p.1
    have hrel := relinked_listAll ps (s.addRoot p.2 p.1).2
    obtain ⟨hl1, hnew⟩ := h1.listed stale hl (hm p (by simp))
    obtain ⟨hl2, hnew2⟩ := ih hl1 fun p' hp' q hq => by
      obtain ⟨r, hr, e⟩ := h1.relinked.alike.live' hq
      rw [Record.generation_of_core e]
      exact hm p' (List.mem_cons_of_mem _ hp') r hr
    refine ⟨hl2, fun p' hp' r hr => ?_⟩
    rcases List.mem_cons.1 hp' with rfl | hp'
    · exact (hnew r hr).imp (hrel.roots _ _) hrel.overflow
    · obtain ⟨q, hq, -⟩ := h1.relinked.alike.live hr
      exact hnew2 p' hp' q hq

lemma needsRepair_of_relisted {s s' : Space} (h : s.Relisted s') (hn : s'.needsRepair = false) :
    s.needsRepair = false := by
  unfold needsRepair at hn ⊢
  rw [Bool.or_eq_false_iff] at hn ⊢
  refine ⟨?_, (pendingFull_of_setup (setup_of_bare h.bare)).symm.trans hn.2⟩
  rcases ho : s.collector.overflow with _ | _
  · rfl
  · exact absurd hn.1 (by simp [h.overflow ho])

/-- A holder that refers to a younger generation stays in the table of `g`, or moves to the table of
a generation up to that one, or is in one already. -/
lemma stays_or_moves {s : Space} {stale : Gen → Prop} (hl : s.Listed stale) {g gen : Gen}
    {x y : RecordId} (hx : x ∈ (s.bucket g).roots) (hcross : s.arena.Crosses x y gen)
    (hle : g ≤ gen) : s.staysListed g x = true ∨ (∃ next ≤ gen, (x, next) ∈ s.moves g) ∨
      ∃ j ≤ gen, j ≠ g ∧ x ∈ (s.bucket j).roots := by
  obtain ⟨r, hr, -⟩ := hcross.holder
  have hrefs : (s.arena.youngerThan r.header.generation r.body.references).contains gen = true :=
    (Arena.contains_youngerThan hr).2 ⟨y, hcross⟩
  rcases hin : (s.arena.youngerThan r.header.generation r.body.references).contains g with _ | _
  · right
    have hgt : g < gen := by
      refine lt_of_le_of_ne hle fun e => ?_
      rw [e, hrefs] at hin
      cases hin
    obtain ⟨next, hnext⟩ := GenSet.exists_leastAbove? hgt hrefs
    have hnextle : next ≤ gen := (GenSet.leastAbove?_eq_some hnext).2.2 gen hgt hrefs
    rcases hany : (r.header.rootLinks.erase g).anyUpTo next with _ | _
    · have hmove : s.movesTo? g x = some next := by
        rw [movesTo?_eq hr hin, hnext]
        simp [hany]
      exact .inl ⟨next, hnextle, mem_moves.2 ⟨hx, hmove⟩⟩
    · obtain ⟨j, hj, hcj⟩ := GenSet.anyUpTo_iff.1 hany
      simp only [GenSet.contains_erase, Bool.and_eq_true, decide_eq_true_eq] at hcj
      exact .inr ⟨j, hj.trans hnextle, hcj.1, (hl.mem j x r hr).2 hcj.2⟩
  · exact .inl ((staysListed_iff hr).2 hin)

/-- What the compaction of a table does. -/
structure Compacts (stale : Gen → Prop) (s s' : Space) (g : Gen) : Prop where
  relisted : s.Relisted s'
  listed : s'.Listed fun h => stale h ∧ h ≠ g
  covered : s.Covered [] → s'.Covered []

/-- **Compaction loses no root.** A holder that leaves the table of `g` without moving is listed
for a generation up to the one it would move to. -/
theorem compacts_compactTable {s : Space} {stale : Gen → Prop} (hl : s.Listed stale) (g : Gen) :
    Compacts stale s (s.compactTable g) g := by
  have hn := hl.nodup g
  have hrel := relisted_trimmed hn
  have hrel' := relinked_listAll (s.moves g) (s.trimmed g)
  obtain ⟨hl', hnew⟩ := listed_listAll (s.moves g) (listed_trimmed hn hl) fun p hp q hq => by
    obtain ⟨r, hr, e⟩ := hrel.alike.live' hq
    rw [Record.generation_of_core e]
    exact lt_of_movesTo? hr (mem_moves.1 hp).2
  rw [← compactTable_eq] at hrel' hl' hnew
  have hall := hrel.trans hrel'.toRelisted
  have hkeep {h : Gen} {x : RecordId} (hx : x ∈ (s.bucket h).roots)
      (hstays : h = g → s.staysListed g x = true) : x ∈ ((s.compactTable g).bucket h).roots :=
    hrel'.roots h x ((mem_roots_trimmed hn h x).2 ⟨hx, hstays⟩)
  refine ⟨hall, hl', fun hc hnr x y gen hx hcross => ?_⟩
  replace hcross := hcross.of_alike hall.alike
  obtain ⟨h, hle, hmem⟩ := hc (needsRepair_of_relisted hall hnr) x y gen hx hcross
  by_cases hh : h = g
  · subst hh
    rcases stays_or_moves hl hmem hcross hle with hs | ⟨next, hnext, hmove⟩ | ⟨j, hj, hne, hmem⟩
    · exact ⟨h, hle, hkeep hmem fun _ => hs⟩
    · obtain ⟨r, hr, -⟩ := hcross.holder
      obtain ⟨p, hp, -⟩ := hrel.alike.live hr
      rcases hnew (x, next) hmove p hp with hm | ho
      · exact ⟨next, hnext, hm⟩
      · simp [needsRepair, ho] at hnr
    · exact ⟨j, hj, hkeep hmem fun e => absurd e hne⟩
  · exact ⟨h, hle, hkeep hmem fun e => absurd e hh⟩

/-- Compacting several tables, no matter in which order. -/
lemma compacts_foldl (gs : List Gen) {s : Space} {stale : Gen → Prop} (hl : s.Listed stale) :
    s.Relisted (gs.foldl compactTable s) ∧
    (gs.foldl compactTable s).Listed (fun h => stale h ∧ h ∉ gs) ∧
    (s.Covered [] → (gs.foldl compactTable s).Covered []) := by
  induction gs generalizing s stale with
  | nil => exact ⟨.refl s, by simpa using hl, id⟩
  | cons g gs ih =>
    have h1 := compacts_compactTable hl g
    obtain ⟨hrel, hl2, hc⟩ := ih h1.listed
    refine ⟨h1.relisted.trans hrel, ?_, fun h => hc (h1.covered h)⟩
    simpa [and_assoc, not_or] using hl2

/-! ### Repair -/

/-- The root tables of some generations are emptied. -/
def emptied (s : Space) (gs : List Gen) : Space :=
  gs.foldl (fun s g => s.updateBucket g ({ · with roots := [] })) s

lemma emptied_arena (gs : List Gen) (s : Space) : (s.emptied gs).arena = s.arena := by
  induction gs generalizing s with
  | nil => rfl
  | cons g gs ih => exact ih (s.updateBucket g ({ · with roots := [] }))

lemma bare_emptied (gs : List Gen) (s : Space) : (s.emptied gs).bare = s.bare := by
  induction gs generalizing s with
  | nil => rfl
  | cons g gs ih =>
    exact (ih _).trans (bare_updateBucket s g (f := ({ · with roots := [] })) fun _ => rfl)

lemma roots_emptied (gs : List Gen) {s : Space} {h : Gen} (hh : h ∈ gs ∨ (s.bucket h).roots = []) :
    ((s.emptied gs).bucket h).roots = [] := by
  induction gs generalizing s with
  | nil => simpa [emptied] using hh
  | cons g gs ih =>
    refine ih (s := s.updateBucket g ({ · with roots := [] })) ?_
    rw [bucket_updateBucket]
    by_cases hg : h = g
    · simp [hg]
    · simpa [hg] using hh

/-- Nothing asks for a full collection but a full table. -/
def unpended (s : Space) : Space :=
  { s with collector := { s.collector with pendingFull := false } }

/-- What is left of a space once its root tables are forgotten. -/
structure Cleared (s s' : Space) : Prop where
  alike : s.arena.Alike s'.arena
  marks : ∀ id r q, s.arena.live? id = some r → s'.arena.live? id = some q →
    q.header.marked = r.header.marked
  bare : s'.bare = s.unpended.bare
  listed : s'.Listed fun _ => False

lemma roots_clearRoots (s : Space) (g : Gen) : (s.clearRoots.bucket g).roots = [] := by
  have h : s.clearRoots.bucket g = (s.emptied Gen.all).bucket g :=
    congrArg (fun s => s.bucket g) (onBuckets_eq ({ · with rootLinks := ∅ }) Gen.all _)
  exact (congrArg Bucket.roots h).trans (roots_emptied _ (.inl (Gen.mem_all g)))

lemma cleared_clearRoots {s : Space} (hb : s.Binned) : Cleared s s.clearRoots := by
  let s1 : Space := s.emptied Gen.all
  let s2 : Space := s1.onBuckets ({ · with rootLinks := ∅ }) Gen.all
  have hb1 : s1.Binned := hb.of_alike (by rw [emptied_arena]; exact .refl _)
    (arrivals_of_bare (bare_emptied _ s))
  have harena : s1.arena = s.arena := emptied_arena _ s
  have heq : s2 = { s1 with arena := s2.arena } := onBuckets_eq _ _ s1
  have hlive {id : RecordId} {r : Record} (hr : s.arena.live? id = some r) :
      s2.arena.live? id = some { r with header := { r.header with rootLinks := ∅ } } := by
    refine (live?_onBuckets (f := ({ · with rootLinks := ∅ })) (fun _ => rfl) (by decide) hb1
      (harena ▸ hr)).trans ?_
    rw [if_pos (Gen.mem_all _)]
  have halike : s.arena.Alike s2.arena := harena ▸ alike_onBuckets (fun _ => rfl) _ s1
  have hroots (g : Gen) : (s.clearRoots.bucket g).roots = [] := roots_clearRoots s g
  refine ⟨halike, fun id r q hr hq => ?_, ?_, fun g id q hq => ?_, fun g id r _ hid => ?_,
    fun g id hid => ?_, fun g => ?_, fun g => ?_⟩
  · rw [Option.some.inj (Eq.trans hq.symm (hlive hr))]
  · have h1 : s1.bare = s.bare := bare_emptied _ s
    have h2 : s2.bare = s1.bare := congrArg (fun s => s.bare) heq
    exact congrArg (fun b : Space =>
      { b with collector := { b.collector with pendingFull := false } }) (h2.trans h1)
  · obtain ⟨r, hr, -⟩ := halike.live' hq
    rw [Option.some.inj (Eq.trans hq.symm (hlive hr)), hroots]
    simp
  · simp [hroots] at hid
  · simp [hroots] at hid
  · simp [hroots]
  · simp [hroots]

/-- A holder is listed for the generations below `g` that it refers to. -/
lemma relist_eq {s : Space} {g : Gen} {holder : RecordId} {refs : GenSet}
    (hrefs : s.references? holder = some refs) : s.relist g holder =
      (s.modifyHeader holder ({ · with refLinks := refs })).listAll
        ((Gen.all.filter fun h => h < g && refs.contains h).map (holder, ·)) := by
  unfold relist
  rw [hrefs, listAll, List.foldl_map]

/-- A record of generation `g` is listed for every younger generation it refers to. -/
lemma notes_relist {s : Space} {g : Gen} {holder : RecordId}
    (hg : ∀ r, s.arena.live? holder = some r → r.header.generation = g) :
    Notes s (s.relist g holder) fun x _ => x = holder := by
  rcases hsome : s.references? holder with _ | refs
  · unfold relist
    rw [hsome]
    refine (Notes.refl s).mono ?_
    rintro x y _ ⟨r, _, hr, -⟩ rfl
    simp [references?, hr] at hsome
  · rw [relist_eq hsome]
    obtain ⟨r, hr, rfl⟩ := references?_eq_some.1 hsome
    obtain rfl := hg r hr
    set refs := s.arena.youngerThan r.header.generation r.body.references with hrefs
    let gs := Gen.all.filter fun h => h < r.header.generation && refs.contains h
    let s1 : Space := s.modifyHeader holder ({ · with refLinks := refs })
    have h1 := notes_refLinks s holder refs
    have hrel := relinked_listAll (gs.map (holder, ·)) s1
    have hlist (stale : Gen → Prop) (hs : s.Listed stale) :=
      listed_listAll (gs.map (holder, ·)) (h1.listed stale hs) fun p hp q hq => by
        obtain ⟨h, hh, rfl⟩ := List.mem_map.1 hp
        obtain ⟨r', hr', e⟩ := h1.relinked.alike.live' hq
        rw [hr] at hr'
        obtain rfl := Option.some.inj hr'
        rw [Record.generation_of_core e]
        simpa using (Bool.and_eq_true_iff.1 (List.mem_filter.1 hh).2).1
    refine ⟨h1.relinked.trans hrel, fun stale hs => (hlist stale hs).1, ?_⟩
    rintro stale hs _ y gen rfl hcross
    obtain ⟨r', hr', hlt⟩ := hcross.holder
    rw [hr] at hr'
    obtain rfl := Option.some.inj hr'
    have hrefer : refs.contains gen = true := (Arena.contains_youngerThan hr).2 ⟨y, hcross⟩
    have hgen : gen ∈ gs := List.mem_filter.2 ⟨Gen.mem_all _, by simp [hlt, hrefer]⟩
    obtain ⟨p, hp, -⟩ := h1.relinked.alike.live hr
    exact (hlist stale hs).2 (_, gen) (List.mem_map.2 ⟨gen, hgen, rfl⟩) p hp

lemma notes_relistAll (g : Gen) (holders : List RecordId) {s : Space}
    (hg : ∀ x ∈ holders, ∀ r, s.arena.live? x = some r → r.header.generation = g) :
    Notes s (holders.foldl (relist · g) s) fun x _ => x ∈ holders := by
  induction holders generalizing s with
  | nil => exact (Notes.refl s).mono fun x y _ _ => by simp
  | cons x xs ih =>
    have h1 := notes_relist (hg x (by simp))
    have h2 := ih (s := s.relist g x) fun z hz q hq => by
      obtain ⟨r, hr, e⟩ := h1.relinked.alike.live' hq
      rw [Record.generation_of_core e]
      exact hg z (List.mem_cons_of_mem _ hz) r hr
    exact (h1.trans h2).mono fun z _ _ _ hz => List.mem_cons.1 hz

/-- All the records of some generations are listed again. -/
lemma notes_relistBuckets (gs : List Gen) {s : Space} (hb : s.Binned) :
    Notes s (gs.foldl (fun s g => (s.bucket g).live.foldl (relist · g) s) s)
      fun x _ => ∃ r, s.arena.live? x = some r ∧ r.header.generation ∈ gs := by
  induction gs generalizing s with
  | nil => exact (Notes.refl s).mono fun x y _ _ => by simp
  | cons g gs ih =>
    have hmem {x : RecordId} : x ∈ (s.bucket g).live ↔
        ∃ r, s.arena.live? x = some r ∧ r.header.generation = g := by
      simp [Bucket.live, hb.mem]
    have h1 := notes_relistAll g (s.bucket g).live (s := s) fun x hx r hr => by
      obtain ⟨q, hq, e⟩ := hmem.1 hx
      rw [hr] at hq
      exact Option.some.inj hq ▸ e
    have h2 := ih (hb.of_alike h1.relinked.alike (arrivals_of_bare h1.relinked.bare))
    refine (h1.trans h2).mono ?_
    rintro x y _ - ⟨r, hr, hg⟩
    rcases List.mem_cons.1 hg with hg | hg
    · exact .inl (hmem.2 ⟨r, hr, hg⟩)
    · obtain ⟨q, hq, e⟩ := h1.relinked.alike.live hr
      exact .inr ⟨q, hq, Record.generation_of_core e ▸ hg⟩

/-! ### The upkeep of a pass -/

/-- What the upkeep of a pass does: it changes links and root tables only, and the tables are in
order afterwards. -/
structure Tidied (s s' : Space) (repair : Bool) : Prop where
  alike : s.arena.Alike s'.arena
  /-- What is not in the records and the root tables stays, but for what tells of full tables. -/
  bare : ∃ pendingFull, s'.bare =
    ({ s with collector := { s.collector with pendingFull } } : Space).bare
  marks : ∀ id r q, s.arena.live? id = some r → s'.arena.live? id = some q →
    q.header.marked = r.header.marked
  arrivals : ∀ g, (s'.bucket g).arrivals = (s.bucket g).arrivals
  pools : s'.pools = s.pools
  worklist : s'.collector.worklist = s.collector.worklist
  rootCapacity : s'.collector.rootCapacity = s.collector.rootCapacity
  listed : s'.Listed fun _ => False
  covered : s.Covered [] ∨ repair = true → s'.Covered []
  pendingFull : s'.collector.pendingFull = (s.collector.pendingFull && !repair)
  overflow : repair = false → s.collector.overflow = true → s'.collector.overflow = true

theorem tidied_resetRoots {s : Space} {target : Gen} (hl : s.Listed (· < target)) :
    Tidied s (s.resetRoots target) false := by
  obtain ⟨hrel, hl', hc⟩ := compacts_foldl (Gen.upTo target) hl
  have hsetup := setup_of_bare hrel.bare
  refine ⟨hrel.alike, ⟨_, hrel.bare⟩, hrel.marks, arrivals_of_bare hrel.bare,
    pools_of_bare hrel.bare, worklist_of_setup hsetup, rootCapacity_of_setup hsetup,
    ⟨hl'.mem, hl'.elder, fun g id hid => .inr ((hl'.live g id hid).resolve_left ?_), hl'.nodup,
      hl'.length_le⟩, fun h => hc (h.resolve_right (by simp)), ?_, fun _ => hrel.overflow⟩
  · rintro ⟨hlt, hnot⟩
    exact hnot (Gen.mem_upTo.2 hlt.le)
  · rw [Bool.not_false, Bool.and_true]
    exact pendingFull_of_setup hsetup

/-- Every elder record is listed again. -/
def relistedAll (s : Space) : Space :=
  (Gen.above .new).foldl (fun s g => (s.bucket g).live.foldl (relist · g) s) s.clearRoots

lemma rebuildRoots_eq (s : Space) : s.rebuildRoots = s.relistedAll.emit
    (.tablesRebuilt s.relistedAll.collector.overflow
      (Gen.all.map fun g => (s.relistedAll.bucket g).roots.length)) := by
  unfold rebuildRoots relistedAll
  rfl

/-- No reference to a younger record is missed, since its holder is above the youngest
generation. -/
lemma notes_relistedAll {s : Space} (hb : s.Binned) :
    Notes s.clearRoots s.relistedAll fun _ _ => True := by
  obtain ⟨halike, -, hbare, -⟩ := cleared_clearRoots hb
  have harr (g : Gen) : (s.clearRoots.bucket g).arrivals = (s.bucket g).arrivals :=
    arrivals_of_bare (s := s.unpended) hbare g
  refine (notes_relistBuckets (Gen.above .new) (hb.of_alike halike harr)).mono fun x y g hx _ => ?_
  obtain ⟨r, hr, hlt⟩ := hx.holder
  exact ⟨r, hr, Gen.mem_above.2 (lt_of_le_of_lt (Fin.zero_le _) hlt)⟩

/-- **A repair lists every reference to a younger record**, unless a table is full again. -/
theorem tidied_rebuildRoots {s : Space} (hb : s.Binned) : Tidied s s.rebuildRoots true := by
  obtain ⟨halike, hmarks, hbare, hlisted⟩ := cleared_clearRoots hb
  have hn := notes_relistedAll hb
  rw [rebuildRoots_eq]
  generalize s.relistedAll = s1 at hn
  have hrel := hn.relinked
  have hbare' := hrel.bare.trans hbare
  have hsetup := setup_of_bare hbare'
  refine ⟨halike.trans hrel.alike, ⟨false, hbare'⟩, fun id r q hr hq => ?_,
    arrivals_of_bare (s := s.unpended) hbare', pools_of_bare (s := s.unpended) hbare',
    worklist_of_setup (s := s.unpended) hsetup, rootCapacity_of_setup (s := s.unpended) hsetup, ?_,
    fun _ hnr x y gen _ hcross => ?_, ?_, by simp⟩
  · obtain ⟨p, hp, -⟩ := halike.live hr
    exact (hrel.marks id p q hp hq).trans (hmarks id r p hr hp)
  · have h1 := hn.listed _ hlisted
    exact ⟨h1.mem, h1.elder, h1.live, h1.nodup, h1.length_le⟩
  · replace hcross := hcross.of_alike hrel.alike
    rcases hn.noted _ hlisted x y gen trivial hcross with h | ho
    · exact ⟨gen, le_refl _, h⟩
    · have hnr' : s1.needsRepair = false := hnr
      simp [needsRepair, ho] at hnr'
  · rw [Bool.not_true, Bool.and_false]
    exact pendingFull_of_setup hsetup

end Space

end ScriptHeap
