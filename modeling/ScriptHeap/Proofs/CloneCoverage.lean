import Mathlib
import ScriptHeap.Proofs.Runs

/-!
Clones and the root tables. A copy may be elder than what it refers to, and a deep clone makes many
copies before the barrier runs for the first of them. If it succeeds, or if the clone is shallow,
the tables tell all that the copies refer to. A deep clone that is refused half way never gets to
the barrier, and the tables tell nothing of the copies that it leaves.
-/

namespace ScriptHeap

open Heap Space

namespace Space

/-- A reference to a younger record that the root tables do not tell, though none of them has
overflowed. -/
def Missed (s : Space) (x y : RecordId) : Prop :=
  s.collector.overflow = false ∧ ∃ g, s.arena.Crosses x y g ∧ ∀ j ≤ g, x ∉ (s.bucket j).roots

variable {s t : Space} {new : List RecordId} {x y : RecordId} {g k : Gen}

/-! ### The barrier for several holders -/

lemma mem_roots_recordReference {holder : RecordId} {y : Slot} (hx : x ≠ holder)
    (h : x ∈ ((s.recordReference holder y).bucket k).roots) : x ∈ (s.bucket k).roots := by
  unfold recordReference at h
  split at h
  · split at h
    · exact (mem_roots_addRoot h).resolve_right fun e => hx (Prod.mk.inj e).1
    · exact h
  · exact h

lemma mem_roots_recordReferences {holder : RecordId} (hx : x ≠ holder)
    (h : x ∈ ((s.recordReferences holder).bucket k).roots) : x ∈ (s.bucket k).roots := by
  unfold recordReferences at h
  split at h
  · next r hr =>
    generalize r.body.references = ys at h
    clear hr
    induction ys generalizing s with
    | nil => exact h
    | cons y ys ih => exact mem_roots_recordReference hx (ih h)
  · exact h

/-- The barrier lists nobody but the holders that it runs for. -/
lemma mem_roots_recordEach {xs : List RecordId} (hx : x ∉ xs)
    (h : x ∈ ((xs.foldl recordReferences s).bucket k).roots) : x ∈ (s.bucket k).roots := by
  induction xs generalizing s with
  | nil => exact h
  | cons z xs ih =>
    rw [List.mem_cons, not_or] at hx
    exact mem_roots_recordReferences hx.1 (ih hx.2 h)

/-! ### What new records leave as it was -/

namespace Adds

/-- Between records that were live before, references are what they were. -/
lemma crosses (h : Adds s t new) (hc : t.arena.Crosses x y g) (hx : x ∉ new) (hy : y ∉ new) :
    s.arena.Crosses x y g := by
  obtain ⟨r, q, hr, href, hq, hrest⟩ := hc
  rw [h.others x hx] at hr
  rw [h.others y hy] at hq
  exact ⟨r, q, hr, href, hq, hrest⟩

lemma isLive_of_crosses (h : Adds s t new) (hc : t.arena.Crosses x y g) (hx : x ∉ new) :
    s.arena.isLive x = true := by
  obtain ⟨r, hr, -⟩ := hc.holder
  exact Arena.isLive_iff.2 ⟨r, (h.others x hx).symm.trans hr⟩

/-- An old record that no table tells of refers to a place that a new one has taken. -/
lemma dangled (h : Adds s t new)
    (hcovered : ∀ x y g, s.arena.Crosses x y g → ∃ j ≤ g, x ∈ (s.bucket j).roots)
    (hc : t.arena.Crosses x y g) (hx : x ∉ new) (hnot : ∀ j ≤ g, x ∉ (s.bucket j).roots) :
    s.arena.isLive y = false := by
  refine h.dead_of_mem (by_contra fun hy => ?_)
  obtain ⟨j, hj, hmem⟩ := hcovered x y g (h.crosses hc hx hy)
  exact hnot j hj hmem

/-- The tables tell nothing of a record that has come about. -/
lemma not_mem_roots (h : Adds s t new) (hs : s.Sound) (hx : s.arena.isLive x = false) (j : Gen) :
    x ∉ (t.bucket j).roots := by
  rw [h.roots]
  intro hmem
  obtain ⟨r, hr⟩ := (hs.listed.live j x hmem).resolve_left not_false
  rw [Arena.isLive_iff.2 ⟨r, hr⟩] at hx
  cases hx

/-- What the tables do not tell: what new records refer to, and what dangled. -/
lemma unlisted_iff (h : Adds s t new) (hs : s.Sound)
    (hcovered : ∀ x y g, s.arena.Crosses x y g → ∃ j ≤ g, x ∈ (s.bucket j).roots)
    (hc : t.arena.Crosses x y g) : (∀ j ≤ g, x ∉ (t.bucket j).roots) ↔
      s.arena.isLive x = false ∨ s.arena.isLive x = true ∧ s.arena.isLive y = false ∧
        ∀ j ≤ g, x ∉ (s.bucket j).roots := by
  constructor
  · intro hnot
    by_cases hx : x ∈ new
    · exact .inl (h.dead_of_mem hx)
    · have hnot' : ∀ j ≤ g, x ∉ (s.bucket j).roots := fun j hj => h.roots j ▸ hnot j hj
      exact .inr ⟨h.isLive_of_crosses hc hx, h.dangled hcovered hc hx hnot', hnot'⟩
  · rintro (hdead | ⟨-, -, hnot⟩) j hj
    · exact h.not_mem_roots hs hdead j
    · exact (h.roots j).symm ▸ hnot j hj

/-- Once the barrier has run for the new records, and no table was full, only what dangled is not
told. -/
lemma unlisted_recordEach_iff (h : Adds s t new) {stale : Gen → Prop} (hlisted : t.Listed stale)
    (hcovered : ∀ x y g, s.arena.Crosses x y g → ∃ j ≤ g, x ∈ (s.bucket j).roots)
    (ho : (new.foldl recordReferences t).collector.overflow = false)
    (hc : (new.foldl recordReferences t).arena.Crosses x y g) :
    (∀ j ≤ g, x ∉ ((new.foldl recordReferences t).bucket j).roots) ↔
      s.arena.isLive x = true ∧ s.arena.isLive y = false ∧
        ∀ j ≤ g, x ∉ (s.bucket j).roots := by
  have hnotes := notes_recordEach new t
  have hc' : t.arena.Crosses x y g := hc.of_alike hnotes.relinked.alike
  constructor
  · intro hnot
    have hx : x ∉ new := fun hx => by
      rcases hnotes.noted _ hlisted x y g hx hc' with hmem | hover
      · exact hnot g le_rfl hmem
      · exact Bool.false_ne_true (ho.symm.trans hover)
    have hnot' : ∀ j ≤ g, x ∉ (s.bucket j).roots := fun j hj hmem =>
      hnot j hj (hnotes.relinked.roots j x (by rwa [h.roots]))
    exact ⟨h.isLive_of_crosses hc' hx, h.dangled hcovered hc' hx hnot', hnot'⟩
  · rintro ⟨hlive, -, hnot⟩ j hj hmem
    have hx : x ∉ new := fun hx => by
      rw [h.dead_of_mem hx] at hlive
      cases hlive
    exact hnot j hj (h.roots j ▸ mem_roots_recordEach hx hmem)

end Adds

end Space

section Clone

variable [Environment]

/-- **What a clone keeps the root tables from telling.** Suppose that they tell all they have to and
need no repair. What they miss after a clone are the references that the copies of a refused deep
clone hold to younger records, and what an old record referred to in a place where no record was
live and a copy has come about. They miss nothing else, whatever the generation that is allocated
into and whatever the limit on memory. -/
theorem clone_misses_iff (o : HeapOptions) (ops : List Operation)
    (hoverflow : (run (fresh o) ops).collector.overflow = false)
    (hpending : (run (fresh o) ops).collector.pendingFull = false)
    (hcovered : ∀ x y g, (run (fresh o) ops).arena.Crosses x y g →
      ∃ j ≤ g, x ∈ ((run (fresh o) ops).toSpace.bucket j).roots) (id : RecordId) (deep : Bool) :
    let h := run (fresh o) ops
    let res := (apply (.cloneObject id deep) h).1
    let h' := (apply (.cloneObject id deep) h).2
    ∀ x y, h'.toSpace.Missed x y ↔ ∃ g, h'.arena.Crosses x y g ∧
      (h.arena.isLive x = false ∧ deep = true ∧ (∃ e, res = .error e) ∨
        h.arena.isLive x = true ∧ h.arena.isLive y = false ∧
          (∀ j ≤ g, x ∉ (h.toSpace.bucket j).roots) ∧ h'.collector.overflow = false) := by
  intro h
  have hs : h.toSpace.Sound := (sound_run ops (steady_fresh o).1.toSound).1
  have hrepair : h.toSpace.needsRepair = false := by
    rw [needsRepair, hoverflow, hpending]
    rfl
  suffices hy : Yields (perform (.cloneObject id deep)) h fun res h' =>
      ∀ x y, h'.toSpace.Missed x y ↔ ∃ g, h'.arena.Crosses x y g ∧
        (h.arena.isLive x = false ∧ deep = true ∧ (∃ e, res = .error e) ∨
          h.arena.isLive x = true ∧ h.arena.isLive y = false ∧
            (∀ j ≤ g, x ∉ (h.toSpace.bucket j).roots) ∧ h'.collector.overflow = false) from
    yields_apply.1 hy
  refine yields_map.2 ((yields_cloneObject False hs id deep).mono fun res h' hres x y => ?_)
  rw [Missed, ← exists_and_left]
  refine exists_congr fun g => and_left_comm.trans (and_congr_right fun hcross => ?_)
  rcases res with e | copy
  · obtain ⟨⟨P, new, -, hadds⟩, hsame⟩ := hres
    have ho : h'.collector.overflow = false :=
      (Bool.or_eq_false_iff.1 (hadds.needsRepair.trans hrepair)).1
    have hdeep (hdead : h.arena.isLive x = false) : deep = true := by
      -- a shallow clone that is refused has made no copy
      by_contra hshallow
      obtain ⟨r, hr, -⟩ := hcross.holder
      rw [hsame (by simpa using hshallow)] at hr
      rw [Arena.isLive_iff.2 ⟨r, hr⟩] at hdead
      cases hdead
    rw [hadds.unlisted_iff hs hcovered hcross]
    constructor
    · rintro ⟨-, hdead | ⟨hx, hy, hnot⟩⟩
      · exact .inl ⟨hdead, hdeep hdead, ⟨e, rfl⟩⟩
      · exact .inr ⟨hx, hy, hnot, ho⟩
    · rintro (⟨hdead, -, -⟩ | ⟨hx, hy, hnot, -⟩)
      · exact ⟨ho, .inl hdead⟩
      · exact ⟨ho, .inr ⟨hx, hy, hnot⟩⟩
  · obtain ⟨-, copies, P, m, hP, -, hadds, rfl⟩ := hres
    have hlisted := (hP.changes.sound hs).1.listed
    constructor
    · rintro ⟨ho, hnot⟩
      obtain ⟨hx, hy, hnot'⟩ := (hadds.unlisted_recordEach_iff hlisted hcovered ho hcross).1 hnot
      exact .inr ⟨hx, hy, hnot', ho⟩
    · rintro (⟨-, -, hbad⟩ | ⟨hx, hy, hnot, ho⟩)
      · obtain ⟨e, he⟩ := hbad
        cases he
      · exact ⟨ho, (hadds.unlisted_recordEach_iff hlisted hcovered ho hcross).2 ⟨hx, hy, hnot⟩⟩

end Clone

/-- Room for three objects, one of them with a slot array, and for a second array. -/
def narrow : HeapOptions := { HeapOptions.tuned .balanced with maxMemory := 320 }

/-- A new object refers to another one, and old records come next. -/
def narrowRun : List Operation :=
  [.createPlainObject, .createPlainObject, .setProperty 1 (-1) (some 2), .setAllocGeneration .old]

/-- There is no room for a copy of the child. The copy of its holder is old, and no table tells what
it refers to. -/
theorem clone_misses_child :
    (apply (.cloneObject 1 true) (run (fresh narrow) narrowRun)).1 = .error .outOfMemory ∧
      (apply (.cloneObject 1 true) (run (fresh narrow) narrowRun)).2.toSpace.Missed 3 2 := by
  have hord : Orderly (fresh narrow) narrowRun := ⟨trivial, trivial, trivial, trivial, trivial⟩
  have hcovered := (steady_run narrowRun (steady_fresh narrow).1 hord).covered (by cbv)
  have hmissed := clone_misses_iff narrow narrowRun (by cbv) (by cbv)
    (fun x y g hc => hcovered x y g List.not_mem_nil hc) 1 true 3 2
  have hrefused : (apply (.cloneObject 1 true) (run (fresh narrow) narrowRun)).1 =
      .error .outOfMemory := by cbv
  have hdead : (run (fresh narrow) narrowRun).arena.isLive 3 = false := by cbv
  have hcopy : ((apply (.cloneObject 1 true) (run (fresh narrow) narrowRun)).2.arena.live? 3).map
      (fun r => (r.body.references, r.header.generation)) = some ([2], .old) := by cbv
  have hchild : ((apply (.cloneObject 1 true) (run (fresh narrow) narrowRun)).2.arena.live? 2).map
      (fun q => (q.header.permanent, q.header.generation)) = some (false, .new) := by cbv
  obtain ⟨r, hr, href⟩ := Option.map_eq_some_iff.1 hcopy
  obtain ⟨q, hq, hyoung⟩ := Option.map_eq_some_iff.1 hchild
  rw [Prod.mk.injEq] at href hyoung
  refine ⟨hrefused, hmissed.2 ⟨.new, ⟨r, q, hr, ?_, hq, hyoung.1, hyoung.2, ?_⟩,
    .inl ⟨hdead, rfl, ⟨_, hrefused⟩⟩⟩⟩
  · rw [href.1]
    exact List.mem_singleton.2 rfl
  · rw [href.2]
    decide

end ScriptHeap
