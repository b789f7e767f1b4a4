import ScriptHeap.Collector.Collect
import ScriptHeap.Proofs.Marking
import ScriptHeap.Proofs.RootTable

/-!
The mark phase of a pass. Everything it marks is reachable from the heap roots, from permanent
records or from records elder than the collected generations. Conversely it marks every record of
the collected generations that is reachable in this way, as long as the root tables cover the
references from elder to younger records, or the pass repairs the tables.
-/

namespace ScriptHeap

/-- Reachability through the references of live records, from the records of a base. -/
inductive Arena.Reaches (a : Arena) (base : RecordId → Prop) : RecordId → Prop
  | base {id : RecordId} {r : Record} : base id → a.live? id = some r → Reaches a base id
  | step {id child : RecordId} {r q : Record} :
    Reaches a base id → a.live? id = some r → child ∈ r.body.references →
    a.live? child = some q → Reaches a base child

lemma Arena.Reaches.live {a : Arena} {base : RecordId → Prop} {id : RecordId}
    (h : a.Reaches base id) : ∃ r, a.live? id = some r := by
  cases h with
  | base _ h => exact ⟨_, h⟩
  | step _ _ _ h => exact ⟨_, h⟩

lemma Arena.Reaches.mono {a : Arena} {base base' : RecordId → Prop} {id : RecordId}
    (hr : a.Reaches base id) (h : ∀ id, base id → base' id) : a.Reaches base' id := by
  induction hr with
  | base hb hl => exact .base (h _ hb) hl
  | step _ hr hc hq ih => exact .step ih hr hc hq

/-- Live records refer to live records only. -/
def Arena.Closed (a : Arena) : Prop :=
  ∀ x r y, a.live? x = some r → y ∈ r.body.references → ∃ q, a.live? y = some q

namespace Space

def Unmarked (s : Space) : Prop := ∀ id r, s.arena.live? id = some r → r.header.marked = false

/-- Whenever a live record refers to a younger one that is not permanent, it is listed for the
generation of that one or for an even younger one. Pending references, each with its holder, are
exempt, and so is everything while the tables are known to need repair. -/
def Covered (s : Space) (pending : List (RecordId × RecordId)) : Prop :=
  s.needsRepair = false → ∀ x y g, (x, y) ∉ pending → s.arena.Crosses x y g →
    ∃ h ≤ g, x ∈ (s.bucket h).roots

/-- The mark phase of a pass marks the record. -/
def Marks (s : Space) (target : Gen) (roots : List RecordId) (repair : Bool) (id : RecordId) :
    Prop :=
  ∃ r, (s.mark target roots repair).2.arena.live? id = some r ∧ r.header.marked = true

/-- What a pass has to keep alive: the heap roots, permanent records, and records elder than the
collected generations. -/
def Anchored (s : Space) (target : Gen) (roots : List RecordId) (id : RecordId) : Prop :=
  id ∈ roots ∨ ∃ r, s.arena.live? id = some r ∧
    (r.header.permanent = true ∨ target < r.header.generation)

/-! ### The two drains -/

lemma live?_modifyRefLinks (ids : List RecordId) (f : GenSet → GenSet) {a : Arena} {id : RecordId}
    {r : Record} (hr : a.live? id = some r) :
    ∃ links, (a.modifyHeaders ids fun h => { h with refLinks := f h.refLinks }).live? id =
      some (r.visited r.header.marked links) := by
  induction ids generalizing a r with
  | nil => exact ⟨r.header.refLinks, hr⟩
  | cons j js ih =>
    have h := Arena.live?_modifyHeader a j (fun h => { h with refLinks := f h.refLinks }) id
    rw [hr] at h
    split at h
    · obtain ⟨links, h⟩ := ih h
      exact ⟨links, h⟩
    · exact ih h

variable (s : Space) (target : Gen) (roots : List RecordId) (repair : Bool)

/-- The arena of the first drain, in which the links to the collected generations are cleared. -/
def clearedArena : Arena :=
  s.arena.modifyHeaders (s.holders target) fun h =>
    { h with refLinks := h.refLinks.eraseUpTo target }

/-- The arena between the two drains. -/
def firstArena : Arena :=
  (Marking.drain target ⟨s.clearedArena target, roots ++ s.permanents target, 0⟩).arena

def secondArena : Arena :=
  (Marking.drain .eternal ⟨s.firstArena target roots, s.elders target repair, 0⟩).arena

def FirstSpread (id : RecordId) : Prop :=
  (s.clearedArena target).Spread target (roots ++ s.permanents target) id

def SecondSpread (id : RecordId) : Prop :=
  (s.firstArena target roots).Spread .eternal (s.elders target repair) id

lemma alike_clearedArena : s.arena.Alike (s.clearedArena target) :=
  Arena.alike_modifyHeaders _ _ fun _ => rfl

lemma alike_firstArena : s.arena.Alike (s.firstArena target roots) :=
  (s.alike_clearedArena target).trans
    (Marking.alike_drain target ⟨s.clearedArena target, roots ++ s.permanents target, 0⟩)

lemma alike_secondArena : s.arena.Alike (s.secondArena target roots repair) :=
  (s.alike_firstArena target roots).trans
    (Marking.alike_drain .eternal ⟨s.firstArena target roots, s.elders target repair, 0⟩)

/-- The permanent records and the elders of a pass are read off parts that the drains leave
alone. -/
lemma permanents_congr {s s' : Space} {target : Gen} (ha : s.arena.Alike s'.arena)
    (hb : ∀ g, s'.bucket g = s.bucket g) : s'.permanents target = s.permanents target := by
  unfold permanents
  refine List.flatMap_congr fun g _ => ?_
  rw [hb]
  refine List.filter_congr fun id _ => ?_
  rw [ha.header?_any _ fun h => Record.permanent_of_core h]

lemma elders_congr {s s' : Space} {target : Gen} {repair : Bool} (ha : s.arena.Alike s'.arena)
    (hb : ∀ g, s'.bucket g = s.bucket g) : s'.elders target repair = s.elders target repair := by
  unfold elders holders
  simp only [hb]
  congr 1
  refine List.filter_congr fun id _ => ?_
  rw [ha.header?_any _ fun h => by rw [Record.generation_of_core h]]

theorem mark_eq (hw : s.collector.worklist = []) :
    (s.mark target roots repair).2 =
      { s with
        arena := s.secondArena target roots repair
        collector := { s.collector with phase := .marking, worklist := [] } } := by
  let s1 : Space := { s with
    arena := s.clearedArena target
    collector := { s.collector with phase := .marking } }
  have hp : s1.permanents target = s.permanents target :=
    permanents_congr (s.alike_clearedArena target) fun _ => rfl
  have h1 : ((s1.schedule (roots ++ s1.permanents target)).drain target).2 =
      { s with
        arena := s.firstArena target roots
        collector := { s.collector with phase := .marking, worklist := [] } } := by
    rw [hp]
    unfold drain schedule
    simp only [s1, hw, List.nil_append, Marking.worklist_drain]
    rfl
  have he : (((s1.schedule (roots ++ s1.permanents target)).drain target).2).elders target repair =
      s.elders target repair := by
    rw [h1]
    exact elders_congr (s.alike_firstArena target roots) fun _ => rfl
  have h2 : (s.mark target roots repair).2 =
      ((((s1.schedule (roots ++ s1.permanents target)).drain target).2.schedule
        ((((s1.schedule (roots ++ s1.permanents target)).drain target).2).elders target
          repair)).drain .eternal).2 := rfl
  rw [h2, he, h1]
  unfold drain schedule
  simp only [List.nil_append, Marking.worklist_drain]
  rfl

section

variable {s} (hu : s.Unmarked) {id : RecordId} {r : Record} (hr : s.arena.live? id = some r)
include hu hr

lemma live?_clearedArena :
    ∃ links, (s.clearedArena target).live? id = some (r.visited false links) := by
  obtain ⟨links, h⟩ := live?_modifyRefLinks (s.holders target) (·.eraseUpTo target) hr
  exact ⟨links, hu id r hr ▸ h⟩

open Classical in
lemma live?_firstArena : ∃ links, (s.firstArena target roots).live? id =
    some (r.visited (decide (s.FirstSpread target roots id)) links) := by
  obtain ⟨links, h⟩ := live?_clearedArena target hu hr
  obtain ⟨links', h'⟩ := Marking.live?_drain_visited target (roots ++ s.permanents target) h
  rw [Bool.false_or] at h'
  exact ⟨links', h'⟩

open Classical in
lemma live?_secondArena : ∃ links, (s.secondArena target roots repair).live? id =
    some (r.visited (decide (s.FirstSpread target roots id ∨ s.SecondSpread target roots repair id))
      links) := by
  obtain ⟨links, h⟩ := live?_firstArena target roots hu hr
  obtain ⟨links', h'⟩ := Marking.live?_drain_visited .eternal (s.elders target repair) h
  rw [← Bool.decide_or] at h'
  exact ⟨links', h'⟩

/-- The mark phase changes the marks and the noted links of live records, nothing else. -/
theorem live?_mark (hw : s.collector.worklist = []) : ∃ marked links,
    (s.mark target roots repair).2.arena.live? id = some (r.visited marked links) := by
  rw [mark_eq s target roots repair hw]
  obtain ⟨links, h⟩ := live?_secondArena target roots repair hu hr
  exact ⟨_, links, h⟩

end

variable {s target roots repair}

lemma alike_mark (hw : s.collector.worklist = []) :
    s.arena.Alike (s.mark target roots repair).2.arena := by
  rw [mark_eq _ _ _ _ hw]
  exact s.alike_secondArena target roots repair

lemma marks_iff (hw : s.collector.worklist = []) (hu : s.Unmarked) {id : RecordId} :
    s.Marks target roots repair id ↔
      s.FirstSpread target roots id ∨ s.SecondSpread target roots repair id := by
  unfold Marks
  rw [mark_eq _ _ _ _ hw]
  constructor
  · rintro ⟨q, hq, hm⟩
    obtain ⟨r, hr, -⟩ := (s.alike_secondArena target roots repair).live' hq
    obtain ⟨links, h⟩ := live?_secondArena target roots repair hu hr
    rw [hq] at h
    obtain rfl := Option.some.inj h
    simpa [Record.visited] using hm
  · intro h
    have hlive : ∃ r, s.arena.live? id = some r := by
      rcases h with h | h <;> obtain ⟨q, hq⟩ := h.visit
      · obtain ⟨r, hr, -⟩ := (s.alike_clearedArena target).live' (Arena.visit?_eq_some.1 hq).1
        exact ⟨r, hr⟩
      · obtain ⟨r, hr, -⟩ := (s.alike_firstArena target roots).live' (Arena.visit?_eq_some.1 hq).1
        exact ⟨r, hr⟩
    obtain ⟨r, hr⟩ := hlive
    obtain ⟨links, hq⟩ := live?_secondArena target roots repair hu hr
    exact ⟨_, hq, by simpa [Record.visited] using h⟩

/-! ### What is marked -/

lemma visit_first (hu : s.Unmarked) {id : RecordId} {r : Record}
    (hr : s.arena.live? id = some r) (hg : r.header.generation ≤ target) :
    ∃ q, (s.clearedArena target).visit? target id = some q := by
  obtain ⟨links, h⟩ := live?_clearedArena target hu hr
  exact ⟨_, Arena.visit?_eq_some.2 ⟨h, rfl, hg⟩⟩

/-- What the first drain has left unmarked, the second one visits in whatever generation. -/
lemma visit_second (hu : s.Unmarked) {id : RecordId} {r : Record}
    (hr : s.arena.live? id = some r) (hn : ¬ s.FirstSpread target roots id) :
    ∃ q, (s.firstArena target roots).visit? .eternal id = some q ∧
      q.header.generation = r.header.generation := by
  obtain ⟨links, h⟩ := live?_firstArena target roots hu hr
  exact ⟨_, Arena.visit?_eq_some.2 ⟨h, by simpa [Record.visited] using hn, Fin.le_last _⟩, rfl⟩

section

variable (hw : s.collector.worklist = []) (hu : s.Unmarked)
include hw hu

lemma marks_seed {id : RecordId} {r : Record} (hid : id ∈ roots ∨ id ∈ s.permanents target)
    (hr : s.arena.live? id = some r) (hg : r.header.generation ≤ target) :
    s.Marks target roots repair id := by
  obtain ⟨q, hq⟩ := visit_first hu hr hg
  exact (marks_iff hw hu).2 (.inl (.seed (List.mem_append.2 hid) hq))

lemma marks_elder {id : RecordId} {r : Record} (hid : id ∈ s.elders target repair)
    (hr : s.arena.live? id = some r) : s.Marks target roots repair id := by
  by_cases h : s.FirstSpread target roots id
  · exact (marks_iff hw hu).2 (.inl h)
  · obtain ⟨q, hq, -⟩ := visit_second hu hr h
    exact (marks_iff hw hu).2 (.inr (.seed hid hq))

/-- Marks are closed under references into the collected generations. -/
lemma marks_child (ht : target < Gen.eternal) {id child : RecordId} {r q : Record}
    (h : s.Marks target roots repair id) (hr : s.arena.live? id = some r)
    (hc : child ∈ r.body.references) (hq : s.arena.live? child = some q)
    (hg : q.header.generation ≤ target) : s.Marks target roots repair child := by
  by_cases hfirst : s.FirstSpread target roots child
  · exact (marks_iff hw hu).2 (.inl hfirst)
  · rcases (marks_iff hw hu).1 h with h | h
    · obtain ⟨p, hp⟩ := visit_first hu hq hg
      obtain ⟨r', hr', e⟩ := (s.alike_clearedArena target).live hr
      have hpg : p.header.generation < Gen.eternal :=
        lt_of_le_of_lt (Arena.visit?_eq_some.1 hp).2.2 ht
      exact absurd (.follow h hr' (Record.body_of_core e ▸ hc) hp hpg) hfirst
    · obtain ⟨p, hp, hpg⟩ := visit_second hu hq hfirst
      obtain ⟨r', hr', e⟩ := (s.alike_firstArena target roots).live hr
      exact (marks_iff hw hu).2 (.inr (.follow h hr' (Record.body_of_core e ▸ hc) hp
        (hpg ▸ lt_of_le_of_lt hg ht)))

end

lemma mem_permanents (hb : s.Binned) {id : RecordId} {r : Record}
    (hr : s.arena.live? id = some r) :
    id ∈ s.permanents target ↔ r.header.permanent = true ∧ r.header.generation ≤ target := by
  simp only [permanents, List.mem_flatMap, List.mem_filter, Gen.mem_upTo, Arena.header?, hr,
    Bucket.live, List.mem_reverse, hb.mem, Option.map_some, Option.any_some]
  constructor
  · rintro ⟨g, hg, ⟨q, hq, e⟩, hp⟩
    obtain rfl := Option.some.inj hq
    exact ⟨hp, e ▸ hg⟩
  · rintro ⟨hp, hg⟩
    exact ⟨_, hg, ⟨r, rfl, rfl⟩, hp⟩

lemma live_of_mem_permanents {id : RecordId} (h : id ∈ s.permanents target) :
    ∃ r, s.arena.live? id = some r ∧ r.header.permanent = true := by
  simp only [permanents, List.mem_flatMap, List.mem_filter, Option.any_eq_true] at h
  obtain ⟨g, -, -, hd, hh, hp⟩ := h
  obtain ⟨r, hr, rfl⟩ := Arena.header?_eq_some.1 hh
  exact ⟨r, hr, hp⟩

lemma elder_of_mem_elders (hb : s.Binned) (ht : target < Gen.eternal) {id : RecordId}
    (h : id ∈ s.elders target repair) :
    ∃ r, s.arena.live? id = some r ∧ target < r.header.generation := by
  simp only [elders, List.mem_append, List.mem_filter, Option.any_eq_true, decide_eq_true_eq] at h
  rcases h with ⟨-, hd, hh, hg⟩ | h
  · obtain ⟨r, hr, rfl⟩ := Arena.header?_eq_some.1 hh
    exact ⟨r, hr, hg⟩
  · split at h
    · simp only [Bucket.live, List.mem_reverse, hb.mem] at h
      obtain ⟨r, hr, e⟩ := h
      exact ⟨r, hr, e ▸ ht⟩
    · simp at h

lemma mem_elders_of_listed {id : RecordId} {r : Record} {g : Gen}
    (hr : s.arena.live? id = some r) (ht : target < r.header.generation) (hg : g ≤ target)
    (hid : id ∈ (s.bucket g).roots) : id ∈ s.elders target repair := by
  refine List.mem_append_left _ (List.mem_filter.2 ⟨?_, ?_⟩)
  · exact List.mem_flatMap.2 ⟨g, Gen.mem_upTo.2 hg, hid⟩
  · simp [Arena.header?, hr, ht]

/-- **The mark phase is sound.** What it marks is reachable from what the pass has to keep. -/
theorem reaches_of_marks (hw : s.collector.worklist = []) (hu : s.Unmarked) (hb : s.Binned)
    (ht : target < Gen.eternal) {id : RecordId} (h : s.Marks target roots repair id) :
    s.arena.Reaches (s.Anchored target roots) id := by
  rw [marks_iff hw hu] at h
  rcases h with h | h
  · induction h with
    | seed hid hv =>
      obtain ⟨r, hr, -⟩ := (s.alike_clearedArena target).live' (Arena.visit?_eq_some.1 hv).1
      refine .base ?_ hr
      rcases List.mem_append.1 hid with hid | hid
      · exact .inl hid
      · obtain ⟨q, hq, hp⟩ := live_of_mem_permanents hid
        exact .inr ⟨q, hq, .inl hp⟩
    | follow _ hp hc hv _ ih =>
      obtain ⟨r, hr, e⟩ := (s.alike_clearedArena target).live' hp
      obtain ⟨q, hq, -⟩ := (s.alike_clearedArena target).live' (Arena.visit?_eq_some.1 hv).1
      exact .step ih hr (Record.body_of_core e ▸ hc) hq
  · induction h with
    | seed hid hv =>
      obtain ⟨r, hr, hg⟩ := elder_of_mem_elders hb ht hid
      exact .base (.inr ⟨r, hr, .inr hg⟩) hr
    | follow _ hp hc hv _ ih =>
      obtain ⟨r, hr, e⟩ := (s.alike_firstArena target roots).live' hp
      obtain ⟨q, hq, -⟩ := (s.alike_firstArena target roots).live' (Arena.visit?_eq_some.1 hv).1
      exact .step ih hr (Record.body_of_core e ▸ hc) hq

/-- An elder record is marked if it refers to a record of the collected generations that is not
permanent: the root tables list it, or a repair visits it. -/
lemma marks_holder (hw : s.collector.worklist = []) (hu : s.Unmarked) (hb : s.Binned)
    (hcov : s.Covered [] ∧ s.needsRepair = false ∨ repair = true ∧ target = Gen.old)
    {x y : RecordId} {g : Gen} {r : Record} (hx : s.arena.live? x = some r)
    (hc : s.arena.Crosses x y g) (hg : g ≤ target) (ht : target < r.header.generation) :
    s.Marks target roots repair x := by
  refine marks_elder hw hu ?_ hx
  rcases hcov with ⟨hcov, hn⟩ | ⟨rfl, rfl⟩
  · obtain ⟨h, hle, hmem⟩ := hcov hn x y g List.not_mem_nil hc
    exact mem_elders_of_listed hx ht (hle.trans hg) hmem
  · -- nothing but the eternal generation is elder than the old one
    refine List.mem_append_right _ ?_
    simp only [if_true, Bucket.live, List.mem_reverse, hb.mem]
    exact ⟨r, hx, le_antisymm (Fin.le_last _) (Fin.lt_def.1 ht)⟩

/-- **The mark phase is complete.** In the collected generations it marks all that is reachable
from what the pass has to keep. -/
theorem marks_of_reaches (hw : s.collector.worklist = []) (hu : s.Unmarked) (hb : s.Binned)
    (ht : target < Gen.eternal)
    (hcov : s.Covered [] ∧ s.needsRepair = false ∨ repair = true ∧ target = Gen.old)
    {id : RecordId} (h : s.arena.Reaches (s.Anchored target roots) id) {r : Record}
    (hr : s.arena.live? id = some r) (hg : r.header.generation ≤ target) :
    s.Marks target roots repair id := by
  induction h generalizing r with
  | base hbase _ =>
    rcases hbase with hid | ⟨q, hq, hp | hgt⟩
    · exact marks_seed hw hu (.inl hid) hr hg
    · rw [hr] at hq
      obtain rfl := Option.some.inj hq
      exact marks_seed hw hu (.inr ((mem_permanents hb hr).2 ⟨hp, hg⟩)) hr hg
    · rw [hr] at hq
      obtain rfl := Option.some.inj hq
      exact absurd hg (not_le.2 hgt)
  | @step x y p q _ hx hy _ ih =>
    rcases le_or_gt p.header.generation target with hle | hgt
    · exact marks_child hw hu ht (ih hx hle) hx hy hr hg
    · rcases hperm : r.header.permanent with _ | _
      · have hcross : s.arena.Crosses x y r.header.generation :=
          ⟨p, r, hx, hy, hr, hperm, rfl, lt_of_le_of_lt hg hgt⟩
        have hholder : s.Marks target roots repair x :=
          marks_holder hw hu hb hcov hx hcross hg hgt
        exact marks_child hw hu ht hholder hx hy hr hg
      · exact marks_seed hw hu (.inr ((mem_permanents hb hr).2 ⟨hperm, hg⟩)) hr hg

end Space

end ScriptHeap
