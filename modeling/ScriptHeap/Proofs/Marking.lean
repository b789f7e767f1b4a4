import ScriptHeap.Collector.Marking
import ScriptHeap.Proofs.Arena

/-!
What the mark phase reaches. However the references run, and whichever entry of the worklist is
visited next: what has been marked and what marking still spreads to are together what it spread to
at first. A drain ends with an empty worklist, so it marks exactly the records to which marking
spreads, and computes reachability within the generations it may enter. Nothing but marks and links
of the marked records changes.
-/

namespace ScriptHeap

/-- The record as it leaves the mark phase if it is reached. -/
def Arena.reached (a : Arena) (r : Record) : Record :=
  { r with header := { r.header with
      marked := true
      refLinks := r.header.refLinks.union (a.youngerThan r.header.generation r.body.references) } }

/-- A record with another mark and other noted links. -/
def Record.visited (r : Record) (marked : Bool) (refLinks : GenSet) : Record :=
  { r with header := { r.header with marked, refLinks } }

namespace Arena

/-- The references of a record, if it is live. -/
def references (a : Arena) (id : RecordId) : List RecordId :=
  ((a.live? id).map (·.body.references)).getD []

/-- Marking spreads from the seeds to live, unmarked records up to a generation, and along
references. It enters eternal records as seeds only. -/
inductive Spread (a : Arena) (limit : Gen) (seeds : List RecordId) : RecordId → Prop
  | seed {id : RecordId} {r : Record} :
    id ∈ seeds → a.visit? limit id = some r → Spread a limit seeds id
  | follow {id child : RecordId} {r q : Record} :
    Spread a limit seeds id → a.live? id = some r → child ∈ r.body.references →
    a.visit? limit child = some q → q.header.generation < Gen.eternal →
    Spread a limit seeds child

variable {a b : Arena} {limit : Gen} {seeds : List RecordId} {id : RecordId}

lemma Spread.visit (h : Spread a limit seeds id) : ∃ r, a.visit? limit id = some r := by
  cases h with
  | seed _ h => exact ⟨_, h⟩
  | follow _ _ _ h _ => exact ⟨_, h⟩

/-- Of the seeds only those matter that have to be visited. -/
lemma Spread.reseed {seeds' : List RecordId} (h : Spread a limit seeds id)
    (hs : ∀ j ∈ seeds, ∀ r, a.visit? limit j = some r → j ∈ seeds') : Spread a limit seeds' id := by
  induction h with
  | seed hid hv => exact .seed (hs _ hid _ hv) hv
  | follow _ hr hc hv hg ih => exact .follow ih hr hc hv hg

lemma mem_followed {refs : List RecordId} {child : RecordId} :
    child ∈ a.followed refs ↔
      child ∈ refs ∧ ∃ r, a.live? child = some r ∧ r.header.generation < Gen.eternal := by
  simp [followed, header?, Option.any_map]
  rcases a.live? child with _ | r <;> simp

lemma live?_mark {id : RecordId} {r : Record} (h : a.live? id = some r) (j : RecordId) :
    (a.mark id r).live? j = if j = id then some (a.reached r) else a.live? j :=
  live?_put _ (lt_size_of_get? (live?_eq_some.1 h)) j

lemma alike_mark {id : RecordId} {r : Record} (h : a.live? id = some r) :
    a.Alike (a.mark id r) := by
  have hg := live?_eq_some.1 h
  have hget := get?_put (.live (a.reached r)) (lt_size_of_get? hg)
  change a.Alike (a.put id (.live (a.reached r)))
  refine ⟨⟨rfl, by simp [put], rfl, fun j => ?_⟩, fun j => ?_⟩
  · rw [hget]
    split
    · next e => rw [e, hg]; rfl
    · rfl
  · rw [hget]
    split
    · next e => rw [e, hg]; rfl
    · rfl

/-- The younger generations that a live record refers to. -/
lemma contains_youngerThan {x : RecordId} {r : Record} {g : Gen}
    (hr : a.live? x = some r) :
    (a.youngerThan r.header.generation r.body.references).contains g = true ↔
      ∃ y, a.Crosses x y g := by
  simp only [youngerThan, GenSet.contains_ofList, List.contains_eq_mem, decide_eq_true_eq,
    List.mem_filterMap, Option.map_eq_some_iff, Option.filter_eq_some_iff, Bool.and_eq_true,
    Bool.not_eq_true', header?_eq_some]
  constructor
  · rintro ⟨y, hy, _, ⟨⟨q, hq, rfl⟩, hlt, hp⟩, rfl⟩
    exact ⟨y, r, q, hr, hy, hq, hp, rfl, hlt⟩
  · rintro ⟨y, r', q, hr', hy, hq, hp, rfl, hlt⟩
    rw [hr] at hr'
    obtain rfl := Option.some.inj hr'
    exact ⟨y, hy, q.header, ⟨⟨q, hq, rfl⟩, hlt, hp⟩, rfl⟩

/-- The links that marking notes do not depend on marks and links. -/
lemma Alike.youngerThan (h : a.Alike b) (g : Gen) (refs : List RecordId) :
    b.youngerThan g refs = a.youngerThan g refs := by
  unfold Arena.youngerThan
  congr 1
  refine List.filterMap_congr fun id _ => ?_
  have := h.live?_map id
  unfold header?
  rcases ha : a.live? id with _ | r <;> rcases hb : b.live? id with _ | q <;>
    simp only [ha, hb, Option.map_some, Option.map_none, reduceCtorEq] at this ⊢
  have hcore := Option.some.inj this
  simp only [Option.filter_some, Record.generation_of_core hcore, Record.permanent_of_core hcore]
  split <;> simp [Record.generation_of_core hcore]

lemma references_of_live? {r : Record} (h : a.live? id = some r) :
    a.references id = r.body.references := by
  simp [references, h]

lemma Alike.references (h : a.Alike b) (id : RecordId) : b.references id = a.references id := by
  have hbody {r q : Record} (e : r.core = q.core) : r.body.references = q.body.references :=
    congrArg Body.references (Record.body_of_core e)
  exact congrArg (·.getD []) (h.live?_map_of hbody id)

lemma visit?_mark {id : RecordId} {r : Record} (h : a.live? id = some r) (j : RecordId) :
    (a.mark id r).visit? limit j = if j = id then none else a.visit? limit j := by
  unfold visit?
  rw [live?_mark h]
  split
  · simp [reached]
  · rfl

lemma not_spread_of_visit_none (h : a.visit? limit id = none) : ¬ Spread a limit seeds id := by
  intro hs
  obtain ⟨r, hr⟩ := hs.visit
  simp [h] at hr

lemma not_spread_nil : ¬ Spread a limit [] id := by
  intro hs
  induction hs with
  | seed hid => simp at hid
  | follow _ _ _ _ _ ih => exact ih

lemma spread_perm {seeds' : List RecordId} (h : seeds.Perm seeds') :
    Spread a limit seeds id ↔ Spread a limit seeds' id :=
  ⟨fun hs => hs.reseed fun _ hk _ _ => h.mem_iff.1 hk,
    fun hs => hs.reseed fun _ hk _ _ => h.mem_iff.2 hk⟩

lemma spread_skip {rest : List RecordId} (h : a.visit? limit id = none) (j : RecordId) :
    Spread a limit (id :: rest) j ↔ Spread a limit rest j := by
  refine ⟨fun hs => hs.reseed fun k hk r hv => ?_,
    fun hs => hs.reseed fun k hk _ _ => List.mem_cons_of_mem _ hk⟩
  rcases List.mem_cons.1 hk with rfl | hk
  · simp [h] at hv
  · exact hk

/-- Marking a record splits what spreads from it into the record itself and what spreads from its
references once it is marked. -/
lemma spread_mark {rest : List RecordId} {r : Record} (h : a.visit? limit id = some r)
    (j : RecordId) :
    Spread a limit (id :: rest) j ↔
      j = id ∨ Spread (a.mark id r) limit (a.followed r.body.references ++ rest) j := by
  have hr := (visit?_eq_some.1 h).1
  have hlive := live?_mark hr
  have hvisit (k : RecordId) :
      (a.mark id r).visit? limit k = if k = id then none else a.visit? limit k := visit?_mark hr k
  constructor
  · intro hs
    induction hs with
    | @seed k q hk hv =>
      by_cases he : k = id
      · exact .inl he
      · refine .inr (.seed (r := q) ?_ (by rw [hvisit, if_neg he, hv]))
        exact List.mem_append_right _ ((List.mem_cons.1 hk).resolve_left he)
    | @follow k child p q _ hp hc hv hg ih =>
      by_cases he : child = id
      · exact .inl he
      · have hv' : (a.mark id r).visit? limit child = some q := by rw [hvisit, if_neg he, hv]
        right
        rcases ih with rfl | ih
        · rw [hr] at hp
          obtain rfl := Option.some.inj hp
          refine .seed (List.mem_append_left _ (mem_followed.2 ⟨hc, q, ?_, hg⟩)) hv'
          exact (visit?_eq_some.1 hv).1
        · by_cases hk : k = id
          · subst hk
            exact absurd ih (not_spread_of_visit_none (by rw [hvisit, if_pos rfl]))
          · exact .follow ih (by rw [hlive, if_neg hk, hp]) hc hv' hg
  · rintro (rfl | hs)
    · exact .seed (by simp) h
    · induction hs with
      | @seed k q hk hv =>
        rw [hvisit] at hv
        split at hv
        · simp at hv
        · rcases List.mem_append.1 hk with hk | hk
          · obtain ⟨hc, p, hp, hg⟩ := mem_followed.1 hk
            obtain rfl := Option.some.inj ((visit?_eq_some.1 hv).1.symm.trans hp)
            exact .follow (.seed (by simp) h) hr hc hv hg
          · exact .seed (List.mem_cons_of_mem _ hk) hv
      | @follow k child p q hk hp hc hv hg ih =>
        rw [hvisit] at hv
        split at hv
        · simp at hv
        · by_cases he : k = id
          · subst he
            exact absurd hk (not_spread_of_visit_none (by rw [hvisit, if_pos rfl]))
          · rw [hlive, if_neg he] at hp
            exact .follow ih hp hc hv hg

end Arena

namespace Marking

open Arena Classical

/-- One visit, to any entry of the worklist. If the entry has to be visited it is marked, and
references that marking follows join the worklist, anywhere in it. Those that need no visit, because
they are marked or above the limit, may be left out. -/
inductive Visit (limit : Gen) (m : Marking) : Marking → Prop
  | pass {id : RecordId} {rest : List RecordId} :
    m.worklist.Perm (id :: rest) → m.arena.visit? limit id = none →
    Visit limit m { m with worklist := rest }
  | mark {id : RecordId} {r : Record} {rest joined worklist : List RecordId} :
    m.worklist.Perm (id :: rest) → m.arena.visit? limit id = some r →
    joined.Sublist (m.arena.followed r.body.references) →
    (∀ child ∈ m.arena.followed r.body.references, ∀ q,
      (m.arena.mark id r).visit? limit child = some q → child ∈ joined) →
    worklist.Perm (joined ++ rest) →
    Visit limit m ⟨m.arena.mark id r, worklist, m.marked + 1⟩

/-- So many visits, one after the other. -/
inductive Visits (limit : Gen) : Nat → Marking → Marking → Prop
  | refl (m : Marking) : Visits limit 0 m m
  | next {k : Nat} {l m n : Marking} :
    Visit limit l m → Visits limit k m n → Visits limit (k + 1) l n

/-- What `k` visits have come to: they have marked the records `ids`, each of them once, and these
are what marking spread to at first, less what it spreads to still. The entries that were visited
had been on the worklist at first, or are references of the marked records. -/
structure Progress (limit : Gen) (k : Nat) (m : Marking) (ids : List RecordId) (n : Marking) :
    Prop where
  nodup : ids.Nodup
  marked : n.marked = m.marked + ids.length
  spread : ∀ j, Spread m.arena limit m.worklist j ↔
    j ∈ ids ∨ Spread n.arena limit n.worklist j
  alike : m.arena.Alike n.arena
  live : ∀ j, n.arena.live? j =
    (m.arena.live? j).map fun q => if j ∈ ids then m.arena.reached q else q
  visits : k + n.worklist.length ≤
    m.worklist.length + (ids.flatMap m.arena.references).length

variable {limit : Gen} {k : Nat} {m n : Marking} {ids : List RecordId}

lemma Progress.refl (m : Marking) : Progress limit 0 m [] m where
  nodup := List.nodup_nil
  marked := rfl
  spread j := by simp
  alike := .refl _
  live j := by simp
  visits := by simp

/-- An entry is passed over. -/
lemma Progress.pass {id : RecordId} {rest : List RecordId} (hw : m.worklist.Perm (id :: rest))
    (hv : m.arena.visit? limit id = none)
    (h : Progress limit k { m with worklist := rest } ids n) :
    Progress limit (k + 1) m ids n := by
  refine ⟨h.nodup, h.marked, fun j => ?_, h.alike, h.live, ?_⟩
  · rw [spread_perm hw, spread_skip hv]
    exact h.spread j
  · have hlength := hw.length_eq
    have hvisits := h.visits
    simp only [List.length_cons] at hlength hvisits
    omega

/-- An entry is marked. -/
lemma Progress.mark {id : RecordId} {r : Record} {rest joined worklist : List RecordId}
    (hw : m.worklist.Perm (id :: rest)) (hv : m.arena.visit? limit id = some r)
    (hsub : joined.Sublist (m.arena.followed r.body.references))
    (hall : ∀ child ∈ m.arena.followed r.body.references, ∀ q,
      (m.arena.mark id r).visit? limit child = some q → child ∈ joined)
    (hjoin : worklist.Perm (joined ++ rest))
    (h : Progress limit k ⟨m.arena.mark id r, worklist, m.marked + 1⟩ ids n) :
    Progress limit (k + 1) m (id :: ids) n := by
  have hr := (visit?_eq_some.1 hv).1
  have hmark := alike_mark hr
  have hid : id ∉ ids := by
    intro hmem
    refine not_spread_of_visit_none ?_ ((h.spread id).2 (.inl hmem))
    rw [visit?_mark hr, if_pos rfl]
  have hspread (j : RecordId) : Spread m.arena limit m.worklist j ↔
      j = id ∨ Spread (m.arena.mark id r) limit worklist j := by
    rw [spread_perm hw, spread_mark hv, spread_perm hjoin]
    refine or_congr_right ⟨fun hs => hs.reseed fun i hi q hq => ?_,
      fun hs => hs.reseed fun i hi _ _ => ?_⟩
    · exact List.mem_append.2 ((List.mem_append.1 hi).imp_left fun hi => hall i hi q hq)
    · exact List.mem_append.2 ((List.mem_append.1 hi).imp_left fun hi => hsub.subset hi)
  refine ⟨List.nodup_cons.2 ⟨hid, h.nodup⟩, ?_, fun j => ?_, hmark.trans h.alike,
    fun j => ?_, ?_⟩
  · have hmarked : n.marked = m.marked + 1 + ids.length := h.marked
    rw [hmarked, List.length_cons]
    omega
  · rw [hspread, h.spread, List.mem_cons, or_assoc]
  · rw [h.live, live?_mark hr]
    by_cases hj : j = id
    · subst hj
      simp [hr, hid]
    · have hsame (q : Record) : (m.arena.mark id r).reached q = m.arena.reached q := by
        unfold reached
        rw [hmark.youngerThan]
      simp [hj, hsame]
  · have hlength := hw.length_eq
    have hlength' := hjoin.length_eq
    have hjoined : joined.length ≤ (m.arena.references id).length := by
      rw [references_of_live? hr]
      exact hsub.length_le.trans (List.length_filter_le _ _)
    have hvisits := h.visits
    rw [List.flatMap_congr fun i _ => hmark.references i] at hvisits
    simp only [List.length_cons, List.length_append] at hlength hlength' hvisits
    simp only [List.flatMap_cons, List.length_append]
    omega

/-- **Marking makes progress** with every visit, whatever the order of the visits. -/
theorem Visits.progress (h : Visits limit k m n) : ∃ ids, Progress limit k m ids n := by
  induction h with
  | refl m => exact ⟨[], .refl m⟩
  | next hvisit _ ih =>
    obtain ⟨ids, h⟩ := ih
    cases hvisit with
    | pass hw hv => exact ⟨ids, h.pass hw hv⟩
    | mark hw hv hsub hall hjoin => exact ⟨_ :: ids, h.mark hw hv hsub hall hjoin⟩

lemma visit_of_step? (h : m.step? limit = some n) : Visit limit m n := by
  unfold step? at h
  split at h
  · simp at h
  · next id rest hw =>
    split at h
    · next hv =>
      obtain rfl := Option.some.inj h
      exact .pass (.of_eq hw) hv
    · next r hv =>
      obtain rfl := Option.some.inj h
      exact .mark (.of_eq hw) hv (.refl _) (fun _ hc _ _ => hc) (.refl _)

lemma drain_of_none (h : m.step? limit = none) : drain limit m = m := by
  rw [drain]
  split
  · rfl
  · next hn => simp [h] at hn

lemma drain_of_some (h : m.step? limit = some n) : drain limit m = drain limit n := by
  rw [drain]
  split
  · next hn => simp [h] at hn
  · next k hk =>
    rw [h] at hk
    rw [Option.some.inj hk]

lemma worklist_of_step?_none (h : m.step? limit = none) : m.worklist = [] := by
  unfold step? at h
  split at h
  · assumption
  · split at h <;> simp at h

theorem worklist_drain (limit : Gen) (m : Marking) : (drain limit m).worklist = [] := by
  induction m using drain.induct limit with
  | case1 m h => rw [drain_of_none h, worklist_of_step?_none h]
  | case2 m n h ih => rw [drain_of_some h, ih]

/-- A drain is a number of visits. -/
lemma visits_drain (limit : Gen) (m : Marking) : ∃ k, Visits limit k m (drain limit m) := by
  induction m using drain.induct limit with
  | case1 m h =>
    rw [drain_of_none h]
    exact ⟨0, .refl m⟩
  | case2 m n h ih =>
    obtain ⟨k, hk⟩ := ih
    rw [drain_of_some h]
    exact ⟨k + 1, .next (visit_of_step? h) hk⟩

/-- Once the worklist is empty, what is marked is what marking spread to. -/
lemma Progress.mem_iff (h : Progress limit k m ids n) (hend : n.worklist = []) (j : RecordId) :
    j ∈ ids ↔ Spread m.arena limit m.worklist j := by
  rw [h.spread, hend, or_iff_left not_spread_nil]

theorem alike_drain (limit : Gen) (m : Marking) : m.arena.Alike (drain limit m).arena := by
  obtain ⟨k, hk⟩ := visits_drain limit m
  obtain ⟨ids, h⟩ := hk.progress
  exact h.alike

/-- **Marking computes reachability.** A drain marks the records to which marking spreads from the
worklist, and leaves the others as they are. -/
theorem live?_drain (limit : Gen) (m : Marking) {j : RecordId} {q : Record}
    (hq : m.arena.live? j = some q) :
    (drain limit m).arena.live? j =
      some (if Spread m.arena limit m.worklist j then m.arena.reached q else q) := by
  obtain ⟨k, hk⟩ := visits_drain limit m
  obtain ⟨ids, h⟩ := hk.progress
  rw [h.live, hq, Option.map_some, if_congr (h.mem_iff (worklist_drain limit m) j) rfl rfl]

lemma live?_drain_visited (limit : Gen) {a : Arena} (seeds : List RecordId) {j : RecordId}
    {r : Record} {marked : Bool} {links : GenSet} (h : a.live? j = some (r.visited marked links)) :
    ∃ links', (drain limit ⟨a, seeds, 0⟩).arena.live? j =
      some (r.visited (marked || decide (a.Spread limit seeds j)) links') := by
  have h' := live?_drain limit ⟨a, seeds, 0⟩ h
  by_cases c : a.Spread limit seeds j
  · refine ⟨(a.reached (r.visited marked links)).header.refLinks, ?_⟩
    rw [h', if_pos c, decide_eq_true c, Bool.or_true]
    rfl
  · refine ⟨links, ?_⟩
    rw [h', if_neg c, decide_eq_false c, Bool.or_false]

end Marking

end ScriptHeap
