import ScriptHeap.Proofs.Marking

/-!
The marking loop as a whole. What it marks is told by paths through the graph of records as it was
before. The order in which the worklist is served does not matter: the number of visits has a bound,
and however many have been made, the others lead to one and the same end.
-/

namespace ScriptHeap

open Relation

namespace Arena

/-- The record is live, not marked, and of a generation up to the limit. -/
def Markable (a : Arena) (limit : Gen) (id : RecordId) : Prop :=
  ∃ r, a.live? id = some r ∧ r.header.marked = false ∧ r.header.generation ≤ limit

/-- A reference leads from a live record to a markable one that is not eternal. -/
def Enters (a : Arena) (limit : Gen) (x y : RecordId) : Prop :=
  ∃ r q, a.live? x = some r ∧ y ∈ r.body.references ∧ a.live? y = some q ∧
    q.header.marked = false ∧ q.header.generation ≤ limit ∧ q.header.generation < Gen.eternal

variable {a : Arena} {limit : Gen} {seeds : List RecordId} {id : RecordId}

lemma markable_iff : a.Markable limit id ↔ ∃ r, a.visit? limit id = some r := by
  simp only [Markable, visit?_eq_some]

/-- Marking spreads along paths that start from a markable seed. -/
lemma spread_iff_path : Spread a limit seeds id ↔
    ∃ seed ∈ seeds, a.Markable limit seed ∧ ReflTransGen (a.Enters limit) seed id := by
  constructor
  · intro h
    induction h with
    | @seed id r hid hv => exact ⟨id, hid, markable_iff.2 ⟨r, hv⟩, .refl⟩
    | @follow id child r q _ hr hc hv hg ih =>
      obtain ⟨seed, hseed, hm, hpath⟩ := ih
      obtain ⟨hq, hu, hle⟩ := visit?_eq_some.1 hv
      exact ⟨seed, hseed, hm, hpath.tail ⟨r, q, hr, hc, hq, hu, hle, hg⟩⟩
  · rintro ⟨seed, hseed, hm, hpath⟩
    induction hpath with
    | refl =>
      obtain ⟨r, hv⟩ := markable_iff.1 hm
      exact .seed hseed hv
    | tail _ henters ih =>
      obtain ⟨r, q, hr, hc, hq, hu, hle, hg⟩ := henters
      exact .follow ih hr hc (visit?_eq_some.2 ⟨hq, hu, hle⟩) hg

end Arena

namespace Marking

open Arena

variable {limit : Gen} {j k : Nat} {l m n n' : Marking} {ids ids' : List RecordId}

lemma Visits.trans (h : Visits limit j l m) (h' : Visits limit k m n) :
    Visits limit (j + k) l n := by
  induction h with
  | refl m => rwa [Nat.zero_add]
  | @next j _ _ _ hvisit _ ih =>
    rw [Nat.add_right_comm]
    exact .next hvisit (ih h')

/-- Marking that has come to its end has marked the same records in whatever order. -/
lemma Progress.unique (h : Progress limit j m ids n) (hend : n.worklist = [])
    (h' : Progress limit k m ids' n') (hend' : n'.worklist = []) : ids.Perm ids' ∧ n = n' := by
  have hmem (id : RecordId) : id ∈ ids ↔ id ∈ ids' := by
    rw [h.mem_iff hend, h'.mem_iff hend']
  have hperm := (List.perm_ext_iff_of_nodup h.nodup h'.nodup).2 hmem
  have harena : n.arena = n'.arena := by
    refine (h'.alike.symm.trans h.alike).shape.eq fun id => ?_
    simp only [h.live, h'.live, hmem]
  have hmarked : n.marked = n'.marked := by rw [h.marked, h'.marked, hperm.length_eq]
  obtain ⟨arena, worklist, marked⟩ := n
  obtain ⟨arena', worklist', marked'⟩ := n'
  simp only at hend hend' harena hmarked
  exact ⟨hperm, by rw [hend, hend', harena, hmarked]⟩

/-- **The order of the visits does not matter.** Whatever visits have been made, others lead to the
end that a drain comes to. There are no more than one for each entry that the worklist had and one
for each reference of the records that are marked. -/
theorem Visits.ends (h : Visits limit k m n) (hdrain : Progress limit j m ids (drain limit m)) :
    k ≤ (m.worklist ++ ids.flatMap m.arena.references).length ∧
      ∃ i, Visits limit i n (drain limit m) := by
  obtain ⟨i, hrest⟩ := visits_drain limit n
  obtain ⟨ids', hall⟩ := (h.trans hrest).progress
  obtain ⟨hperm, hsame⟩ := hdrain.unique (worklist_drain limit m) hall (worklist_drain limit n)
  refine ⟨?_, i, hsame ▸ hrest⟩
  have hvisits := hall.visits
  rw [List.length_append, (hperm.flatMap_right m.arena.references).length_eq]
  omega

end Marking

namespace Space

open Marking

/-- **The marking loop computes reachability and ends.** Whatever the records refer to, whatever is
on the worklist and whatever is marked already, a drain marks exactly the records that a path leads
to from a markable entry of the worklist, and tells how many they are. They gain their mark and, in
their noted links, the younger generations that they refer to. The worklist is empty then, and
nothing else has changed. In whatever order the worklist is served, the visits are bounded in number
and lead to this end. -/
theorem drain_marks_paths (s : Space) (limit : Gen) :
    let seeds := s.collector.worklist
    let n := (s.drain limit).1
    let t := (s.drain limit).2
    ∃ ids : List RecordId, ids.Nodup ∧ n = ids.length ∧
      (∀ id, id ∈ ids ↔ ∃ seed ∈ seeds, s.arena.Markable limit seed ∧
        ReflTransGen (s.arena.Enters limit) seed id) ∧
      (∀ id ∈ ids, ∃ r links, s.arena.live? id = some r ∧ r.header.marked = false ∧
        t.arena.live? id = some (r.visited true links) ∧
        ∀ g, links.contains g = true ↔
          r.header.refLinks.contains g = true ∨ ∃ child, s.arena.Crosses id child g) ∧
      (∀ id, id ∉ ids → t.arena.get? id = s.arena.get? id) ∧
      t.arena.cells.size = s.arena.cells.size ∧
      t = { s with
        arena := { s.arena with cells := t.arena.cells }
        collector := { s.collector with worklist := [] } } ∧
      ∀ k m, Visits limit k ⟨s.arena, seeds, 0⟩ m →
        k ≤ (seeds ++ ids.flatMap s.arena.references).length ∧
        ∃ j, Visits limit j m ⟨t.arena, [], n⟩ := by
  intro seeds n t
  let start : Marking := ⟨s.arena, seeds, 0⟩
  have hworklist : (Marking.drain limit start).worklist = [] := worklist_drain limit start
  have hend : Marking.drain limit start = ⟨t.arena, [], n⟩ := by
    rw [← hworklist]
    rfl
  obtain ⟨k, hk⟩ := visits_drain limit start
  obtain ⟨ids, h⟩ := hk.progress
  have hshape : s.arena.SameShape t.arena := h.alike.shape
  have hmem (id : RecordId) : id ∈ ids ↔ s.arena.Spread limit seeds id :=
    h.mem_iff hworklist id
  refine ⟨ids, h.nodup, h.marked.trans (Nat.zero_add _),
    fun id => (hmem id).trans Arena.spread_iff_path, fun id hid => ?_, fun id hid => ?_,
    hshape.size, ?_, fun k m hvisits => ?_⟩
  · obtain ⟨r, hv⟩ := ((hmem id).1 hid).visit
    obtain ⟨hr, hunmarked, -⟩ := Arena.visit?_eq_some.1 hv
    have hlive := h.live id
    rw [hr, Option.map_some, if_pos hid] at hlive
    refine ⟨r, _, hr, hunmarked, hlive, fun g => ?_⟩
    rw [GenSet.contains_union, Bool.or_eq_true, Arena.contains_youngerThan hr]
  · have hlive := h.live id
    simp only [hid, if_false, Option.map_id_fun'] at hlive
    exact hshape.get?_eq hlive
  · rw [← hshape.eq_withCells, ← hworklist]
    rfl
  · rw [← hend]
    exact hvisits.ends h

/-- The first two records refer to each other. The third one, to which nothing refers, stays as it
is, although the worklist has an entry twice and another one where no record is. -/
example :
    let record (refs : List RecordId) : Option Cell :=
      some (.live ⟨.fresh 0 0, TypeId.native, .native (.probe "" refs)⟩)
    let m := Marking.drain .old
      ⟨⟨#[record [1, 7], record [0, 1], record [0]], [], 3⟩, [0, 7, 0], 0⟩
    m.marked = 2 ∧ m.arena.records.map (·.2.header.marked) = [true, true, false] := by
  cbv

end Space

end ScriptHeap
