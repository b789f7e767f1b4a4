import ScriptHeap.Collector.Barrier

/-!
The mark phase. Marking visits the records of a worklist: one that is live, unmarked and not above
the limit is marked, and the records it refers to join the worklist, eternal ones excepted. Each
visit either marks a record or shortens the worklist, so marking ends.

A pass first marks within the collected generations, from the heap roots and the permanent records.
Then it follows the elder records in the root tables, without a limit.
-/

namespace ScriptHeap

namespace Arena

/-- The generations younger than `g` of the live records among `refs`, permanent ones excepted. -/
def youngerThan (a : Arena) (g : Gen) (refs : List RecordId) : GenSet :=
  .ofList <| refs.filterMap fun id =>
    ((a.header? id).filter fun h => h.generation < g && !h.permanent).map (·.generation)

/-- The record at `id`, if marking has to visit it. -/
def visit? (a : Arena) (limit : Gen) (id : RecordId) : Option Record :=
  (a.live? id).filter fun r => !r.header.marked && r.header.generation ≤ limit

/-- The references that marking follows. -/
def followed (a : Arena) (refs : List RecordId) : List RecordId :=
  refs.filter fun id => (a.header? id).any fun h => h.generation < Gen.eternal

/-- Marks a record and notes the younger generations it refers to. -/
def mark (a : Arena) (id : RecordId) (r : Record) : Arena :=
  let links := r.header.refLinks.union (a.youngerThan r.header.generation r.body.references)
  a.put id (.live { r with header := { r.header with marked := true, refLinks := links } })

theorem visit?_eq_some {a : Arena} {limit : Gen} {id : RecordId} {r : Record} :
    a.visit? limit id = some r ↔
      a.live? id = some r ∧ r.header.marked = false ∧ r.header.generation ≤ limit := by
  simp only [visit?, Option.filter_eq_some_iff, Bool.and_eq_true, decide_eq_true_eq]
  simp

theorem unmarked_mark {a : Arena} {limit : Gen} {id : RecordId} {r : Record}
    (h : a.visit? limit id = some r) : (a.mark id r).unmarked + 1 = a.unmarked := by
  obtain ⟨hr, hm, -⟩ := visit?_eq_some.1 h
  have hg := live?_eq_some.1 hr
  have hlt := lt_size_of_get? hg
  have hc : a.cells[id] = some (.live r) := by
    simpa [get?, Array.getElem?_eq_getElem hlt] using hg
  have hp : (a.cells[id]).any Cell.isUnmarked = true := by simp [hc, Cell.isUnmarked, hm]
  have hpos : 0 < a.cells.countP fun c => c.any Cell.isUnmarked :=
    Array.countP_pos_iff.2 ⟨a.cells[id], Array.getElem_mem hlt, hp⟩
  simp only [mark, put, unmarked, Array.setIfInBounds, hlt, dite_true, Array.countP_set, hp]
  simp [Cell.isUnmarked]
  omega

end Arena

structure Marking where
  arena : Arena
  worklist : List RecordId
  /-- The number of records marked so far. -/
  marked : Nat
deriving DecidableEq, Repr

namespace Marking

/-- One visit. None once the worklist is empty. -/
def step? (limit : Gen) (m : Marking) : Option Marking :=
  match m.worklist with
  | [] => none
  | id :: rest =>
    match m.arena.visit? limit id with
    | none => some { m with worklist := rest }
    | some r =>
      let worklist := m.arena.followed r.body.references ++ rest
      some ⟨m.arena.mark id r, worklist, m.marked + 1⟩

theorem step?_decreases {limit : Gen} {m n : Marking} (h : m.step? limit = some n) :
    n.arena.unmarked < m.arena.unmarked ∨
      n.arena.unmarked = m.arena.unmarked ∧ n.worklist.length < m.worklist.length := by
  unfold step? at h
  split at h
  · simp at h
  · next id rest hw =>
    split at h
    · obtain rfl := Option.some.inj h
      simp [hw]
    · next r hr =>
      obtain rfl := Option.some.inj h
      have := Arena.unmarked_mark hr
      left
      simp only
      omega

/-- Marks everything that can be reached from the worklist in generations up to `limit`. -/
def drain (limit : Gen) (m : Marking) : Marking :=
  match _ : m.step? limit with
  | none => m
  | some n => drain limit n
termination_by (m.arena.unmarked, m.worklist.length)
decreasing_by
  rw [Prod.lex_def]
  exact step?_decreases ‹_›

end Marking

namespace Space

/-- Marks from the worklist, in generations up to `limit`. Tells how many records were marked. -/
def drain (s : Space) (limit : Gen) : Nat × Space :=
  let m := Marking.drain limit ⟨s.arena, s.collector.worklist, 0⟩
  (m.marked, { s with
    arena := m.arena
    collector := { s.collector with worklist := m.worklist } })

def schedule (s : Space) (ids : List RecordId) : Space :=
  { s with collector := { s.collector with worklist := s.collector.worklist ++ ids } }

def withPhase (s : Space) (phase : Phase) : Space :=
  { s with collector := { s.collector with phase } }

/-- The records in the root tables of the generations up to `target`. -/
def holders (s : Space) (target : Gen) : List RecordId :=
  (Gen.upTo target).flatMap fun g => (s.bucket g).roots

/-- The permanent records of the generations up to `target`. They are never swept, so all they hold
stays reachable. -/
def permanents (s : Space) (target : Gen) : List RecordId :=
  (Gen.upTo target).flatMap fun g =>
    (s.bucket g).live.filter fun id => (s.arena.header? id).any (·.permanent)

/-- The listed holders outside the collected generations, and in a repair all eternal records. -/
def elders (s : Space) (target : Gen) (repair : Bool) : List RecordId :=
  (s.holders target).filter (fun id => (s.arena.header? id).any fun h => target < h.generation)
    ++ if repair then (s.bucket .eternal).live else []

/-- The mark phase of a pass over the generations up to `target`. Tells how many records were
marked. -/
def mark (s : Space) (target : Gen) (roots : List RecordId) (repair : Bool) : Nat × Space :=
  let s := s.withPhase .marking
  let s := s.modifyHeaders (s.holders target) fun h =>
    { h with refLinks := h.refLinks.eraseUpTo target }
  let (n, s) := (s.schedule (roots ++ s.permanents target)).drain target
  let (k, s) := (s.schedule (s.elders target repair)).drain .eternal
  (n + k, s)

end Space

end ScriptHeap
