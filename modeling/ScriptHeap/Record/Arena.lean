import ScriptHeap.Record.Basic

/-!
The arena holds the records. A place is vacant, or occupied by a live record or by what is left of
one in a pool. Vacant places are reused, the last vacated one first.
-/

namespace ScriptHeap

structure Arena where
  cells : Array (Option Cell)
  /-- The vacant places, the next one to be used on top. -/
  vacant : List RecordId
  occupied : Nat
deriving DecidableEq, Repr

namespace Arena

def empty : Arena := ⟨#[], [], 0⟩

instance : Inhabited Arena := ⟨empty⟩

def get? (a : Arena) (id : RecordId) : Option Cell := a.cells[id]?.join

def live? (a : Arena) (id : RecordId) : Option Record := (a.get? id).bind Cell.live?

def isLive (a : Arena) (id : RecordId) : Bool := (a.live? id).isSome

def header? (a : Arena) (id : RecordId) : Option Header := (a.live? id).map (·.header)

def object? (a : Arena) (id : RecordId) : Option Object := (a.live? id).bind (·.body.object?)

/-- The live records with their places, in ascending order. -/
def records (a : Arena) : List (RecordId × Record) :=
  (List.range a.cells.size).filterMap fun id => (a.live? id).map (id, ·)

/-- Overwrites an occupied place. -/
def put (a : Arena) (id : RecordId) (c : Cell) : Arena :=
  { a with cells := a.cells.setIfInBounds id (some c) }

/-- Changes a live record; any other place stays as it is. -/
def modify (a : Arena) (id : RecordId) (f : Record → Record) : Arena :=
  match a.live? id with
  | some r => a.put id (.live (f r))
  | none => a

def modifyHeader (a : Arena) (id : RecordId) (f : Header → Header) : Arena :=
  a.modify id fun r => { r with header := f r.header }

def setBody (a : Arena) (id : RecordId) (body : Body) : Arena := a.modify id ({ · with body })

/-- Changes the headers of several live records, one after the other. -/
def modifyHeaders (a : Arena) (ids : List RecordId) (f : Header → Header) : Arena :=
  ids.foldl (fun a id => a.modifyHeader id f) a

/-- Adds a live record and tells its place. -/
def insert (a : Arena) (r : Record) : RecordId × Arena :=
  match a.vacant with
  | id :: rest =>
    (id, ⟨a.cells.setIfInBounds id (some (.live r)), rest, a.occupied + 1⟩)
  | [] => (a.cells.size, ⟨a.cells.push (some (.live r)), [], a.occupied + 1⟩)

/-- Vacates a place, whatever occupies it. -/
def release (a : Arena) (id : RecordId) : Arena :=
  match a.get? id with
  | some _ => ⟨a.cells.setIfInBounds id none, id :: a.vacant, a.occupied - 1⟩
  | none => a

/-- The number of live records that are not marked. -/
def unmarked (a : Arena) : Nat := a.cells.countP fun c => c.any Cell.isUnmarked

theorem lt_size_of_get? {a : Arena} {id : RecordId} {c : Cell} (h : a.get? id = some c) :
    id < a.cells.size := by
  rcases Nat.lt_or_ge id a.cells.size with h' | h'
  · exact h'
  · simp [get?, Array.getElem?_eq_none h'] at h

theorem live?_eq_some {a : Arena} {id : RecordId} {r : Record} :
    a.live? id = some r ↔ a.get? id = some (.live r) := by
  unfold live?
  rcases a.get? id with _ | c
  · simp
  · cases c <;> simp [Cell.live?]

theorem get?_put {a : Arena} {id : RecordId} (c : Cell) (h : id < a.cells.size) (j : RecordId) :
    (a.put id c).get? j = if j = id then some c else a.get? j := by
  by_cases hj : j = id
  · subst hj
    simp [put, get?, h]
  · simp [put, get?, hj, Ne.symm hj]

theorem get?_modify (a : Arena) (id : RecordId) (f : Record → Record) (j : RecordId) :
    (a.modify id f).get? j =
      if j = id then (a.get? j).map fun
        | .live r => .live (f r)
        | .pooled h => .pooled h
      else a.get? j := by
  unfold modify
  split
  · next r hr =>
    have hg := live?_eq_some.1 hr
    rw [get?_put _ (lt_size_of_get? hg)]
    by_cases hj : j = id
    · subst hj
      simp [hg]
    · simp [hj]
  · next hr =>
    by_cases hj : j = id
    · subst hj
      rcases hg : a.get? j with _ | c
      · simp
      · cases c with
        | live r => simp [live?, hg, Cell.live?] at hr
        | pooled h => simp
    · simp [hj]

theorem live?_modify (a : Arena) (id : RecordId) (f : Record → Record) (j : RecordId) :
    (a.modify id f).live? j = if j = id then (a.live? j).map f else a.live? j := by
  unfold live?
  rw [get?_modify]
  by_cases hj : j = id
  · subst hj
    simp only [if_true]
    rcases a.get? j with _ | c
    · rfl
    · cases c <;> rfl
  · simp [hj]

theorem get?_release (a : Arena) (id j : RecordId) :
    (a.release id).get? j = if j = id then none else a.get? j := by
  unfold release
  split
  · next c hc =>
    by_cases hj : j = id
    · subst hj
      simp [get?, lt_size_of_get? hc]
    · simp [get?, hj, Ne.symm hj]
  · next hc =>
    by_cases hj : j = id
    · subst hj
      simp [hc]
    · simp [hj]

theorem get?_insert (a : Arena) (r : Record) (j : RecordId)
    (h : ∀ id ∈ a.vacant, id < a.cells.size) :
    (a.insert r).2.get? j = if j = (a.insert r).1 then some (.live r) else a.get? j := by
  unfold insert
  split
  · next id rest hv =>
    have hlt := h id (by simp [hv])
    by_cases hj : j = id
    · subst hj
      simp [get?, hlt]
    · simp [get?, hj, Ne.symm hj]
  · by_cases hj : j = a.cells.size
    · subst hj
      simp [get?]
    · simp [get?, Array.getElem?_push, hj]

end Arena

end ScriptHeap
