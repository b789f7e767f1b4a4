import Mathlib.Data.List.Nodup
import Mathlib.Data.Set.Basic
import Mathlib.Logic.Relation
import Mathlib.Order.Fin.Basic
import Mathlib.Tactic.Common
import ScriptHeap.Record.Arena

/-!
Views of the arena: what a lookup finds after each way of writing, and two comparisons of arenas.

Arenas have the same *shape* if the same places are vacant, pooled and live. They are *alike* if in
addition live records differ at most in their mark and their links, which is all that marking and
the upkeep of root tables may change.
-/

namespace ScriptHeap

/-- A record without its mark and its links. -/
def Record.core (r : Record) : Record :=
  { r with header := { r.header with marked := false, rootLinks := ∅, refLinks := ∅ } }

/-- What a record keeps for as long as it lives, however old it grows. -/
def Record.lasting (r : Record) : Record :=
  { r.core with header := { r.core.header with generation := .new, survived := false } }

lemma Record.lasting_of_core {r q : Record} (h : r.core = q.core) : r.lasting = q.lasting := by
  simp [lasting, h]

lemma Record.body_of_core {r q : Record} (h : r.core = q.core) : r.body = q.body :=
  congrArg (fun r => r.body) h

lemma Record.generation_of_core {r q : Record} (h : r.core = q.core) :
    r.header.generation = q.header.generation :=
  congrArg (fun r => r.header.generation) h

lemma Record.permanent_of_core {r q : Record} (h : r.core = q.core) :
    r.header.permanent = q.header.permanent :=
  congrArg (fun r => r.header.permanent) h

lemma Record.body_of_lasting {r q : Record} (h : r.lasting = q.lasting) : r.body = q.body :=
  congrArg (fun r => r.body) h

lemma Record.type_of_lasting {r q : Record} (h : r.lasting = q.lasting) : r.type = q.type :=
  congrArg (fun r => r.type) h

lemma Record.permanent_of_lasting {r q : Record} (h : r.lasting = q.lasting) :
    r.header.permanent = q.header.permanent :=
  congrArg (fun r => r.header.permanent) h

def Cell.core : Cell → Cell
  | live r => live r.core
  | pooled h => pooled h

/-- What a pool holds of a cell: nothing if the cell is live. -/
def Cell.husk? : Cell → Option Husk
  | live _ => none
  | pooled h => some h

namespace Arena

/-- The same places are vacant, pooled and live. -/
structure SameShape (a b : Arena) : Prop where
  vacant : b.vacant = a.vacant
  size : b.cells.size = a.cells.size
  occupied : b.occupied = a.occupied
  husk : ∀ id, (b.get? id).map Cell.husk? = (a.get? id).map Cell.husk?

/-- Live records differ in marks and links only. -/
structure Alike (a b : Arena) : Prop where
  shape : a.SameShape b
  core : ∀ id, (b.get? id).map Cell.core = (a.get? id).map Cell.core

lemma isLive_iff {a : Arena} {id : RecordId} :
    a.isLive id = true ↔ ∃ r, a.live? id = some r := by
  simp [isLive, Option.isSome_iff_exists]

lemma header?_eq_some {a : Arena} {id : RecordId} {h : Header} :
    a.header? id = some h ↔ ∃ r, a.live? id = some r ∧ r.header = h := by
  simp [header?]

lemma object?_eq_some {a : Arena} {id : RecordId} {o : Object} :
    a.object? id = some o ↔ ∃ r, a.live? id = some r ∧ r.body = .object o := by
  simp only [object?, Option.bind_eq_some_iff]
  refine exists_congr fun r => and_congr_right fun _ => ?_
  cases r.body <;> simp [Body.object?]

lemma live?_congr {a b : Arena} {id : RecordId} (h : b.get? id = a.get? id) :
    b.live? id = a.live? id := by
  simp [live?, h]

/-! ### Lookups after a write -/

lemma live?_put {a : Arena} {id : RecordId} (c : Cell) (h : id < a.cells.size) (j : RecordId) :
    (a.put id c).live? j = if j = id then c.live? else a.live? j := by
  unfold live?
  rw [get?_put c h]
  split <;> rfl

/-- What a write to a record leaves alone. -/
lemma live?_modify_map {β : Type} {π : Record → β} {a : Arena} {id : RecordId}
    {f : Record → Record} (hf : ∀ r, a.live? id = some r → π (f r) = π r) (j : RecordId) :
    ((a.modify id f).live? j).map π = (a.live? j).map π := by
  rw [live?_modify]
  split
  · next e =>
    subst e
    rcases hr : a.live? j with _ | r
    · rfl
    · exact congrArg some (hf r hr)
  · rfl

lemma isLive_modify (a : Arena) (id : RecordId) (f : Record → Record) (j : RecordId) :
    (a.modify id f).isLive j = a.isLive j := by
  unfold isLive
  rw [live?_modify]
  split
  · exact Option.isSome_map
  · rfl

lemma live?_modifyHeader (a : Arena) (id : RecordId) (f : Header → Header) (j : RecordId) :
    (a.modifyHeader id f).live? j =
      if j = id then (a.live? j).map fun r => { r with header := f r.header } else a.live? j :=
  live?_modify a id _ j

/-- What a write to a header leaves alone. -/
lemma header_of_modifyHeader {β : Type} (π : Header → β) {a : Arena} {id j : RecordId}
    {f : Header → Header} {r q : Record} (hr : a.live? j = some r)
    (hq : (a.modifyHeader id f).live? j = some q) (hf : ∀ h, π (f h) = π h) :
    π q.header = π r.header := by
  rw [live?_modifyHeader, hr] at hq
  split at hq
  · obtain rfl := Option.some.inj hq
    exact hf r.header
  · rw [Option.some.inj hq]

lemma live?_setBody (a : Arena) (id : RecordId) (body : Body) (j : RecordId) :
    (a.setBody id body).live? j =
      if j = id then (a.live? j).map ({ · with body }) else a.live? j :=
  live?_modify a id _ j

lemma live?_modifyHeaders (a : Arena) {ids : List RecordId} (f : Header → Header)
    (hn : ids.Nodup) (j : RecordId) :
    (a.modifyHeaders ids f).live? j =
      if j ∈ ids then (a.live? j).map fun r => { r with header := f r.header } else a.live? j := by
  induction ids generalizing a with
  | nil => simp [modifyHeaders]
  | cons id ids ih =>
    obtain ⟨hid, hn⟩ := List.nodup_cons.1 hn
    have h := ih (a.modifyHeader id f) hn
    rw [live?_modifyHeader] at h
    change ((a.modifyHeader id f).modifyHeaders ids f).live? j = _
    rw [h]
    by_cases hj : j = id
    · subst hj
      simp [hid]
    · simp [hj]

lemma live?_release (a : Arena) (id j : RecordId) :
    (a.release id).live? j = if j = id then none else a.live? j := by
  unfold live?
  rw [get?_release]
  split <;> rfl

/-! ### Arenas of the same shape -/

namespace SameShape

lemma refl (a : Arena) : a.SameShape a := ⟨rfl, rfl, rfl, fun _ => rfl⟩

lemma symm {a b : Arena} (h : a.SameShape b) : b.SameShape a :=
  ⟨h.vacant.symm, h.size.symm, h.occupied.symm, fun id => (h.husk id).symm⟩

lemma trans {a b c : Arena} (h : a.SameShape b) (k : b.SameShape c) : a.SameShape c :=
  ⟨k.vacant.trans h.vacant, k.size.trans h.size, k.occupied.trans h.occupied,
    fun id => (k.husk id).trans (h.husk id)⟩

lemma get?_eq_none {a b : Arena} (h : a.SameShape b) (id : RecordId) :
    b.get? id = none ↔ a.get? id = none := by
  have := h.husk id
  rcases ha : a.get? id with _ | c <;> rcases hb : b.get? id with _ | d <;> simp [ha, hb] at this ⊢

lemma get?_pooled {a b : Arena} (h : a.SameShape b) (id : RecordId) (k : Husk) :
    b.get? id = some (.pooled k) ↔ a.get? id = some (.pooled k) := by
  have := h.husk id
  rcases ha : a.get? id with _ | (r | r) <;> rcases hb : b.get? id with _ | (q | q) <;>
    simp_all [Cell.husk?]

/-- In arenas of the same shape a place differs only if live records do. -/
lemma get?_eq {a b : Arena} (h : a.SameShape b) {id : RecordId} (hl : b.live? id = a.live? id) :
    b.get? id = a.get? id := by
  have hhusk := h.husk id
  unfold live? at hl
  rcases ha : a.get? id with _ | (r | k) <;> rcases hb : b.get? id with _ | (q | l) <;>
    simp_all [Cell.husk?, Cell.live?]

lemma eq_withCells {a b : Arena} (h : a.SameShape b) : b = { a with cells := b.cells } := by
  obtain ⟨cells, vacant, occupied⟩ := b
  obtain rfl : vacant = a.vacant := h.vacant
  obtain rfl : occupied = a.occupied := h.occupied
  rfl

lemma eq {a b : Arena} (h : a.SameShape b) (hl : ∀ id, b.live? id = a.live? id) : b = a := by
  have hcells : b.cells = a.cells := by
    refine Array.ext h.size fun i hb ha => ?_
    have hget := h.get?_eq (hl i)
    rwa [get?, get?, Array.getElem?_eq_getElem ha, Array.getElem?_eq_getElem hb] at hget
  rw [h.eq_withCells, hcells]

end SameShape

lemma sameShape_modify (a : Arena) (id : RecordId) (f : Record → Record) :
    a.SameShape (a.modify id f) := by
  refine ⟨?_, ?_, ?_, fun j => ?_⟩
  · unfold modify
    split <;> rfl
  · unfold modify
    split <;> simp [put]
  · unfold modify
    split <;> rfl
  · rw [get?_modify]
    split
    · rcases a.get? j with _ | (r | r) <;> rfl
    · rfl

lemma sameShape_modifyHeaders (a : Arena) (ids : List RecordId) (f : Header → Header) :
    a.SameShape (a.modifyHeaders ids f) := by
  induction ids generalizing a with
  | nil => exact .refl a
  | cons id ids ih => exact (sameShape_modify a id _).trans (ih _)

/-! ### Arenas that are alike -/

namespace Alike

lemma refl (a : Arena) : a.Alike a := ⟨.refl a, fun _ => rfl⟩

lemma symm {a b : Arena} (h : a.Alike b) : b.Alike a := ⟨h.shape.symm, fun id => (h.core id).symm⟩

lemma trans {a b c : Arena} (h : a.Alike b) (k : b.Alike c) : a.Alike c :=
  ⟨h.shape.trans k.shape, fun id => (k.core id).trans (h.core id)⟩

lemma live?_map {a b : Arena} (h : a.Alike b) (id : RecordId) :
    (b.live? id).map Record.core = (a.live? id).map Record.core := by
  have := h.core id
  rcases ha : a.get? id with _ | (r | r) <;> rcases hb : b.get? id with _ | (q | q) <;>
    simp_all [Cell.core, live?, Cell.live?]

/-- What the core of a record decides is the same in arenas that are alike. -/
lemma live?_map_of {β : Type} {a b : Arena} (h : a.Alike b) {f : Record → β}
    (hf : ∀ {r q : Record}, r.core = q.core → f r = f q) (id : RecordId) :
    (b.live? id).map f = (a.live? id).map f := by
  have hcore := h.live?_map id
  rcases ha : a.live? id with _ | r <;> rcases hb : b.live? id with _ | q <;>
    simp only [ha, hb, Option.map_some, Option.map_none, reduceCtorEq] at hcore ⊢
  rw [hf (Option.some.inj hcore)]

lemma isLive {a b : Arena} (h : a.Alike b) (id : RecordId) : b.isLive id = a.isLive id := by
  have hcore := congrArg Option.isSome (h.live?_map id)
  rwa [Option.isSome_map, Option.isSome_map] at hcore

/-- A live record is still live. -/
lemma live {a b : Arena} (h : a.Alike b) {id : RecordId} {r : Record} (hr : a.live? id = some r) :
    ∃ q, b.live? id = some q ∧ q.core = r.core := by
  have := h.live?_map id
  rw [hr] at this
  exact Option.map_eq_some_iff.1 this

/-- A live record was live before. -/
lemma live' {a b : Arena} (h : a.Alike b) {id : RecordId} {q : Record} (hq : b.live? id = some q) :
    ∃ r, a.live? id = some r ∧ q.core = r.core := by
  obtain ⟨r, hr, e⟩ := h.symm.live hq
  exact ⟨r, hr, e.symm⟩

end Alike

/-- A live record refers to a younger one of generation `g`, which is not permanent. -/
def Crosses (a : Arena) (x y : RecordId) (g : Gen) : Prop :=
  ∃ r q, a.live? x = some r ∧ y ∈ r.body.references ∧ a.live? y = some q ∧
    q.header.permanent = false ∧ q.header.generation = g ∧ g < r.header.generation

lemma Crosses.holder {a : Arena} {x y : RecordId} {g : Gen} (h : a.Crosses x y g) :
    ∃ r, a.live? x = some r ∧ g < r.header.generation := by
  obtain ⟨r, -, hr, -, -, -, -, hlt⟩ := h
  exact ⟨r, hr, hlt⟩

lemma Crosses.of_alike {a b : Arena} (h : a.Alike b) {x y : RecordId} {g : Gen}
    (hc : b.Crosses x y g) : a.Crosses x y g := by
  obtain ⟨r', q', hr', hy, hq', hp, hg, hlt⟩ := hc
  obtain ⟨r, hr, er⟩ := h.live' hr'
  obtain ⟨q, hq, eq⟩ := h.live' hq'
  rw [Record.body_of_core er] at hy
  rw [Record.permanent_of_core eq] at hp
  rw [Record.generation_of_core eq] at hg
  rw [Record.generation_of_core er] at hlt
  exact ⟨r, q, hr, hy, hq, hp, hg, hlt⟩

/-- Whatever is read off the lasting parts of a header is the same in arenas that are alike. -/
lemma Alike.header?_any {a b : Arena} (h : a.Alike b) (p : Header → Bool)
    (hp : ∀ {r q : Record}, r.core = q.core → p r.header = p q.header) (id : RecordId) :
    (b.header? id).any p = (a.header? id).any p := by
  have := h.live?_map id
  unfold header?
  rcases ha : a.live? id with _ | r <;> rcases hb : b.live? id with _ | q <;>
    simp only [ha, hb, Option.map_some, Option.map_none, reduceCtorEq] at this ⊢
  exact hp (Option.some.inj this)

lemma alike_modifyHeader (a : Arena) (id : RecordId) {f : Header → Header}
    (hf : ∀ r : Record, ({ r with header := f r.header } : Record).core = r.core) :
    a.Alike (a.modifyHeader id f) := by
  refine ⟨sameShape_modify a id _, fun j => ?_⟩
  rw [modifyHeader, get?_modify]
  split
  · rcases a.get? j with _ | (r | r)
    · rfl
    · simp [Cell.core, hf]
    · rfl
  · rfl

lemma alike_modifyHeaders (a : Arena) (ids : List RecordId) {f : Header → Header}
    (hf : ∀ r : Record, ({ r with header := f r.header } : Record).core = r.core) :
    a.Alike (a.modifyHeaders ids f) := by
  induction ids generalizing a with
  | nil => exact .refl a
  | cons id ids ih => exact (alike_modifyHeader a id hf).trans (ih _)

end Arena

end ScriptHeap
