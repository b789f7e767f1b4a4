import Mathlib
import ScriptHeap.Object.Edit
import ScriptHeap.Proofs.NamedStore

/-!
Edits in place. An edit of an object is carried out on the object itself, step by step, and what it
has done before it fails stays done. The room for slots and names comes from an allocator, which may
refuse it at any time. An edit that fails has changed nothing all the same, except that the object
may have got a copy of the name table of its type for itself. With an allocator that grants whatever
can exist the edits in place are the edits of objects.
-/

namespace ScriptHeap

/-- What is granted: an array of so many slots, and room for so many further names. -/
structure Allocator where
  slots : Nat → Bool
  names : Nat → Bool

/-- Grants every array that can exist. -/
def Allocator.generous : Allocator where
  slots n := n * Capacity.slotBytes ≤ Capacity.arrayLimit
  names _ := true

abbrev EditM := EStateM Failure Object

lemma NameTable.ensureSize_of_le {t : NameTable} {n : Nat} (h : n ≤ t.size) :
    t.ensureSize n = t := by
  unfold size at h
  simp [ensureSize, Nat.sub_eq_zero_of_le h]

namespace InPlace

/-- Fails unless the condition holds. -/
def ensure (ok : Bool) (e : Failure) : EditM Unit := if ok then pure () else throw e

/-- The capacity that `n` slots need, if the allocator grants it. -/
def reserveSlots (a : Allocator) (n : Nat) : EditM Nat := do
  match Capacity.next? (← get).capacity n with
  | none => throw .outOfMemory
  | some capacity =>
    ensure (a.slots capacity) .outOfMemory
    return capacity

/-- Room for `n` names, in a table of its own. -/
def reserveNames (a : Allocator) (n : Nat) : EditM Unit := do
  let o ← get
  if o.names.size < n then
    modify ({ · with shared := false })
    ensure (a.names (n - o.names.size)) .outOfMemory

variable [NameHash]

/-- A larger array for `n` slots. -/
def enlarge (a : Allocator) (n : Nat) : EditM Unit := do
  let capacity ← reserveSlots a n
  reserveNames a n
  modify fun o => { o with slots := o.slots ++ Array.replicate (capacity - o.capacity) none }
  modify fun o => { o with names := o.names.ensureSize n, shared := false }
  modify fun o => if 0 < o.count then { o with names := o.names.reindex (max n o.count) } else o

/-- Room for `n` slots and names. -/
def makeRoom (a : Allocator) (n : Nat) : EditM Unit := do
  let o ← get
  if o.capacity < n then enlarge a n
  else if o.names.size < n then
    modify fun o => { o with names := o.names.ensureSize n, shared := false }

def grow (a : Allocator) (n : Nat) : EditM Unit := do
  makeRoom a n
  modify fun o => { o with count := max o.count n }

def checkSlot (a : Allocator) (slot : Int) (compiler : Bool) : EditM Nat := do
  let o ← get
  let slot := if slot < 0 then o.count else slot.toNat
  if slot < o.count then return slot
  else
    ensure (o.dynamic || compiler) .typeError
    grow a (slot + 1)
    return slot

def setValue (a : Allocator) (slot : Int) (v : Slot) (compiler : Bool) : EditM Nat := do
  let slot ← checkSlot a slot compiler
  modify (·.write slot v)
  return slot

/-- Gives a slot that is there its name. -/
def nameSlot (slot : Nat) (q : QName) : EditM Nat := do
  if (← get).names.nameAt? slot = some q then return slot
  else
    modify ({ · with shared := false })
    modify fun o => { o with names := o.names.rename slot q o.count }
    return slot

def setName (a : Allocator) (slot : Int) (q : QName) (compiler : Bool) : EditM Nat := do
  let slot ← checkSlot a slot compiler
  nameSlot slot q

def delete (slot : Nat) (compiler : Bool) : EditM Unit := do
  let o ← get
  ensure (o.dynamic || compiler) .typeError
  ensure (slot < o.count) .outOfBounds
  modify fun o =>
    if (o.names.nameAt? slot).any (!·.isUnnamed) then
      { o with names := o.names.clear slot, shared := false }
    else o
  modify (·.write slot none)
  modify fun o => if slot + 1 = o.count then { o with count := slot } else o

def insert (a : Allocator) (n offset : Nat) : EditM Unit := do
  let o ← get
  ensure (offset ≤ o.count) .outOfBounds
  if n = 0 then return
  else
    ensure (o.count + n < wordLimit) .outOfBounds
    grow a (o.count + n)
    modify fun grown => { grown with
      slots := grown.slots.extract 0 offset ++ Array.replicate n none
        ++ grown.slots.extract offset o.count ++ grown.slots.extract (o.count + n) grown.capacity }
    modify fun grown => { grown with
      names := (grown.names.insertEntries offset n).reindex grown.count
      shared := false }

def remove (slot : Nat) (compact compiler : Bool) : EditM Unit := do
  let o ← get
  ensure compiler .typeError
  ensure (slot < o.count) .outOfBounds
  if compact then
    modify fun o => { o with
      slots := o.slots.extract 0 slot ++ o.slots.extract (slot + 1) o.count ++ #[none]
        ++ o.slots.extract o.count o.capacity }
    modify fun o => { o with names := o.names.removeEntry slot, shared := false }
    modify fun o => { o with count := o.count - 1 }
    modify fun o => { o with names := o.names.reindex o.count }
  else
    modify fun o => { o with names := o.names.clear slot, shared := false }
    modify (·.write slot none)

def edit (a : Allocator) : Object.Edit → EditM Unit
  | .checkSlot slot compiler => do let _ ← checkSlot a slot compiler
  | .setValue slot v compiler => do let _ ← setValue a slot v compiler
  | .setName slot q compiler => do let _ ← setName a slot q compiler
  | .delete slot compiler => delete slot compiler
  | .grow n => grow a n
  | .insert n offset => insert a n offset
  | .remove slot compact compiler => remove slot compact compiler
  | .setDynamic dynamic => modify (·.withDynamic dynamic)

/-! ### Edits that fail -/

section Undone

omit [NameHash]

variable {α β : Type} {m : EditM α} {f : α → EditM β} {o : Object}

/-- If the edit fails, the object is as it was, or all that has changed is that its name table is no
longer the one of its type. -/
def Undone (m : EditM α) (o : Object) : Prop :=
  ∀ e o', m.run o = .error e o' → o' = o ∨ o' = { o with shared := false }

/-- The edit does not fail. -/
def Total (m : EditM α) : Prop := ∀ o, ∃ x o', m.run o = .ok x o'

lemma Total.undone (hm : Total m) : Undone m o := by
  intro e o' he
  obtain ⟨x, o₁, hok⟩ := hm o
  cases hok.symm.trans he

lemma undone_throw (e : Failure) : Undone (throw e : EditM α) o := by
  intro e' o' he
  obtain ⟨-, rfl⟩ := EStateM.Result.error.inj he
  exact .inl rfl

lemma undone_get {f : Object → EditM β} (hf : Undone (f o) o) : Undone (get >>= f) o := hf

/-- What follows a check is all that counts. -/
lemma undone_ensure {ok : Bool} {e : Failure} {f : Unit → EditM β}
    (hf : Undone (f ()) o) : Undone (ensure ok e >>= f) o := by
  cases ok with
  | true => exact hf
  | false =>
    intro e' o' he
    obtain ⟨-, rfl⟩ := EStateM.Result.error.inj he
    exact .inl rfl

/-- What cannot fail may follow. -/
lemma Undone.andThen (hm : Undone m o) (hf : ∀ x, Total (f x)) : Undone (m >>= f) o := by
  intro e o' he
  rw [EStateM.run_bind] at he
  rcases hres : m.run o with ⟨x, o₁⟩ | ⟨e₁, o₁⟩ <;> rw [hres] at he
  · obtain ⟨y, o₂, hok⟩ := hf x o₁
    cases hok.symm.trans he
  · obtain ⟨-, rfl⟩ := EStateM.Result.error.inj he
    exact hm e₁ o₁ hres

end Undone

variable {o : Object}

omit [NameHash] in
lemma undone_reserveNames (a : Allocator) (n : Nat) : Undone (reserveNames a n) o := by
  unfold reserveNames
  refine undone_get ?_
  split
  · intro e o' he
    -- the name table is no longer shared when the room is refused
    cases ha : a.names (n - o.names.size) <;> rw [ha] at he
    · obtain ⟨-, rfl⟩ := EStateM.Result.error.inj he
      exact .inr rfl
    · cases he
  · exact Total.undone fun _ => ⟨_, _, rfl⟩

lemma undone_enlarge (a : Allocator) (n : Nat) : Undone (enlarge a n) o := by
  unfold enlarge reserveSlots
  rw [bind_assoc]
  refine undone_get ?_
  split
  · exact undone_throw _
  · rw [bind_assoc]
    refine undone_ensure ?_
    rw [pure_bind]
    exact (undone_reserveNames a n).andThen fun _ _ => ⟨_, _, rfl⟩

lemma undone_grow (a : Allocator) (n : Nat) : Undone (grow a n) o := by
  refine Undone.andThen (undone_get ?_) fun _ _ => ⟨_, _, rfl⟩
  split
  · exact undone_enlarge a n
  · split <;> exact Total.undone fun _ => ⟨_, _, rfl⟩

lemma undone_checkSlot (a : Allocator) (slot : Int) (compiler : Bool) :
    Undone (checkSlot a slot compiler) o := by
  unfold checkSlot
  refine undone_get ?_
  dsimp only
  generalize (if slot < 0 then o.count else slot.toNat) = k
  split
  · exact Total.undone fun _ => ⟨_, _, rfl⟩
  · exact undone_ensure ((undone_grow a _).andThen fun _ _ => ⟨_, _, rfl⟩)

lemma total_nameSlot (slot : Nat) (q : QName) : Total (nameSlot slot q) := by
  intro o
  unfold nameSlot
  by_cases hname : o.names.nameAt? slot = some q
  · exact ⟨slot, o, by simp [hname]⟩
  · exact ⟨slot, _, by simp [hname]; rfl⟩

/-- **An edit that fails changes nothing but whose name table the object has.** -/
theorem undone_edit (a : Allocator) (e : Object.Edit) : Undone (edit a e) o := by
  cases e with
  | checkSlot slot compiler =>
    exact (undone_checkSlot a slot compiler).andThen fun _ _ => ⟨_, _, rfl⟩
  | setValue slot v compiler =>
    refine Undone.andThen ?_ fun _ _ => ⟨_, _, rfl⟩
    exact (undone_checkSlot a slot compiler).andThen fun _ _ => ⟨_, _, rfl⟩
  | setName slot q compiler =>
    refine Undone.andThen ?_ fun _ _ => ⟨_, _, rfl⟩
    exact (undone_checkSlot a slot compiler).andThen fun slot => total_nameSlot slot q
  | delete slot compiler =>
    exact undone_get (undone_ensure (undone_ensure (Total.undone fun _ => ⟨_, _, rfl⟩)))
  | grow n => exact undone_grow a n
  | insert n offset =>
    refine undone_get (undone_ensure ?_)
    split
    · exact Total.undone fun _ => ⟨_, _, rfl⟩
    · exact undone_ensure ((undone_grow a _).andThen fun _ _ => ⟨_, _, rfl⟩)
  | remove slot compact compiler =>
    refine undone_get (undone_ensure (undone_ensure ?_))
    cases compact <;> exact Total.undone fun _ => ⟨_, _, rfl⟩
  | setDynamic dynamic => exact Total.undone fun _ => ⟨_, _, rfl⟩

/-! ### Edits with a generous allocator -/

section Generous

omit [NameHash]

variable {α : Type}

/-- What an edit of an object comes to when it is done in place. -/
def outcome (o : Object) : Except Failure (α × Object) → EStateM.Result Failure Object α
  | .ok (x, o') => .ok x o'
  | .error e => .error e o

lemma run_ensure (ok : Bool) (e : Failure) (f : Unit → EditM α) (o : Object) :
    (ensure ok e >>= f).run o = if ok then (f ()).run o else .error e o := by
  cases ok <;> rfl

lemma run_reserveSlots_generous (n : Nat) (o : Object) :
    (reserveSlots .generous n).run o = match Capacity.reserve? o.capacity n with
      | none => .error .outOfMemory o
      | some capacity => .ok capacity o := by
  unfold reserveSlots Capacity.reserve?
  change (match Capacity.next? o.capacity n with
    | none => throw .outOfMemory
    | some capacity => ensure (Allocator.generous.slots capacity) .outOfMemory >>=
        fun _ => pure capacity : EditM Nat).run o = _
  rcases Capacity.next? o.capacity n with _ | capacity
  · rfl
  · dsimp only
    rw [run_ensure, Option.filter_some]
    have hgranted : decide (capacity * Capacity.slotBytes ≤ Capacity.arrayLimit) =
        Allocator.generous.slots capacity := rfl
    rw [hgranted]
    cases Allocator.generous.slots capacity <;> rfl

lemma run_reserveNames_generous (n : Nat) (o : Object) : (reserveNames .generous n).run o =
    .ok () (if o.names.size < n then { o with shared := false } else o) := by
  unfold reserveNames
  change (if o.names.size < n then _ else pure () : EditM Unit).run o = _
  split <;> rfl

end Generous

lemma run_enlarge_generous (n : Nat) (o : Object) : (enlarge .generous n).run o =
    match Capacity.reserve? o.capacity n with
    | none => .error .outOfMemory o
    | some capacity => .ok () { o with
        slots := o.slots ++ Array.replicate (capacity - o.capacity) none
        names := if 0 < o.count then (o.names.ensureSize n).reindex (max n o.count)
          else o.names.ensureSize n
        shared := false } := by
  unfold enlarge
  rw [EStateM.run_bind, run_reserveSlots_generous]
  rcases Capacity.reserve? o.capacity n with _ | capacity
  · rfl
  · dsimp only
    rw [EStateM.run_bind, run_reserveNames_generous]
    by_cases hsize : o.names.size < n <;> by_cases hcount : 0 < o.count <;>
      simp [hsize, hcount, Object.capacity]

lemma run_grow_generous (n : Nat) (o : Object) :
    (grow .generous n).run o = outcome o ((o.grow n).map ((), ·)) := by
  unfold grow makeRoom Object.grow
  rw [EStateM.run_bind, EStateM.run_bind, EStateM.run_get]
  dsimp only
  by_cases hn : n ≤ o.capacity
  · rw [if_neg (Nat.not_lt.2 hn), if_pos hn]
    by_cases hsize : o.names.size < n
    · simp [outcome, Except.map, hsize, Nat.not_le.2 hsize]
    · have hkept := NameTable.ensureSize_of_le (Nat.not_lt.1 hsize)
      simp [outcome, Except.map, hsize, Nat.not_lt.1 hsize, hkept]
  · rw [if_pos (Nat.not_le.1 hn), if_neg hn, run_enlarge_generous]
    rcases Capacity.reserve? o.capacity n with _ | capacity <;> rfl

lemma run_checkSlot_generous (slot : Int) (compiler : Bool) (o : Object) :
    (checkSlot .generous slot compiler).run o = outcome o (o.checkSlot slot compiler) := by
  unfold checkSlot Object.checkSlot
  rw [EStateM.run_bind, EStateM.run_get]
  dsimp only
  generalize (if slot < 0 then o.count else slot.toNat) = k
  by_cases hk : k < o.count
  · rw [if_pos hk, if_pos hk]
    rfl
  · rw [if_neg hk, if_neg hk, run_ensure, ← Bool.not_or]
    cases o.dynamic || compiler with
    | false => rfl
    | true =>
      rw [if_pos rfl, EStateM.run_bind, run_grow_generous]
      rcases o.grow (k + 1) with e | o' <;> rfl

lemma run_setValue_generous (slot : Int) (v : Slot) (compiler : Bool) (o : Object) :
    (setValue .generous slot v compiler).run o = outcome o (o.setValue slot v compiler) := by
  unfold setValue Object.setValue
  rw [EStateM.run_bind, run_checkSlot_generous]
  rcases o.checkSlot slot compiler with e | ⟨k, o'⟩ <;> rfl

lemma run_setName_generous (slot : Int) (q : QName) (compiler : Bool) (o : Object) :
    (setName .generous slot q compiler).run o = outcome o (o.setName slot q compiler) := by
  unfold setName nameSlot Object.setName
  rw [EStateM.run_bind, run_checkSlot_generous]
  rcases o.checkSlot slot compiler with e | ⟨k, o'⟩
  · rfl
  · by_cases hname : o'.names.nameAt? k = some q <;> simp [outcome, Except.map, hname]

lemma run_delete (slot : Nat) (compiler : Bool) (o : Object) :
    (delete slot compiler).run o = outcome o ((o.delete slot compiler).map ((), ·)) := by
  unfold delete Object.delete
  rw [EStateM.run_bind, EStateM.run_get]
  dsimp only
  rw [run_ensure, ← Bool.not_or]
  cases o.dynamic || compiler with
  | false => rfl
  | true =>
    rw [if_pos rfl, run_ensure]
    by_cases hs : slot < o.count
    · by_cases hname : (o.names.nameAt? slot).any (!·.isUnnamed) = true <;>
        by_cases hlast : slot + 1 = o.count <;>
        simp [outcome, Except.map, hs, Nat.not_le.2 hs, hname, hlast, Object.write]
    · simp [outcome, Except.map, hs, Nat.not_lt.1 hs]

lemma run_insert_generous (n offset : Nat) (o : Object) :
    (insert .generous n offset).run o = outcome o ((o.insert n offset).map ((), ·)) := by
  unfold insert Object.insert
  rw [EStateM.run_bind, EStateM.run_get]
  dsimp only
  rw [run_ensure]
  by_cases hoffset : o.count < offset
  · simp [outcome, Except.map, hoffset, Nat.not_le.2 hoffset]
  · rw [if_pos (decide_eq_true (Nat.not_lt.1 hoffset)), if_neg hoffset]
    by_cases hn : n = 0
    · simp [outcome, Except.map, hn]
    · rw [if_neg hn, if_neg hn, run_ensure]
      by_cases hword : o.count + n < wordLimit
      · rw [if_pos (decide_eq_true hword), if_neg (Nat.not_le.2 hword), EStateM.run_bind,
          run_grow_generous]
        rcases o.grow (o.count + n) with e | grown <;> rfl
      · simp [outcome, Except.map, hword, Nat.not_lt.1 hword]

lemma run_remove (slot : Nat) (compact compiler : Bool) (o : Object) :
    (remove slot compact compiler).run o =
      outcome o ((o.remove slot compact compiler).map ((), ·)) := by
  unfold remove Object.remove
  rw [EStateM.run_bind, EStateM.run_get]
  dsimp only
  rw [run_ensure]
  cases compiler with
  | false => rfl
  | true =>
    rw [if_pos rfl, run_ensure]
    by_cases hs : slot < o.count
    · cases compact <;> simp [outcome, Except.map, hs, Nat.not_le.2 hs, Object.write]
    · simp [outcome, Except.map, hs, Nat.not_lt.1 hs]

omit [NameHash] in
lemma run_discard {α : Type} {m : EditM α} {x : Except Failure (α × Object)}
    (hm : m.run o = outcome o x) : (do let _ ← m : EditM Unit).run o =
      outcome o ((x.map (·.2)).map ((), ·)) := by
  rw [EStateM.run_bind, hm]
  rcases x with e | ⟨k, o'⟩ <;> rfl

/-- **With a generous allocator an edit in place is the edit of the object.** -/
theorem run_edit_generous (e : Object.Edit) (o : Object) :
    (edit .generous e).run o = outcome o ((o.edit e).map ((), ·)) := by
  cases e with
  | checkSlot slot compiler => exact run_discard (run_checkSlot_generous slot compiler o)
  | setValue slot v compiler => exact run_discard (run_setValue_generous slot v compiler o)
  | setName slot q compiler => exact run_discard (run_setName_generous slot q compiler o)
  | delete slot compiler => exact run_delete slot compiler o
  | grow n => exact run_grow_generous n o
  | insert n offset => exact run_insert_generous n offset o
  | remove slot compact compiler => exact run_remove slot compact compiler o
  | setDynamic dynamic => rfl

end InPlace

end ScriptHeap
