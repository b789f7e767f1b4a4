import Mathlib
import ScriptHeap.Proofs.InPlace

/-!
What a refused operation leaves behind: the heap as it was, and the reason. Every check comes before
the first change, and the edits of objects, which are done in place, leave the object as it was when
they fail. Only operations that go in several steps may stop between them.
-/

namespace ScriptHeap

lemma Arena.setBody_self {a : Arena} {id : RecordId} {r : Record} (hr : a.live? id = some r) :
    a.setBody id r.body = a := by
  have hcell : a.cells[id]? = some (some (.live r)) :=
    Option.join_eq_some_iff.1 (Arena.live?_eq_some.1 hr)
  have hcells : a.cells.setIfInBounds id (some (.live r)) = a.cells := by
    refine Array.ext_getElem? fun j => ?_
    by_cases hj : id = j
    · subst hj
      rw [Array.getElem?_setIfInBounds_self, hcell]
      exact if_pos (Array.getElem?_eq_some_iff.1 hcell).1
    · rw [Array.getElem?_setIfInBounds_ne hj]
  rw [Arena.setBody, Arena.modify, hr]
  exact congrArg (fun cells => { a with cells }) hcells

/-- The operations that go in steps and may be refused after the first of them. -/
def Operation.goesInSteps : Operation → Bool
  | .setPropertyByName .. | .collect _ | .collectIfRequired => true
  | .cloneObject _ deep => deep
  | _ => false

namespace Heap

/-! ### Edits in place -/

/-- The heap in which an edit that failed has left `o'` of an object. A change of storage is
charged. -/
def withFailed (h : Heap) (id : RecordId) (o o' : Object) : Heap :=
  if o'.storageBytes = o.storageBytes then { h with arena := h.arena.setBody id (.object o') }
  else h.withObject id o o'

/-- Runs an edit on an object in place. What it leaves stays, even if it fails. -/
def editInPlace {α : Type} (id : RecordId) (m : EditM α) : HeapM α := do
  let h ← get
  match h.object id with
  | .error .typeError => refuse (.notObject id)
  | .error _ => refuse (.deadRecord id)
  | .ok o =>
    match m.run o with
    | .ok a o' =>
      set (h.withObject id o o')
      return a
    | .error e o' =>
      set (h.withFailed id o o')
      refuse (.ofObjectFailure id e)

section InPlace

variable {α : Type} {m : EditM α} {h : Heap} {id : RecordId}

lemma setBody_object {o : Object} (ho : h.object id = .ok o) :
    { h with arena := h.arena.setBody id (.object o) } = h := by
  obtain ⟨r, hr, hb⟩ := object_eq_ok ho
  rw [← hb, Arena.setBody_self hr]

lemma withFailed_self {o : Object} (ho : h.object id = .ok o) : h.withFailed id o o = h :=
  (if_pos rfl).trans (setBody_object ho)

lemma withFailed_shared (o : Object) : h.withFailed id o { o with shared := false } =
    { h with arena := h.arena.setBody id (.object { o with shared := false }) } := if_pos rfl

/-- Edits that agree on the object do the same to the heap. -/
lemma editInPlace_eq {f : Object → Except Failure (α × Object)}
    (hm : ∀ o, m.run o = InPlace.outcome o (f o)) (id : RecordId) :
    editInPlace id m = editObject id f := by
  refine funext fun h => ?_
  change (editInPlace id m).run h = (editObject id f).run h
  unfold editInPlace
  rw [run_get_bind]
  rcases ho : h.object id with e | o
  · unfold editObject
    rw [run_get_bind, ho]
    cases e <;> rfl
  · dsimp only
    rw [hm]
    rcases hf : f o with e | ⟨a, o'⟩
    · rw [run_editObject_error ho hf]
      change (refuse (.ofObjectFailure id e) : HeapM α).run (h.withFailed id o o) = _
      rw [withFailed_self ho, run_refuse, Fault.failure_ofObjectFailure]
    · rw [run_editObject_ok ho hf]
      rfl

/-- An edit in place that is refused leaves the heap as it was, or has given the object a name table
of its own. -/
lemma refused_editInPlace (hm : ∀ o, InPlace.Undone m o) {e : Failure} {h' : Heap}
    (he : (editInPlace id m).run h = .error e h') : { h' with fault := h.fault } = h ∨
      ∃ o, h.object id = .ok o ∧ { h' with fault := h.fault } =
        { h with arena := h.arena.setBody id (.object { o with shared := false }) } := by
  unfold editInPlace at he
  rw [run_get_bind] at he
  rcases ho : h.object id with e₁ | o <;> rw [ho] at he
  · left
    cases e₁ <;> obtain ⟨-, rfl⟩ := EStateM.Result.error.inj he <;> rfl
  · dsimp only at he
    rcases hres : m.run o with ⟨a, o'⟩ | ⟨e₁, o'⟩ <;> rw [hres] at he
    · cases he
    · obtain ⟨-, rfl⟩ := EStateM.Result.error.inj he
      rcases hm o e₁ o' hres with rfl | rfl
      · left
        rw [withFailed_self ho]
      · right
        refine ⟨o, rfl, ?_⟩
        rw [withFailed_shared]

end InPlace

/-! ### Operations -/

section Atomic

variable {α β : Type} {m : HeapM α} {h : Heap}

/-- What succeeds leaves nothing to tell. -/
lemma atomic_of_ok {a : α} {h' : Heap} (hok : m.run h = .ok a h') : Atomic m h := by
  intro e h₁ he
  cases hok.symm.trans he

lemma atomic_throw (e : Failure) : Atomic (throw e : HeapM α) h := by
  intro e' h' he
  obtain ⟨-, rfl⟩ := EStateM.Result.error.inj he
  rfl

lemma Atomic.map {f : α → β} (hm : Atomic m h) : Atomic (f <$> m) h := by
  rw [← bind_pure_comp]
  exact hm.andThen fun _ _ => ⟨_, _, rfl⟩

lemma Atomic.thenReturn {b : β} (hm : Atomic m h) : Atomic (do let _ ← m; return b) h :=
  hm.andThen fun _ _ => ⟨_, _, rfl⟩

variable [Environment]

lemma atomic_allocateBody (type : TypeId) (extra : Nat) (body : Body) :
    Atomic (allocateBody type extra body) h := by
  unfold allocateBody
  refine atomic_get ?_
  split
  · exact atomic_refuse _
  · dsimp only
    split
    · exact atomic_of_ok rfl
    · exact atomic_refuse _

lemma atomic_allocateRecord (type : TypeId) (extra : Nat) :
    Atomic (allocateRecord type extra) h := by
  unfold allocateRecord
  refine atomic_get ?_
  split
  · exact atomic_refuse _
  · exact atomic_allocateBody _ _ _

lemma atomic_createNative (type : TypeId) (payload : Payload) :
    Atomic (createNative type payload) h := by
  unfold createNative
  refine atomic_get ?_
  split
  · exact atomic_refuse _
  · exact (atomic_allocateBody _ _ _).andThen fun _ _ => ⟨_, _, rfl⟩

omit [Environment] in
lemma atomic_setNative (id : RecordId) (payload : Payload) : Atomic (setNative id payload) h := by
  unfold setNative
  refine atomic_get ?_
  dsimp only
  split
  · exact atomic_of_ok rfl
  · exact atomic_refuse _

omit [Environment] in
lemma atomic_editNative (id : RecordId) (edit : Payload → Option Payload) :
    Atomic (editNative id edit) h := by
  unfold editNative
  refine atomic_get ?_
  split <;> exact atomic_of_ok rfl

lemma atomic_copyRecord (id : RecordId) : Atomic (copyRecord id) h := by
  unfold copyRecord
  refine atomic_get ?_
  split
  · exact atomic_refuse _
  · split
    · exact (atomic_allocateBody _ _ _).andThen fun _ _ => ⟨_, _, rfl⟩
    · exact atomic_refuse _

omit [Environment] in
lemma atomic_editFrame (edit : Frame → Option Frame) : Atomic (editFrame edit) h := by
  unfold editFrame
  refine atomic_get ?_
  split
  · exact atomic_of_ok rfl
  · split <;> exact atomic_of_ok rfl

omit [Environment] in
lemma atomic_makePermanent (id : RecordId) : Atomic (makePermanent id) h := by
  unfold makePermanent
  refine atomic_get ?_
  split
  · exact atomic_of_ok rfl
  · exact atomic_refuse _

omit [Environment] in
lemma atomic_makeTransient (id : RecordId) : Atomic (makeTransient id) h := by
  unfold makeTransient
  refine atomic_get ?_
  split
  · exact atomic_refuse _
  · split <;> exact atomic_of_ok rfl

lemma atomic_shallowClone (id : RecordId) : Atomic (cloneObject id false) h := by
  unfold cloneObject
  exact atomic_get ((atomic_copyRecord id).andThen fun _ _ => ⟨_, _, rfl⟩)

lemma atomic_createObject (type : TypeId) (extra : Nat) : Atomic (createObject type extra) h := by
  unfold createObject
  refine atomic_get ?_
  split
  · exact atomic_refuse _
  · exact atomic_allocateBody _ _ _

lemma atomic_deletePropertyByName (id : RecordId) (q : QName) :
    Atomic (deletePropertyByName id q) h := by
  unfold deletePropertyByName
  refine atomic_get ?_
  split
  · exact atomic_throw _
  · split
    · exact atomic_refuse _
    · exact atomic_get (atomic_editObject id _)

/-- **An operation that does not go in steps fails before it has changed anything.** -/
theorem atomic_perform (op : Operation) (hop : op.goesInSteps = false) : Atomic (perform op) h := by
  cases op with
  | defineType d => exact atomic_of_ok rfl
  | allocateRecord type extra => exact (atomic_allocateRecord type extra).map
  | createObject type extra => exact (atomic_createObject type extra).map
  | createPlainObject => exact (atomic_createObject .object 0).map
  | createString text => exact (atomic_allocateBody _ _ _).map
  | createNumber bits => exact (atomic_allocateBody _ _ _).map
  | createBoolean b => exact (atomic_allocateBody _ _ _).map
  | createNative type payload => exact (atomic_createNative type payload).map
  | setNative id payload => exact (atomic_setNative id payload).thenReturn
  | editNative id edit => exact (atomic_editNative id edit).map
  | cloneObject id deep =>
    obtain rfl : deep = false := hop
    exact (atomic_shallowClone id).map
  | setProperty id slot v => exact (atomic_setProperty id slot v).map
  | setPropertyName id slot q => exact (atomic_setPropertyName id slot q).map
  | setPropertyByName id q v => cases hop
  | deleteProperty id slot => exact (atomic_get (atomic_editObject id _)).thenReturn
  | deletePropertyByName id q => exact (atomic_deletePropertyByName id q).thenReturn
  | growObject id n =>
    exact (atomic_get ((checks_reserve id n).andThen (atomic_editObject id _))).thenReturn
  | insertSlots id n offset =>
    exact (atomic_get ((checks_reserve id _).andThen (atomic_editObject id _))).thenReturn
  | removeSlot id slot compact => exact (atomic_get (atomic_editObject id _)).thenReturn
  | editFrame edit => exact (atomic_editFrame edit).map
  | collect mode => cases hop
  | collectIfRequired => cases hop
  | makePermanent id => exact (atomic_makePermanent id).thenReturn
  | makeTransient id => exact (atomic_makeTransient id).thenReturn
  | _ => exact atomic_of_ok rfl

/-- **A refused operation leaves no trace.** Whatever the heap and the arguments, an operation that
does not go in steps and is refused leaves all of the heap as it was, apart from the last fault. For
the edits of objects this holds although they are done in place, and whatever room the allocator
refuses them: at most the object has got the name table of its type for itself. When the allocator
grants what can exist, these edits are the ones that the operations run. -/
theorem refused_leaves_no_trace :
    (∀ (op : Operation) (h h' : Heap) (e : Failure), op.goesInSteps = false →
      apply op h = (.error e, h') → { h' with fault := h.fault } = h) ∧
    (∀ (a : Allocator) (edit : Object.Edit) (id : RecordId) (h h' : Heap) (e : Failure),
      (editInPlace id (InPlace.edit a edit)).run h = .error e h' →
        { h' with fault := h.fault } = h ∨ ∃ o, h.object id = .ok o ∧
          { h' with fault := h.fault } =
            { h with arena := h.arena.setBody id (.object { o with shared := false }) }) ∧
    ∀ (edit : Object.Edit) (id : RecordId), editInPlace id (InPlace.edit .generous edit) =
      editObject id fun o => (o.edit edit).map ((), ·) := by
  refine ⟨fun op h h' e hop he => ?_, fun a edit id h h' e he => ?_, fun edit id => ?_⟩
  · refine atomic_perform op hop e h' ?_
    unfold apply at he
    split at he
    · cases he
    · next e₁ h₁ hrun =>
      obtain ⟨hfailure, rfl⟩ := Prod.mk.inj he
      rw [hrun, Except.error.inj hfailure]
  · exact refused_editInPlace (fun o => InPlace.undone_edit a edit) he
  · exact editInPlace_eq (InPlace.run_edit_generous edit) id

end Atomic

/-- An object in a heap of 100 bytes can get no slot. Neither can it get one in place when it is
refused room for the names. -/
theorem refused_growth_leaves_no_trace :
    let h := run (fresh { HeapOptions.tuned .balanced with maxMemory := 100 }) [.createPlainObject]
    let h' := (apply (.setProperty 1 (-1) none) h).2
    (apply (.setProperty 1 (-1) none) h).1 = .error .outOfMemory ∧
      { h' with fault := h.fault } = h ∧
      ∃ h₁, (editInPlace 1 (InPlace.edit ⟨fun _ => true, fun _ => false⟩ (.grow 1))).run h =
        .error .outOfMemory h₁ ∧ ({ h₁ with fault := h.fault } = h ∨ ∃ o, h.object 1 = .ok o ∧
          { h₁ with fault := h.fault } =
            { h with arena := h.arena.setBody 1 (.object { o with shared := false }) }) := by
  have hrefused : (apply (.setProperty 1 (-1) none)
      (run (fresh { HeapOptions.tuned .balanced with maxMemory := 100 })
        [.createPlainObject])).1 = .error .outOfMemory := by cbv
  have hnames : Yields (editInPlace 1 (InPlace.edit ⟨fun _ => true, fun _ => false⟩ (.grow 1)))
      (run (fresh { HeapOptions.tuned .balanced with maxMemory := 100 }) [.createPlainObject])
      fun res _ => res = .error .outOfMemory := by cbv
  generalize run (fresh { HeapOptions.tuned .balanced with maxMemory := 100 })
    [.createPlainObject] = h at hrefused hnames
  obtain ⟨hops, hedits, -⟩ := refused_leaves_no_trace
  refine ⟨hrefused, hops _ h _ _ rfl (Prod.ext hrefused rfl), ?_⟩
  rcases hrun : editInPlace 1 (InPlace.edit ⟨fun _ => true, fun _ => false⟩ (.grow 1)) h with
    ⟨a, h₁⟩ | ⟨e, h₁⟩ <;> rw [Yields, hrun] at hnames
  · cases hnames
  · obtain rfl := Except.error.inj hnames
    exact ⟨h₁, hrun, hedits _ _ _ h h₁ _ hrun⟩

end Heap

end ScriptHeap
