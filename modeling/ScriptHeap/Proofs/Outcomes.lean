import ScriptHeap.Heap.Operation
import ScriptHeap.Proofs.Changes
import ScriptHeap.Proofs.Growth

/-!
What the operations of a heap can lead to. Each computation is followed to its end, whether it
succeeds or is refused: up to there it is a sequence of changes under the limit of the heap, and a
refusal itself changes nothing in the space. Where a reference is stored the barrier notes it before
the operation ends. A deep clone that is refused half way is the exception: its copies may hold
references that are never noted, and so it is not strict.
-/

namespace ScriptHeap.Heap

open Space

/-- Whatever the outcome of the computation, it satisfies the condition. -/
def Yields {α : Type} (m : HeapM α) (h : Heap) (Q : Except Failure α → Heap → Prop) : Prop :=
  match m h with
  | .ok a h' => Q (.ok a) h'
  | .error e h' => Q (.error e) h'

section Yields

variable {α β : Type} {h : Heap}

lemma Yields.mono {m : HeapM α} {Q R : Except Failure α → Heap → Prop} (hm : Yields m h Q)
    (hQR : ∀ res h', Q res h' → R res h') : Yields m h R := by
  unfold Yields at hm ⊢
  split <;> simp_all

lemma yields_bind {m : HeapM α} {f : α → HeapM β} {Q : Except Failure β → Heap → Prop} :
    Yields (m >>= f) h Q ↔ Yields m h fun res h' => match res with
      | .ok a => Yields (f a) h' Q
      | .error e => Q (.error e) h' := by
  unfold Yields
  simp only [bind, EStateM.bind]
  rcases m h with ⟨a, h'⟩ | ⟨e, h'⟩ <;> rfl

lemma yields_map {m : HeapM α} {f : α → β} {Q : Except Failure β → Heap → Prop} :
    Yields (f <$> m) h Q ↔ Yields m h fun res h' => Q (res.map f) h' := by
  unfold Yields
  simp only [Functor.map, EStateM.map]
  rcases m h with ⟨a, h'⟩ | ⟨e, h'⟩ <;> rfl

@[simp] lemma yields_get {Q : Except Failure Heap → Heap → Prop} :
    Yields get h Q ↔ Q (.ok h) h := Iff.rfl

@[simp] lemma yields_set {h' : Heap} {Q : Except Failure PUnit → Heap → Prop} :
    Yields (set h') h Q ↔ Q (.ok ⟨⟩) h' := Iff.rfl

@[simp] lemma yields_modify {f : Heap → Heap} {Q : Except Failure PUnit → Heap → Prop} :
    Yields (modify f) h Q ↔ Q (.ok ⟨⟩) (f h) := Iff.rfl

@[simp] lemma yields_modifySpace {f : Space → Space} {Q : Except Failure Unit → Heap → Prop} :
    Yields (modifySpace f) h Q ↔ Q (.ok ()) { h with toSpace := f h.toSpace } := Iff.rfl

end Yields

/-- If the computation succeeds, what it gives satisfies the condition. -/
def Gives {α : Type} (m : HeapM α) (h : Heap) (Q : α → Heap → Prop) : Prop :=
  ∀ a h', m h = .ok a h' → Q a h'

section Gives

variable {α β : Type} {h : Heap}

lemma Yields.gives {m : HeapM α} {Q : Except Failure α → Heap → Prop} (hm : Yields m h Q) :
    Gives m h fun a h' => Q (.ok a) h' := by
  intro a h' ha
  unfold Yields at hm
  rwa [ha] at hm

lemma Gives.mono {m : HeapM α} {Q R : α → Heap → Prop} (hm : Gives m h Q)
    (hQR : ∀ a h', Q a h' → R a h') : Gives m h R :=
  fun a h' ha => hQR a h' (hm a h' ha)

@[simp] lemma gives_pure {a : α} {Q : α → Heap → Prop} : Gives (pure a) h Q ↔ Q a h :=
  ⟨fun hQ => hQ a h rfl, fun hQ b h' hb => by cases hb; exact hQ⟩

lemma gives_bind {m : HeapM α} {f : α → HeapM β} {Q : β → Heap → Prop} :
    Gives (m >>= f) h Q ↔ Gives m h fun a h' => Gives (f a) h' Q := by
  unfold Gives
  simp only [bind, EStateM.bind]
  rcases m h with ⟨a, h'⟩ | ⟨e, h'⟩
  · exact ⟨fun hQ b h₁ hb => by cases hb; exact hQ, fun hQ => hQ a h' rfl⟩
  · exact ⟨fun _ b h₁ hb => (by cases hb), fun _ b h₁ hb => (by cases hb)⟩

@[simp] lemma gives_get {Q : Heap → Heap → Prop} : Gives get h Q ↔ Q h h :=
  ⟨fun hQ => hQ h h rfl, fun hQ b h' hb => by cases hb; exact hQ⟩

@[simp] lemma gives_modifySpace {f : Space → Space} {Q : Unit → Heap → Prop} :
    Gives (modifySpace f) h Q ↔ Q () { h with toSpace := f h.toSpace } :=
  ⟨fun hQ => hQ () _ rfl, fun hQ b h' hb => by cases hb; exact hQ⟩

end Gives

/-- A refusal satisfies the condition: it leaves the space and the options as they are. -/
def Refused {α : Type} (h : Heap) (Q : Except Failure α → Heap → Prop) : Prop :=
  ∀ e h', h'.toSpace = h.toSpace → h'.options = h.options → Q (.error e) h'

/-! ### Building blocks -/

lemma yields_allocateBody [Environment] {type : TypeId} {extra : Nat} {body : Body} {h : Heap}
    {Q : Except Failure RecordId → Heap → Prop}
    (hok : ∀ info, h.types.get? type = some info →
      h.toSpace.Admits h.options.maxMemory type (info.instanceSize + extra + body.storageBytes) →
      Q (.ok (h.toSpace.allocate info extra body).1.id)
        { h with toSpace := (h.toSpace.allocate info extra body).2 })
    (herr : Refused h Q) : Yields (allocateBody type extra body) h Q := by
  unfold allocateBody
  rw [yields_bind, yields_get]
  dsimp only
  split
  · exact herr _ _ rfl rfl
  · next info hinfo =>
    split
    · next hadmits =>
      refine hok info hinfo ?_
      unfold admits at hadmits
      rcases Bool.or_eq_true_iff.1 hadmits with hfree | hroom
      · exact .inl hfree
      · exact .inr (of_decide_eq_true (Bool.and_eq_true_iff.1 hroom).1)
    · exact herr _ _ rfl rfl

lemma object_eq_ok {h : Heap} {id : RecordId} {o : Object} (ho : h.object id = .ok o) :
    ∃ r, h.arena.live? id = some r ∧ r.body = .object o := by
  unfold object at ho
  split at ho
  · simp at ho
  · next r hr =>
    split at ho
    · next o' hb =>
      obtain rfl := Except.ok.inj ho
      exact ⟨r, hr, hb⟩
    · simp at ho

lemma object_of_live? {h : Heap} {id : RecordId} {r : Record} {o : Object}
    (hr : h.arena.live? id = some r) (hb : r.body = .object o) : h.object id = .ok o := by
  rw [object, hr]
  dsimp only
  rw [hb]

lemma yields_editObject {α : Type} {id : RecordId} {f : Object → Except Failure (α × Object)}
    {h : Heap} {Q : Except Failure α → Heap → Prop}
    (hok : ∀ r o a o', h.object id = .ok o → h.arena.live? id = some r → r.body = .object o →
      f o = .ok (a, o') → Q (.ok a) { h with
        toSpace := ({ h.toSpace with arena := h.arena.setBody id (.object o') } : Space).track
          ((o'.storageBytes : Int) - o.storageBytes) })
    (herr : Refused h Q) : Yields (editObject id f) h Q := by
  unfold editObject
  rw [yields_bind, yields_get]
  dsimp only
  split
  · exact herr _ _ rfl rfl
  · exact herr _ _ rfl rfl
  · next o ho =>
    obtain ⟨r, hr, hb⟩ := object_eq_ok ho
    split
    · exact herr _ _ rfl rfl
    · next a o' hf => exact hok r o a o' ho hr hb hf

lemma yields_reserve {id : RecordId} {count : Nat} {h : Heap}
    {Q : Except Failure Unit → Heap → Prop} (hok : h.canReserve id count = true → Q (.ok ()) h)
    (herr : Refused h Q) : Yields (reserve id count) h Q := by
  unfold reserve
  rw [yields_bind, yields_get]
  dsimp only
  split
  · exact herr _ _ rfl rfl
  · next hc => exact hok (by simpa using hc)

/-- What was reserved fits under the limit. -/
lemma le_limit_of_grows {h : Heap} {id : RecordId} {count : Nat} {o o' : Object}
    (hc : h.canReserve id count = true) (ho : h.object id = .ok o)
    (hg : o.Grows h.options.compilerMode count o') : o'.storageBytes ≤ o.storageBytes ∨
      h.usedMemory + (o'.storageBytes - o.storageBytes) ≤ h.options.maxMemory := by
  rcases hg with hsame | ⟨hshape, extra, hextra, hbytes⟩
  · exact .inl (Nat.le_of_eq hsame)
  · right
    unfold canReserve at hc
    rw [ho] at hc
    dsimp only at hc
    have hnot : (!o.dynamic && !h.options.compilerMode) = false := by
      rcases hshape with e | e <;> simp [e]
    rw [hnot, Bool.false_or, hextra, Option.bind_some, Option.any_eq_true] at hc
    obtain ⟨n, hn, hle⟩ := hc
    have hn := Capacity.eq_of_word? hn
    have hle : n ≤ h.options.maxMemory := of_decide_eq_true hle
    omega

lemma yields_requireLive {v : Slot} {h : Heap} {Q : Except Failure Unit → Heap → Prop}
    (hok : (∀ y, v = some y → ∃ q, h.arena.live? y = some q) → Q (.ok ()) h)
    (herr : Refused h Q) : Yields (requireLive v) h Q := by
  unfold requireLive
  split
  · next id =>
    rw [yields_bind, yields_get]
    dsimp only
    split
    · exact herr _ _ rfl rfl
    · next hlive =>
      refine hok fun y e => ?_
      obtain rfl := Option.some.inj e
      exact Arena.isLive_iff.1 (by simpa using hlive)
  · exact hok fun y e => by cases e

lemma references_initialBody (info : TypeInfo) : (initialBody info).references = [] := by
  unfold initialBody
  split
  · exact Object.references_empty _
  · rcases info.kind <;> rfl

lemma sound_initialBody (info : TypeInfo) (o : Object) (he : initialBody info = .object o) :
    o.Sound := by
  unfold initialBody at he
  split at he
  · exact Body.object.inj he ▸ Object.sound_empty _
  · next hk =>
    rcases hkind : info.kind
    · exact absurd hkind hk
    all_goals
      rw [hkind] at he
      cases he

lemma fits_initialBody (info : TypeInfo) : (initialBody info).fits info.kind = true := by
  unfold initialBody
  split
  · next hk =>
    rw [hk]
    rfl
  · rcases info.kind <;> rfl

/-! ### Properties -/

variable [Environment] {strict : Prop} {may : Command → Prop} {h h' : Heap}

/-- One heap has come from another one by changes under the limit. -/
structure Evolves (strict : Prop) (may : Command → Prop) (P Q : List (RecordId × RecordId))
    (h h' : Heap) : Prop where
  options : h'.options = h.options
  changes : Changes strict may h.options.maxMemory ⟨P, h.toSpace⟩ ⟨Q, h'.toSpace⟩

namespace Evolves

variable {P Q R : List (RecordId × RecordId)} {h'' : Heap}

lemma refl (h : Heap) : Evolves strict may P P h h := ⟨rfl, .refl _⟩

lemma of_eq (e : h'.toSpace = h.toSpace) (ho : h'.options = h.options) :
    Evolves strict may P P h h' := ⟨ho, .of_eq e⟩

lemma single {s : Space} (hc : Change strict may h.options.maxMemory ⟨P, h.toSpace⟩ ⟨Q, s⟩) :
    Evolves strict may P Q h { h with toSpace := s } := ⟨rfl, .single hc⟩

lemma mono {may' : Command → Prop} (he : Evolves strict may P Q h h')
    (hmay : ∀ c, may c → may' c) : Evolves strict may' P Q h h' :=
  ⟨he.options, he.changes.mono hmay⟩

lemma trans (h1 : Evolves strict may P Q h h') (h2 : Evolves strict may Q R h' h'') :
    Evolves strict may P R h h'' := by
  refine ⟨h2.options.trans h1.options, h1.changes.trans ?_⟩
  rw [← h1.options]
  exact h2.changes

end Evolves

/-- Whatever the outcome, the heap has come about by changes that leave nothing to note. -/
def Leads (strict : Prop) (may : Command → Prop) {α : Type} (m : HeapM α) (h : Heap) : Prop :=
  Yields m h fun _ h' => Evolves strict may [] [] h h'

lemma Leads.bind {α β : Type} {m : HeapM α} {f : α → HeapM β} (hm : Leads strict may m h)
    (hf : ∀ a h', Leads strict may (f a) h') : Leads strict may (m >>= f) h := by
  unfold Leads
  rw [yields_bind]
  refine Yields.mono hm fun res h' hc => ?_
  rcases res with e | a
  · exact hc
  · exact (hf a h').mono fun _ _ hc' => hc.trans hc'

lemma leads_pure {α : Type} (a : α) : Leads strict may (pure a) h := Evolves.refl _

lemma leads_throw {α : Type} (e : Failure) : Leads strict may (throw e : HeapM α) h :=
  Evolves.refl _

lemma leads_refuse {α : Type} (f : Fault) : Leads strict may (refuse f : HeapM α) h :=
  Evolves.of_eq rfl rfl

lemma leads_get {α : Type} {f : Heap → HeapM α} (hf : Leads strict may (f h) h) :
    Leads strict may (get >>= f) h := hf

/-- An edit that needs no room. -/
lemma leads_editObject {α : Type} {id : RecordId} {f : Object → Except Failure (α × Object)}
    (hf : ∀ o a o', f o = .ok (a, o') →
      o.Becomes o' none ∧ (o.Sound → o'.storageBytes = o.storageBytes)) :
    Leads strict may (editObject id f) h := by
  refine yields_editObject (fun r o a o' _ hr hb he => .single ?_) fun _ _ => .of_eq
  obtain ⟨hbecomes, hstorage⟩ := hf o a o' he
  exact .write hr hb hbecomes (fun ho => .inl (Nat.le_of_eq (hstorage ho))) (by simp) (by simp)
    (by simp)

/-- An edit that needs room for `count` slots at most, which is reserved before. -/
lemma leads_reserveEdit {α : Type} {id : RecordId} {count : Nat}
    {f : Object → Except Failure (α × Object)}
    (hf : ∀ o a o', h.object id = .ok o → f o = .ok (a, o') →
      o.Becomes o' none ∧ (o.Sound → o.Grows h.options.compilerMode count o')) :
    Leads strict may (do reserve id count; editObject id f) h := by
  unfold Leads
  rw [yields_bind]
  refine yields_reserve (fun hc => ?_) fun _ _ => .of_eq
  refine yields_editObject (fun r o a o' ho hr hb he => .single ?_) fun _ _ => .of_eq
  obtain ⟨hbecomes, hgrows⟩ := hf o a o' ho he
  exact .write hr hb hbecomes (fun hsound => le_limit_of_grows hc ho (hgrows hsound)) (by simp)
    (by simp) (by simp)

omit [Environment] in
lemma storeCount_eq {id : RecordId} {o : Object} (ho : h.object id = .ok o) (slot : Int) :
    h.storeCount id slot = o.needed slot := by
  simp only [storeCount, ho, Object.needed]

/-- The value is live when it is stored, and the barrier notes it. -/
theorem leads_setProperty (id : RecordId) (slot : Int) (v : Slot) :
    Leads strict may (setProperty id slot v) h := by
  unfold Leads setProperty
  rw [yields_bind]
  refine yields_requireLive (fun hv => ?_) fun _ _ => .of_eq
  dsimp only
  rw [yields_bind, yields_get]
  dsimp only
  rw [yields_bind]
  refine yields_reserve (fun hc => ?_) fun _ _ => .of_eq
  dsimp only
  rw [yields_bind]
  refine yields_editObject (fun r o a o' ho hr hb he => ?_) fun _ _ => .of_eq
  have hw := Object.becomes_setValue he
  have hgrows : o.Sound → o'.storageBytes ≤ o.storageBytes ∨
      h.usedMemory + (o'.storageBytes - o.storageBytes) ≤ h.options.maxMemory := fun _ =>
    le_limit_of_grows hc ho (storeCount_eq ho slot ▸ Object.grows_setValue he)
  rcases v with _ | y
  · exact .single (.write hr hb hw hgrows (by simp) (by simp) (by simp))
  · let s1 : Space := ({ h.toSpace with
      arena := h.arena.setBody id (.object o') } : Space).track
        ((o'.storageBytes : Int) - o.storageBytes)
    have hwrite : Evolves strict may [] [(id, y)] h { h with toSpace := s1 } :=
      .single (.write hr hb hw hgrows hv (by simp) (by simp))
    have hnote : Evolves strict may [(id, y)] [] { h with toSpace := s1 }
        { h with toSpace := s1.recordReference id (some y) } := .single (.note (by simp))
    exact hwrite.trans hnote

lemma leads_setPropertyName (id : RecordId) (slot : Int) (q : QName) :
    Leads strict may (setPropertyName id slot q) h := by
  unfold setPropertyName
  refine leads_get (leads_reserveEdit fun o a o' ho he => ?_)
  exact ⟨Object.becomes_setName he, fun _ => storeCount_eq ho slot ▸ Object.grows_setName he⟩

lemma leads_appendNamed (id : RecordId) (q : QName) : Leads strict may (appendNamed id q) h := by
  have happend : Leads strict may (do
      reserve id (h.storeCount id (-1))
      editObject id (·.checkSlot (-1) h.options.compilerMode)) h :=
    leads_reserveEdit fun o a o' ho he =>
      ⟨(Object.becomes_checkSlot he).1, fun _ => storeCount_eq ho (-1) ▸ Object.grows_checkSlot he⟩
  have hname (slot : Nat) (h' : Heap) : Leads strict may (do
      let _ ← setPropertyName id (slotArgument slot) q
      return slot) h' := (leads_setPropertyName id _ q).bind fun _ _ => leads_pure slot
  have hboth := happend.bind hname
  rw [bind_assoc] at hboth
  unfold appendNamed
  exact leads_get hboth

theorem leads_setPropertyByName (id : RecordId) (q : QName) (v : Slot) :
    Leads strict may (setPropertyByName id q v) h := by
  unfold setPropertyByName
  refine leads_get ?_
  split
  · exact leads_throw _
  · split
    · exact leads_setProperty id _ v
    · exact (leads_appendNamed id q).bind fun _ _ => leads_setProperty id _ v

lemma leads_deleteProperty (id : RecordId) (slot : Nat) :
    Leads strict may (deleteProperty id slot) h := by
  unfold deleteProperty
  refine leads_get (leads_editObject fun o a o' he => ?_)
  obtain ⟨p, hp, e⟩ := eq_ok_of_map he
  cases e
  exact ⟨Object.becomes_delete hp, fun _ => Object.storageBytes_delete hp⟩

lemma leads_deletePropertyByName (id : RecordId) (q : QName) :
    Leads strict may (deletePropertyByName id q) h := by
  unfold deletePropertyByName
  refine leads_get ?_
  split
  · exact leads_throw _
  · split
    · exact leads_refuse _
    · exact leads_deleteProperty id _

lemma leads_growObject (id : RecordId) (count : Nat) :
    Leads strict may (growObject id count) h := by
  unfold growObject
  refine leads_get (leads_reserveEdit fun o a o' ho he => ?_)
  split at he
  · cases he
  · next hshape =>
    obtain ⟨p, hp, e⟩ := eq_ok_of_map he
    cases e
    refine ⟨Object.becomes_grow hp, fun hsound => ?_⟩
    by_cases hcount : count ≤ o.count
    · exact .inl (Object.storageBytes_grow_of_le hp hsound hcount)
    · refine .inr ⟨?_, Object.storageBytes_grow hp⟩
      have hlt : o.count < count := Nat.not_le.1 hcount
      simpa [hlt, or_iff_not_imp_left] using hshape

lemma leads_insertSlots (id : RecordId) (n offset : Nat) :
    Leads strict may (insertSlots id n offset) h := by
  unfold insertSlots
  refine leads_get (leads_reserveEdit fun o a o' ho he => ?_)
  split at he
  · cases he
  · next hshape =>
    obtain ⟨p, hp, e⟩ := eq_ok_of_map he
    cases e
    refine ⟨Object.becomes_insert hp, fun _ => ?_⟩
    rw [ho]
    exact Object.grows_insert (by simpa [or_iff_not_imp_left] using hshape) hp

lemma leads_removeSlot (id : RecordId) (slot : Nat) (compact : Bool) :
    Leads strict may (removeSlot id slot compact) h := by
  unfold removeSlot
  refine leads_get (leads_editObject fun o a o' he => ?_)
  obtain ⟨p, hp, e⟩ := eq_ok_of_map he
  cases e
  exact ⟨Object.becomes_remove hp, fun ho => Object.storageBytes_remove ho hp⟩

/-! ### Allocation -/

/-- A new record without references needs no barrier. -/
lemma leads_allocateBody (type : TypeId) (extra : Nat) {body : Body}
    (hfits : ∀ info, h.types.get? type = some info → h.toSpace.Typed →
      body.fits info.kind = true)
    (ho : ∀ o, body = .object o → o.Sound) (hrefs : body.references = []) :
    Leads strict may (allocateBody type extra body) h := by
  refine yields_allocateBody (fun info hinfo hadmits => .single ?_) fun _ _ => .of_eq
  exact .allocate extra body hinfo (hfits info hinfo) hadmits ho (by simp [hrefs]) (by simp)
    (by simp [hrefs])

omit [Environment] in
/-- A record of a built-in type. -/
lemma fits_builtin {type : TypeId} {d : TypeDef} (hd : TypeRegistry.builtinDefs[type]? = some d)
    {body : Body} (hb : body.fits d.kind = true) (info : TypeInfo)
    (hinfo : h.types.get? type = some info) (ht : h.toSpace.Typed) :
    body.fits info.kind = true := by
  obtain ⟨info', hinfo', rfl⟩ := ht.builtin type d hd
  obtain rfl := Option.some.inj (hinfo'.symm.trans hinfo)
  exact hb

lemma leads_allocateRecord (type : TypeId) (extra : Nat) :
    Leads strict may (allocateRecord type extra) h := by
  unfold allocateRecord
  refine leads_get ?_
  split
  · exact leads_refuse _
  · next info hinfo =>
    refine leads_allocateBody type extra (fun info' hinfo' _ => ?_) (sound_initialBody info)
      (references_initialBody info)
    obtain rfl := Option.some.inj (hinfo.symm.trans hinfo')
    exact fits_initialBody info

lemma leads_createObject (type : TypeId) (extra : Nat) :
    Leads strict may (createObject type extra) h := by
  unfold createObject
  refine leads_get ?_
  split
  · exact leads_refuse _
  · next info hinfo =>
    obtain ⟨hinfo, hkind⟩ := Option.filter_eq_some_iff.1 hinfo
    refine leads_allocateBody type 0 (fun info' hinfo' _ => ?_) (fun o e => ?_)
      (Object.references_ofTemplate _ _ _ _)
    · obtain rfl := Option.some.inj (hinfo.symm.trans hinfo')
      rw [of_decide_eq_true hkind]
      rfl
    · exact Body.object.inj e ▸ Object.sound_ofTemplate _ _ _ _

/-! ### Native records -/

/-- What a new payload refers to is noted. -/
theorem leads_createNative (type : TypeId) (payload : Payload)
    (hrefs : strict → ∀ y ∈ payload.references, h.Held y) :
    Leads strict may (createNative type payload) h := by
  unfold createNative
  refine leads_get ?_
  split
  · exact leads_refuse _
  · next info hinfo =>
    obtain ⟨hinfo, hkind⟩ := Option.filter_eq_some_iff.1 hinfo
    unfold Leads
    rw [yields_bind]
    refine yields_allocateBody (fun info' hinfo' hadmits => ?_) fun _ _ => .of_eq
    obtain rfl := Option.some.inj (hinfo.symm.trans hinfo')
    dsimp only
    set id := (h.toSpace.allocate info 0 (.native payload)).1.id
    have hfits : (Body.native payload).fits info.kind = true := by
      rw [of_decide_eq_true hkind]
      rfl
    have hborn : Evolves strict may [] (payload.references.map (id, ·)) h
        { h with toSpace := (h.toSpace.allocate info 0 (.native payload)).2 } :=
      .single (.allocate 0 (.native payload) hinfo (fun _ => hfits) hadmits
        (fun o e => by cases e) hrefs (by simp) fun y hy => List.mem_map.2 ⟨y, hy, rfl⟩)
    have hnoted : Evolves strict may (payload.references.map (id, ·)) []
        { h with toSpace := (h.toSpace.allocate info 0 (.native payload)).2 }
        { h with toSpace :=
          (h.toSpace.allocate info 0 (.native payload)).2.recordReferences id } :=
      .single (.noteAll (by simp))
    exact hborn.trans hnoted

/-- A payload takes the place of another one, or of none. -/
lemma evolves_install {id : RecordId} {r : Record} {payload : Payload}
    (hr : h.arena.live? id = some r) (hkind : r.body.kind? = some .native)
    (hrefs : strict → ∀ y ∈ payload.references, h.Held y) :
    Evolves strict may [] [] h { h with toSpace := ({ h.toSpace with
      arena := h.arena.setBody id (.native payload) } : Space).recordReferences id } := by
  have hinstall : Evolves strict may [] (payload.references.map (id, ·)) h
      { h with arena := h.arena.setBody id (.native payload) } :=
    .single (.install hr hkind hrefs (by simp) fun y hy => List.mem_map.2 ⟨y, hy, rfl⟩)
  exact hinstall.trans (.single (.noteAll (by simp)))

lemma leads_setNative (id : RecordId) (payload : Payload)
    (hrefs : strict → ∀ y ∈ payload.references, h.Held y) :
    Leads strict may (setNative id payload) h := by
  unfold setNative
  refine leads_get ?_
  dsimp only
  split
  · next hn =>
    obtain ⟨r, hr, hbody⟩ := (Option.any_eq_true _ _).1 hn
    refine evolves_install hr ?_ hrefs
    rcases hb : r.body <;> simp_all [Body.kind?]
  · exact leads_refuse _

lemma leads_editNative (id : RecordId) (edit : Payload → Option Payload)
    (hrefs : strict → ∀ r p p', h.arena.live? id = some r → r.body = .native p →
      edit p = some p' → ∀ y ∈ p'.references, h.Held y) :
    Leads strict may (editNative id edit) h := by
  unfold editNative
  refine leads_get ?_
  split
  · exact leads_pure _
  · next payload he =>
    obtain ⟨p, hp, hedit⟩ := Option.bind_eq_some_iff.1 he
    obtain ⟨r, hr, hbody⟩ := Option.bind_eq_some_iff.1 hp
    have hb : r.body = .native p := by
      rcases hb : r.body <;> simp_all [Body.payload?]
    exact evolves_install hr (hb ▸ rfl) fun hstrict => hrefs hstrict r p payload hr hb hedit

/-! ### Collections and permanence -/

lemma evolves_relieve (h : Heap) : Evolves strict may [] [] h h.relieve := by
  unfold relieve
  split
  · exact ⟨rfl, ((Changes.single .prune).trans (.single .countRedline)).trans (.single (.emit _))⟩
  · exact .refl _

lemma evolves_degrade (h : Heap) : Evolves strict may [] [] h h.degrade := by
  unfold degrade
  split
  · exact .refl _
  · exact ⟨rfl, .single (.emit _)⟩

lemma evolves_recover (h : Heap) : Evolves strict may [] [] h h.recover := by
  unfold recover
  split
  · exact ⟨rfl, .single (.emit _)⟩
  · exact .refl _

lemma leads_checkMemory : Leads strict may checkMemory h := by
  unfold checkMemory Leads
  rw [yields_bind, yields_modify]
  dsimp only
  rw [yields_bind, yields_get]
  dsimp only
  split
  · rw [yields_bind, yields_modify]
    exact ((evolves_relieve h).trans (evolves_degrade _)).trans (.of_eq rfl rfl)
  · exact (evolves_relieve h).trans (evolves_recover _)

lemma leads_collect (mode : Mode) (hmay : may .collect)
    (hcalm : strict → h.toSpace.Calm mode h.roots) : Leads strict may (collect mode) h := by
  unfold collect
  refine leads_get ?_
  unfold Leads
  rw [yields_bind, yields_set]
  dsimp only
  rw [yields_bind]
  have hcheck (h : Heap) : Leads strict may checkMemory h := leads_checkMemory
  refine Yields.mono (hcheck _) fun res h' hc => ?_
  have hcollect : Evolves strict may [] [] h
      { h with toSpace := (h.toSpace.collect mode h.roots).2 } :=
    .single (.collect mode h.roots hmay fun hs => ⟨rfl, hcalm hs⟩)
  have hc' := hcollect.trans hc
  rcases res with e | a <;> exact hc'

lemma leads_collectIfRequired
    (hmay : (h.collector.required && h.options.demandCollect) = true → may .collect)
    (hcalm : strict → (h.collector.required && h.options.demandCollect) = true →
      h.toSpace.Calm .smart h.roots) :
    Leads strict may collectIfRequired h := by
  unfold collectIfRequired
  refine leads_get ?_
  split
  · next hdue =>
    exact (leads_collect .smart (hmay hdue) fun hs => hcalm hs hdue).bind fun _ _ => leads_pure _
  · exact leads_pure _

lemma leads_makePermanent (id : RecordId) : Leads strict may (makePermanent id) h := by
  unfold makePermanent
  refine leads_get ?_
  split
  · exact Evolves.single (.pin id)
  · exact leads_refuse _

lemma leads_makeTransient (id : RecordId) : Leads strict may (makeTransient id) h := by
  unfold makeTransient
  refine leads_get ?_
  split
  · exact leads_refuse _
  · split
    · exact Evolves.single (.unpin id)
    · exact leads_pure _

end ScriptHeap.Heap
