import Mathlib.Data.List.Perm.Subperm
import Mathlib.Tactic.Common
import ScriptHeap.Object.NameTable

/-!
The hash index of a name table. Every bucket has a chain, and the chain holds each of its slots
once: the named ones whose local name belongs to the bucket. An update that starts from such an
index ends in one, so no walk goes on for ever.
-/

namespace ScriptHeap.NameTable

/-! ### Chains as lists of slots -/

/-- The links lead from `cursor` through `slots` to an end. -/
def Path (t : NameTable) : Option UInt32 → List Nat → Prop
  | cursor, [] => cursor = none
  | cursor, slot :: slots =>
    cursor = linkTo slot ∧ slot < UInt32.size ∧ t.Path (t.next? slot) slots

lemma linkTo_inj {a b : Nat} (ha : a < UInt32.size) (hb : b < UInt32.size)
    (h : linkTo a = linkTo b) : a = b := by
  have h : (UInt32.ofNat a).toNat = (UInt32.ofNat b).toNat := congrArg _ (Option.some.inj h)
  rwa [UInt32.toNat_ofNat_of_lt' ha, UInt32.toNat_ofNat_of_lt' hb] at h

lemma lt_size_of_nameAt? {t : NameTable} {slot : Nat} {q : QName} (h : t.nameAt? slot = some q) :
    slot < t.size := by
  by_contra hc
  simp [nameAt?, Array.getElem?_eq_none (Nat.le_of_not_lt hc)] at h

@[simp] lemma nameAt?_setNext (t : NameTable) (slot : Nat) (next : Option UInt32) (s : Nat) :
    (t.setNext slot next).nameAt? s = t.nameAt? s := by
  simp only [nameAt?, setNext, Array.getElem?_modify]
  split <;> simp [Function.comp_def]

lemma next?_setNext_ne (t : NameTable) {slot : Nat} (next : Option UInt32) {s : Nat}
    (h : s ≠ slot) : (t.setNext slot next).next? s = t.next? s := by
  simp [next?, setNext, Array.getElem?_modify, Ne.symm h]

lemma next?_setNext_self {t : NameTable} {slot : Nat} (next : Option UInt32)
    (h : slot < t.size) : (t.setNext slot next).next? slot = next := by
  simp [next?, setNext, Array.getElem?_modify,
      Array.getElem?_eq_getElem (show slot < t.slots.size from h)]

lemma Path.congr {t t' : NameTable} {slots : List Nat} {cursor : Option UInt32}
    (h : t.Path cursor slots) (hn : ∀ s ∈ slots, t'.next? s = t.next? s) :
    t'.Path cursor slots := by
  induction slots generalizing cursor with
  | nil => exact h
  | cons slot slots ih =>
    obtain ⟨hc, hlt, hp⟩ := h
    refine ⟨hc, hlt, ?_⟩
    rw [hn slot (by simp)]
    exact ih hp fun s hs => hn s (by simp [hs])

lemma Path.lt {t : NameTable} {slots : List Nat} {cursor : Option UInt32}
    (h : t.Path cursor slots) : ∀ s ∈ slots, s < UInt32.size := by
  induction slots generalizing cursor with
  | nil => simp
  | cons slot slots ih =>
    obtain ⟨-, hlt, hp⟩ := h
    simpa using ⟨hlt, ih hp⟩

lemma Path.walk? {t : NameTable} {slots : List Nat} {cursor : Option UInt32} {steps : Nat}
    (h : t.Path cursor slots) (hl : slots.length ≤ steps) : t.walk? steps cursor = some slots := by
  induction slots generalizing cursor steps with
  | nil =>
    obtain rfl : cursor = none := h
    cases steps <;> rfl
  | cons slot slots ih =>
    obtain ⟨rfl, hlt, hp⟩ := h
    obtain ⟨k, rfl⟩ : ∃ k, steps = k + 1 := ⟨steps - 1, by simp at hl; omega⟩
    have hto : (UInt32.ofNat slot).toNat = slot := UInt32.toNat_ofNat_of_lt' hlt
    simp only [linkTo, NameTable.walk?, hto]
    rw [ih hp (by simpa using hl)]
    rfl

/-- The last slot of a chain can point to one more. -/
lemma Path.append {t : NameTable} {slots : List Nat} {cursor : Option UInt32} {tail slot : Nat}
    (h : t.Path cursor slots) (hl : slots.getLast? = some tail) (hd : slots.Nodup)
    (ht : tail < t.size) (hlt : slot < UInt32.size) (hn : t.next? slot = none)
    (hs : slot ∉ slots) :
    (t.setNext tail (linkTo slot)).Path cursor (slots ++ [slot]) := by
  induction slots generalizing cursor with
  | nil => simp at hl
  | cons a slots ih =>
    obtain ⟨hc, halt, hp⟩ := h
    obtain ⟨ha, hd⟩ := List.nodup_cons.1 hd
    refine ⟨hc, halt, ?_⟩
    cases slots with
    | nil =>
      obtain rfl : a = tail := by simpa using hl
      have hne : slot ≠ a := by simpa using hs
      refine ⟨next?_setNext_self _ ht, hlt, ?_⟩
      rw [next?_setNext_ne _ _ hne]
      exact hn
    | cons b slots =>
      have hl : (b :: slots).getLast? = some tail := by simpa using hl
      have hne : a ≠ tail := fun e => ha (e ▸ List.mem_of_getLast? hl)
      rw [next?_setNext_ne _ _ hne]
      exact ih hp hl hd fun hb => hs (List.mem_cons_of_mem a hb)

/-- A chain closes over a slot that is not its first one. -/
lemma Path.splice {t : NameTable} {slots : List Nat} {cursor : Option UInt32} {slot : Nat}
    (h : t.Path cursor slots) (hd : slots.Nodup) (hs : slot ∈ slots) (hne : cursor ≠ linkTo slot)
    (hlt : ∀ s ∈ slots, s < t.size) :
    ∃ prev, (slots.find? fun prev => t.next? prev = linkTo slot) = some prev ∧
      (t.setNext prev (t.next? slot)).Path cursor (slots.erase slot) := by
  induction slots generalizing cursor with
  | nil => simp at hs
  | cons a slots ih =>
    obtain ⟨hc, halt, hp⟩ := h
    obtain ⟨ha, hd⟩ := List.nodup_cons.1 hd
    have hne : a ≠ slot := by
      rintro rfl
      exact hne hc
    have hs : slot ∈ slots := (List.mem_cons.1 hs).resolve_left (Ne.symm hne)
    rw [List.erase_cons_tail (by simpa using hne)]
    by_cases hnext : t.next? a = linkTo slot
    · refine ⟨a, by simp [hnext], hc, halt, ?_⟩
      rw [next?_setNext_self _ (hlt a (by simp))]
      cases slots with
      | nil => simp at hs
      | cons b slots =>
        -- the slot behind `a` is the one that goes
        obtain ⟨hb, hblt, hq⟩ := hp
        obtain rfl : slot = b := by
          have hslot : slot < UInt32.size := by
            rcases List.mem_cons.1 hs with rfl | hs
            · exact hblt
            · exact hq.lt _ hs
          exact linkTo_inj hslot hblt (hnext.symm.trans hb)
        rw [List.erase_cons_head]
        refine hq.congr fun s hs => next?_setNext_ne _ _ ?_
        rintro rfl
        exact ha (List.mem_cons_of_mem _ ‹_›)
    · obtain ⟨prev, hfind, hpath⟩ := ih hp hd hs hnext fun s hs => hlt s (by simp [hs])
      have hprev : a ≠ prev := by
        rintro rfl
        exact hnext (by simpa using List.find?_some hfind)
      refine ⟨prev, by simpa [hnext] using hfind, hc, halt, ?_⟩
      rwa [next?_setNext_ne _ _ hprev]

/-- A chain without its first slot. -/
lemma Path.tail {t : NameTable} {slots : List Nat} {slot : Nat}
    (h : t.Path (linkTo slot) slots) (hlt : slot < UInt32.size) :
    t.Path (t.next? slot) (slots.erase slot) := by
  cases slots with
  | nil => simp [Path, linkTo] at h
  | cons a slots =>
    obtain ⟨hc, halt, hp⟩ := h
    obtain rfl := linkTo_inj hlt halt hc
    rwa [List.erase_cons_head]

lemma length_le_of_nodup {slots : List Nat} {n : Nat} (hd : slots.Nodup)
    (h : ∀ s ∈ slots, s < n) : slots.length ≤ n := by
  have hsub : slots ⊆ List.range n := fun s hs => List.mem_range.2 (h s hs)
  simpa using (hd.subperm hsub).length_le

/-! ### Updates of one link -/

/-- The names, their number and the number of buckets are the same, and no walk went wrong. -/
structure SameNames (t t' : NameTable) : Prop where
  name : ∀ s, t'.nameAt? s = t.nameAt? s
  buckets : t'.buckets.size = t.buckets.size
  endless : t'.endless = t.endless

lemma SameNames.refl (t : NameTable) : t.SameNames t := ⟨fun _ => rfl, rfl, rfl⟩

lemma SameNames.trans {a b c : NameTable} (h : a.SameNames b) (k : b.SameNames c) :
    a.SameNames c :=
  ⟨fun s => (k.name s).trans (h.name s), k.buckets.trans h.buckets, k.endless.trans h.endless⟩

lemma SameNames.isIndexed {t t' : NameTable} (h : t.SameNames t') : t'.isIndexed = t.isIndexed := by
  have h := h.buckets
  simp only [NameTable.isIndexed, Array.isEmpty, h]

lemma sameNames_setNext (t : NameTable) (slot : Nat) (next : Option UInt32) :
    t.SameNames (t.setNext slot next) :=
  ⟨fun s => nameAt?_setNext t slot next s, rfl, rfl⟩

lemma sameNames_setHead (t : NameTable) (b : Nat) (head : Option UInt32) :
    t.SameNames (t.setHead b head) :=
  ⟨fun _ => rfl, by simp [setHead], rfl⟩

lemma buckets_setHead_ne (t : NameTable) {b c : Nat} (head : Option UInt32) (h : c ≠ b) :
    (t.setHead b head).buckets[c]? = t.buckets[c]? := by
  simp [setHead, Ne.symm h]

lemma buckets_setHead_self {t : NameTable} {b : Nat} {head head' : Option UInt32}
    (h : (t.setHead b head).buckets[b]? = some head') : head' = head := by
  simp only [setHead, Array.getElem?_setIfInBounds, if_true] at h
  split at h
  · exact (Option.some.inj h).symm
  · simp at h

/-! ### The index -/

variable [NameHash] {t t' : NameTable} {linked linked' : Nat → Prop}

/-- The slot is named, and its local name belongs to the bucket. -/
def Belongs (t : NameTable) (slot bucket : Nat) : Prop :=
  ∃ q, t.nameAt? slot = some q ∧ q.isUnnamed = false ∧ t.bucketOf q.name = bucket

/-- The chain of every bucket holds the linked slots that belong to it. -/
def Indexes (t : NameTable) (linked : Nat → Prop) : Prop :=
  ∀ b head, t.buckets[b]? = some head → ∃ slots, t.Path head slots ∧ slots.Nodup ∧
    ∀ s, s ∈ slots ↔ linked s ∧ t.Belongs s b

lemma Belongs.lt {s b : Nat} (h : t.Belongs s b) : s < t.size := by
  obtain ⟨q, hq, -⟩ := h
  exact lt_size_of_nameAt? hq

lemma Belongs.unique {s b c : Nat} (h : t.Belongs s b) (k : t.Belongs s c) : b = c := by
  obtain ⟨q, hq, -, rfl⟩ := h
  obtain ⟨r, hr, -, rfl⟩ := k
  rw [hq] at hr
  rw [Option.some.inj hr]

lemma not_belongs {s : Nat} (h : ∀ q, t.nameAt? s = some q → q.isUnnamed = true) (b : Nat) :
    ¬t.Belongs s b := by
  rintro ⟨q, hq, hu, -⟩
  simp [h q hq] at hu

lemma bucketOf_congr (h : t'.buckets.size = t.buckets.size) (name : String) :
    t'.bucketOf name = t.bucketOf name := by
  simp [bucketOf, h]

/-- Only the names and the number of buckets decide where a slot belongs. -/
lemma belongs_congr (hb : t'.buckets.size = t.buckets.size) {s : Nat}
    (hn : t'.nameAt? s = t.nameAt? s) (b : Nat) : t'.Belongs s b ↔ t.Belongs s b := by
  simp only [Belongs, hn, bucketOf_congr hb]

lemma head?_eq {name : String} (hi : t.isIndexed = true) :
    t.bucketOf name < t.buckets.size ∧ t.buckets[t.bucketOf name]? = some (t.head? name) := by
  have hpos : 0 < t.buckets.size := by
    simpa [isIndexed, Array.size_pos_iff] using hi
  have hlt : t.bucketOf name < t.buckets.size := Nat.mod_lt _ hpos
  refine ⟨hlt, ?_⟩
  simp [head?, Array.getElem?_eq_getElem hlt]

lemma Indexes.chain (h : t.Indexes linked) {b : Nat} {head : Option UInt32}
    (hb : t.buckets[b]? = some head) :
    ∃ slots, t.walk? t.size head = some slots ∧ t.Path head slots ∧ slots.Nodup ∧
      ∀ s, s ∈ slots ↔ linked s ∧ t.Belongs s b := by
  obtain ⟨slots, hp, hd, hm⟩ := h b head hb
  have hl : slots.length ≤ t.size := length_le_of_nodup hd fun s hs => ((hm s).1 hs).2.lt
  exact ⟨slots, hp.walk? hl, hp, hd, hm⟩

/-- The chain of a local name ends, so a walk reads it off. -/
lemma Indexes.chain? (h : t.Indexes linked) (hi : t.isIndexed = true) (name : String) :
    ∃ slots, t.chain? name = some slots ∧ t.Path (t.head? name) slots ∧ slots.Nodup ∧
      ∀ s, s ∈ slots ↔ linked s ∧ t.Belongs s (t.bucketOf name) :=
  h.chain (head?_eq hi).2

/-- An index is one whatever becomes of the slots that it does not link. -/
lemma Indexes.congr (h : t.Indexes linked) (hb : t'.buckets = t.buckets)
    (hl : ∀ s b, linked' s ∧ t'.Belongs s b ↔ linked s ∧ t.Belongs s b)
    (hn : ∀ s b, linked s → t.Belongs s b → t'.next? s = t.next? s) : t'.Indexes linked' := by
  intro b head hhead
  obtain ⟨slots, hp, hd, hm⟩ := h b head (hb ▸ hhead)
  refine ⟨slots, hp.congr fun s hs => ?_, hd, fun s => (hm s).trans (hl s b).symm⟩
  obtain ⟨hls, hbs⟩ := (hm s).1 hs
  exact hn s b hls hbs

/-- A slot that no bucket has may count as linked or not. -/
lemma Indexes.of_iff (h : t.Indexes linked)
    (hl : ∀ s b, t.Belongs s b → (linked' s ↔ linked s)) : t.Indexes linked' :=
  h.congr rfl (fun s b => and_congr_left (hl s b)) fun _ _ _ _ => rfl

/-- An update of one chain. -/
lemma Indexes.update (h : t.Indexes linked) {b : Nat} (hname : ∀ s, t'.nameAt? s = t.nameAt? s)
    (hsize : t'.buckets.size = t.buckets.size)
    (hbuckets : ∀ c, c ≠ b → t'.buckets[c]? = t.buckets[c]?)
    (hnext : ∀ s c, c ≠ b → linked s → t.Belongs s c → t'.next? s = t.next? s)
    (hlinked : ∀ s c, c ≠ b → t.Belongs s c → (linked' s ↔ linked s))
    (hb : ∀ head, t'.buckets[b]? = some head → ∃ slots, t'.Path head slots ∧ slots.Nodup ∧
      ∀ s, s ∈ slots ↔ linked' s ∧ t.Belongs s b) : t'.Indexes linked' := by
  have hbelongs (s c : Nat) : t'.Belongs s c ↔ t.Belongs s c := belongs_congr hsize (hname s) c
  intro c head hc
  by_cases hcb : c = b
  · subst hcb
    obtain ⟨slots, hp, hd, hm⟩ := hb head hc
    exact ⟨slots, hp, hd, fun s => by rw [hm s, hbelongs]⟩
  · obtain ⟨slots, hp, hd, hm⟩ := h c head (hbuckets c hcb ▸ hc)
    refine ⟨slots, hp.congr fun s hs => ?_, hd, fun s => ?_⟩
    · obtain ⟨hls, hbs⟩ := (hm s).1 hs
      exact hnext s c hcb hls hbs
    · rw [hm s, hbelongs]
      exact and_congr_left fun hbs => (hlinked s c hcb hbs).symm

/-! ### Linking and unlinking -/

/-- A slot that is not linked yet comes last on the chain of its bucket. -/
lemma Indexes.extend (h : t.Indexes linked) {slot b : Nat} {slots : List Nat}
    (hs : ¬linked slot) (hb : t.Belongs slot b) (hd : slots.Nodup)
    (hm : ∀ s, s ∈ slots ↔ linked s ∧ t.Belongs s b) (hsame : t.SameNames t')
    (hbuckets : ∀ c, c ≠ b → t'.buckets[c]? = t.buckets[c]?)
    (hnext : ∀ s c, c ≠ b → t.Belongs s c → t'.next? s = t.next? s)
    (hpath : ∀ head, t'.buckets[b]? = some head → t'.Path head (slots ++ [slot])) :
    t'.Indexes fun s => linked s ∨ s = slot := by
  have hnodup : (slots ++ [slot]).Nodup := by
    refine List.nodup_append.2 ⟨hd, by simp, ?_⟩
    rintro a ha _ hslot rfl
    obtain rfl := List.mem_singleton.1 hslot
    exact hs ((hm a).1 ha).1
  have hnew (s : Nat) : s ∈ slots ++ [slot] ↔ (linked s ∨ s = slot) ∧ t.Belongs s b := by
    simp only [List.mem_append, List.mem_singleton, hm s, or_and_right]
    exact or_congr_right ⟨fun e => ⟨e, e ▸ hb⟩, And.left⟩
  have hothers (s c : Nat) (hc : c ≠ b) (hsc : t.Belongs s c) : linked s ∨ s = slot ↔ linked s := by
    refine or_iff_left ?_
    rintro rfl
    exact hc (hsc.unique hb)
  exact h.update (b := b) hsame.name hsame.buckets hbuckets (fun s c hc _ hsc => hnext s c hc hsc)
    hothers fun head hhead => ⟨_, hpath head hhead, hnodup, hnew⟩

/-- A slot that is not linked yet joins the chain of its name. -/
lemma indexes_link (h : t.Indexes linked) (hi : t.isIndexed = true) {slot : Nat}
    (hs : ¬linked slot) (hlt : slot < UInt32.size) :
    t.SameNames (t.link slot) ∧ (t.link slot).Indexes fun s => linked s ∨ s = slot := by
  have hstays (hu : ∀ q, t.nameAt? slot = some q → q.isUnnamed = true) :
      t.Indexes fun s => linked s ∨ s = slot := by
    refine h.of_iff fun s b hb => ?_
    have : s ≠ slot := by
      rintro rfl
      exact not_belongs hu b hb
    simp [this]
  unfold link
  split
  · next hq => exact ⟨.refl t, hstays (by simp [hq])⟩
  · next q hq =>
    split
    · next hu => exact ⟨.refl t, hstays (by simpa [hq] using hu)⟩
    · next hu =>
      have hsame := sameNames_setNext t slot none
      have hnone : (t.setNext slot none).next? slot = none :=
        next?_setNext_self _ (lt_size_of_nameAt? hq)
      have hb : (t.setNext slot none).Belongs slot ((t.setNext slot none).bucketOf q.name) :=
        ⟨q, (hsame.name slot).trans hq, by simpa using hu, rfl⟩
      have h1 : (t.setNext slot none).Indexes linked := by
        refine h.congr rfl (fun s b => ?_) fun s b hls _ => next?_setNext_ne _ _ ?_
        · rw [belongs_congr hsame.buckets (hsame.name s)]
        · rintro rfl
          exact hs hls
      generalize t.setNext slot none = u at hsame hnone hb h1
      have hu := hsame.isIndexed.trans hi
      obtain ⟨slots, hchain, hp, hd, hm⟩ := h1.chain? hu q.name
      dsimp only
      rcases hlast : slots.getLast? with _ | tail <;> simp only [hchain, hlast]
      · -- the chain was empty
        obtain rfl := List.getLast?_eq_none_iff.1 hlast
        have hset := sameNames_setHead u (u.bucketOf q.name) (linkTo slot)
        refine ⟨hsame.trans hset, h1.extend hs hb hd hm hset
          (fun c hc => buckets_setHead_ne _ _ hc) (fun _ _ _ _ => rfl) fun head hhead => ?_⟩
        rw [buckets_setHead_self hhead]
        exact ⟨rfl, hlt, hnone⟩
      · have htail := ((hm tail).1 (List.mem_of_getLast? hlast)).2
        have hset := sameNames_setNext u tail (linkTo slot)
        refine ⟨hsame.trans hset, h1.extend hs hb hd hm hset (fun _ _ => rfl)
          (fun s c hc hsc => next?_setNext_ne _ _ ?_) fun head hhead => ?_⟩
        · rintro rfl
          exact hc (hsc.unique htail)
        · obtain rfl : head = u.head? q.name :=
            (Option.some.inj ((head?_eq hu).2.symm.trans hhead)).symm
          exact hp.append hlast hd htail.lt hlt hnone fun hmem => hs ((hm slot).1 hmem).1

/-- A linked slot leaves the chain of its name. -/
lemma indexes_unlink (h : t.Indexes linked) (hi : t.isIndexed = true) {slot : Nat} {name : String}
    (hs : linked slot) (hb : t.Belongs slot (t.bucketOf name)) :
    t.SameNames (t.unlink slot name) ∧
      (t.unlink slot name).Indexes fun s => linked s ∧ s ≠ slot := by
  obtain ⟨slots, hchain, hp, hd, hm⟩ := h.chain? hi name
  have hin : slot ∈ slots := (hm slot).2 ⟨hs, hb⟩
  have hnew (s : Nat) : s ∈ slots.erase slot ↔
      (linked s ∧ s ≠ slot) ∧ t.Belongs s (t.bucketOf name) := by
    rw [hd.mem_erase_iff, hm s]
    tauto
  have hothers (s c : Nat) (hc : c ≠ t.bucketOf name) (hsc : t.Belongs s c) :
      linked s ∧ s ≠ slot ↔ linked s := by
    refine and_iff_left ?_
    rintro rfl
    exact hc (hsc.unique hb)
  unfold unlink
  split
  · next hhead =>
    refine ⟨sameNames_setHead _ _ _, ?_⟩
    refine h.update (b := t.bucketOf name) (fun _ => rfl) (sameNames_setHead _ _ _).buckets
      (fun c hc => buckets_setHead_ne _ _ hc) (fun _ _ _ _ _ => rfl) hothers fun head hset => ?_
    rw [buckets_setHead_self hset]
    rw [hhead] at hp
    exact ⟨_, (hp.tail (hp.lt slot hin)).congr fun _ _ => rfl, hd.erase slot, hnew⟩
  · next hhead =>
    obtain ⟨prev, hfind, hpath⟩ := hp.splice hd hin hhead fun s hs => ((hm s).1 hs).2.lt
    have hprev := ((hm prev).1 (List.mem_of_find?_eq_some hfind)).2
    simp only [hchain, hfind]
    refine ⟨sameNames_setNext _ _ _, ?_⟩
    refine h.update (b := t.bucketOf name) (sameNames_setNext _ _ _).name rfl (fun _ _ => rfl)
      (fun s c hc _ hsc => next?_setNext_ne _ _ ?_) hothers fun head hset => ?_
    · rintro rfl
      exact hc (hsc.unique hprev)
    · obtain rfl : head = t.head? name :=
        (Option.some.inj ((head?_eq hi).2.symm.trans hset)).symm
      exact ⟨_, hpath, hd.erase slot, hnew⟩

/-! ### What every update keeps -/

/-- The slot has a name other than the empty one. -/
def Named (t : NameTable) (s : Nat) : Prop := ∃ q, t.nameAt? s = some q ∧ q.isUnnamed = false

/-- The named slots lie below `n`, the index holds all of them, and every walk so far has ended. -/
structure Sound (t : NameTable) (n : Nat) : Prop where
  named_lt : ∀ s, t.Named s → s < n
  indexed : t.isIndexed = true → t.Indexes fun _ => True
  ended : t.endless = false

omit [NameHash] in
lemma SameNames.named (h : t.SameNames t') (s : Nat) : t'.Named s ↔ t.Named s := by
  simp only [Named, h.name]

omit [NameHash] in
lemma Named.lt_size {s : Nat} (h : t.Named s) : s < t.size := by
  obtain ⟨q, hq, -⟩ := h
  exact lt_size_of_nameAt? hq

lemma Belongs.named {s b : Nat} (h : t.Belongs s b) : t.Named s := by
  obtain ⟨q, hq, hu, -⟩ := h
  exact ⟨q, hq, hu⟩

lemma sound_empty : NameTable.empty.Sound 0 := by
  refine ⟨fun s hs => absurd hs.lt_size (Nat.not_lt_zero s), fun hi => ?_, rfl⟩
  simp [isIndexed, empty] at hi

/-- Slots `0` to `k - 1` in turn join an index that links nothing yet. -/
lemma indexes_links (hi : t.isIndexed = true) (h : t.Indexes fun _ => False) {k : Nat}
    (hk : k ≤ UInt32.size) :
    t.SameNames ((List.range k).foldl link t) ∧ ((List.range k).foldl link t).Indexes (· < k) := by
  induction k with
  | zero => exact ⟨.refl t, h.of_iff fun s b _ => by simp⟩
  | succ k ih =>
    obtain ⟨hsame, hindex⟩ := ih (by omega)
    rw [List.range_succ, List.foldl_append]
    obtain ⟨hsame', hindex'⟩ := indexes_link hindex (hsame.isIndexed.trans hi) (Nat.lt_irrefl k) hk
    refine ⟨hsame.trans hsame', hindex'.of_iff fun s b _ => ?_⟩
    omega

@[simp] lemma size_link (t : NameTable) (slot : Nat) : (t.link slot).size = t.size := by
  unfold link
  split
  · rfl
  · split
    · rfl
    · dsimp only
      split
      · simp [size, setNext]
      · split <;> simp [size, setNext, setHead]

@[simp] lemma size_reindex (t : NameTable) (n : Nat) : (t.reindex n).size = t.size := by
  unfold reindex
  split
  · rfl
  · generalize hu : NameTable.mk _ _ t.endless = u
    have h : u.size = t.size := by simp [← hu, size]
    clear hu
    induction List.range (min n t.size) generalizing u with
    | nil => exact h
    | cons slot slots ih => exact ih _ (by rw [size_link, h])

lemma Sound.mono {n m : Nat} (h : t.Sound n) (hnm : n ≤ m) : t.Sound m :=
  ⟨fun s hs => Nat.lt_of_lt_of_le (h.named_lt s hs) hnm, h.indexed, h.ended⟩

/-- Building the index anew does not depend on the links there were. -/
lemma sound_reindex {n m : Nat} (hn : n ≤ UInt32.size) (hmn : m ≤ n)
    (hnamed : ∀ s, t.Named s → s < m) (hended : t.endless = false) : (t.reindex n).Sound m := by
  unfold reindex
  split
  · next h =>
    refine ⟨hnamed, fun hi => ?_, hended⟩
    simp [hi] at h
  · generalize hu : NameTable.mk _ _ t.endless = u
    have hname (s : Nat) : u.nameAt? s = t.nameAt? s := by
      simp [← hu, nameAt?, Function.comp_def]
    have hnamed : ∀ s, u.Named s → s < m ∧ s < min n t.size := by
      rintro s ⟨q, hq, hq'⟩
      have ht : t.Named s := ⟨q, hname s ▸ hq, hq'⟩
      have hm := hnamed s ht
      have hsize := ht.lt_size
      omega
    have hi : u.isIndexed = true := by
      have := lt_bucketsFor n
      simp only [← hu, isIndexed, Array.isEmpty, Array.size_replicate, Bool.not_eq_true',
        decide_eq_false_iff_not]
      omega
    have hbare : u.Indexes fun _ => False := by
      intro b head hhead
      obtain rfl : head = none := by
        rw [← hu] at hhead
        simp only [Array.getElem?_replicate] at hhead
        split at hhead
        · exact (Option.some.inj hhead).symm
        · simp at hhead
      exact ⟨[], rfl, List.nodup_nil, by simp⟩
    obtain ⟨hsame, hindex⟩ := indexes_links hi hbare (Nat.le_trans (Nat.min_le_left n t.size) hn)
    refine ⟨fun s hs => ?_, fun _ => hindex.of_iff fun s b hb => ?_, ?_⟩
    · exact (hnamed s ((hsame.named s).1 hs)).1
    · simp [(hnamed s ((hsame.named s).1 hb.named)).2]
    · rw [hsame.endless, ← hu]
      exact hended

/-- Entries may be added, changed and dropped as long as the named ones stay as they are. -/
lemma Sound.congr {n : Nat} (h : t.Sound n) (hb : t'.buckets = t.buckets)
    (he : t'.endless = t.endless)
    (hname : ∀ s, t'.Named s ↔ t.Named s) (hslot : ∀ s, t.Named s → t'.slots[s]? = t.slots[s]?) :
    t'.Sound n := by
  refine ⟨fun s hs => h.named_lt s ((hname s).1 hs), fun hi => ?_, he.trans h.ended⟩
  have hbelongs (s b : Nat) : t'.Belongs s b ↔ t.Belongs s b := by
    by_cases hs : t.Named s
    · exact belongs_congr (by rw [hb]) (by rw [nameAt?, hslot s hs, nameAt?]) b
    · exact iff_of_false (fun k => hs ((hname s).1 k.named)) fun k => hs k.named
  refine (h.indexed ?_).congr hb (fun s b => and_congr_right fun _ => hbelongs s b)
    fun s b _ k => ?_
  · simpa [isIndexed, hb] using hi
  · rw [next?, hslot s k.named, next?]

omit [NameHash] in
lemma slots_ensureSize (t : NameTable) (n s : Nat) :
    (t.ensureSize n).slots[s]? =
      if s < t.size then t.slots[s]? else if s < n then some .unnamed else none := by
  simp only [ensureSize, size, Array.getElem?_append, Array.getElem?_replicate]
  by_cases h : s < t.slots.size
  · simp [h]
  · have : s - t.slots.size < n - t.slots.size ↔ s < n := by omega
    simp [h, this]

omit [NameHash] in
lemma named_ensureSize (t : NameTable) (n s : Nat) : (t.ensureSize n).Named s ↔ t.Named s := by
  simp only [Named, nameAt?, slots_ensureSize]
  split
  · rfl
  · next h =>
    rw [Array.getElem?_eq_none (Nat.le_of_not_lt h)]
    split <;> simp [NameEntry.unnamed]

lemma Sound.ensureSize {n : Nat} (h : t.Sound n) (m : Nat) : (t.ensureSize m).Sound n := by
  refine h.congr rfl rfl (named_ensureSize t m) fun s hs => ?_
  rw [slots_ensureSize, if_pos hs.lt_size]

/-- The slot leaves the index before it loses its name. -/
lemma Sound.clear {n : Nat} (h : t.Sound n) (slot : Nat) :
    (t.clear slot).Sound n ∧ ¬(t.clear slot).Named slot := by
  unfold NameTable.clear
  split
  · next hq => exact ⟨h, fun ⟨q, hq', _⟩ => by simp [hq] at hq'⟩
  · next q hq =>
    generalize hu : (if t.isIndexed && !q.isUnnamed then t.unlink slot q.name else t) = u
    dsimp only
    obtain ⟨hsame, hindex⟩ : t.SameNames u ∧ (u.isIndexed = true → u.Indexes (· ≠ slot)) := by
      split at hu <;> subst hu
      · next hc =>
        obtain ⟨hi, hq'⟩ : t.isIndexed = true ∧ q.isUnnamed = false := by simpa using hc
        obtain ⟨hsame, hindex⟩ := indexes_unlink (h.indexed hi) hi trivial ⟨q, hq, hq', rfl⟩
        exact ⟨hsame, fun _ => hindex.of_iff fun s b _ => by simp⟩
      · next hc =>
        refine ⟨.refl t, fun hi => (h.indexed hi).of_iff fun s b hb => ?_⟩
        have hne : s ≠ slot := by
          rintro rfl
          exact not_belongs (by simpa [hi, hq] using hc) b hb
        simp [hne]
    have hslots (s : Nat) (hne : s ≠ slot) :
        (u.slots.setIfInBounds slot .unnamed)[s]? = u.slots[s]? := by
      simp [Ne.symm hne]
    have hgone : ¬({ u with slots := u.slots.setIfInBounds slot .unnamed } : NameTable).Named slot
        := by
      rintro ⟨r, hr, hr'⟩
      simp only [nameAt?, Array.getElem?_setIfInBounds, if_true] at hr
      split at hr
      · obtain rfl : QName.unnamed = r := by simpa [NameEntry.unnamed] using hr
        simp at hr'
      · simp at hr
    have hkept (s : Nat) (hne : s ≠ slot) :
        ({ u with slots := u.slots.setIfInBounds slot .unnamed } : NameTable).nameAt? s =
          u.nameAt? s := by
      simp only [nameAt?, hslots s hne]
    refine ⟨⟨fun s hs => ?_, fun hi => ?_, hsame.endless.trans h.ended⟩, hgone⟩
    · have hne : s ≠ slot := by
        rintro rfl
        exact hgone hs
      obtain ⟨r, hr, hr'⟩ := hs
      exact h.named_lt s ((hsame.named s).1 ⟨r, (hkept s hne).symm.trans hr, hr'⟩)
    · refine (hindex hi).congr rfl (fun s b => ?_) fun s b hne _ => ?_
      · by_cases hne : s = slot
        · subst hne
          simpa using fun hb => hgone (Belongs.named hb)
        · have hb : ({ u with slots := u.slots.setIfInBounds slot .unnamed } : NameTable).Belongs
              s b ↔ u.Belongs s b := belongs_congr (by rfl) (hkept s hne) b
          simp [hne, hb]
      · simp only [next?, hslots s hne]

omit [NameHash] in
lemma slots_setRaw_ne (t : NameTable) {slot : Nat} (q : QName) {s : Nat} (h : s ≠ slot) :
    (t.setRaw slot q).slots[s]? = t.slots[s]? := by
  simp [setRaw, Array.getElem?_modify, Ne.symm h]

/-- A slot outside the index is named and then joins it. -/
lemma Sound.rename {n : Nat} (h : t.Sound n) {slot : Nat} (hslot : slot < n)
    (hn : n ≤ UInt32.size) (q : QName) : (t.rename slot q n).Sound n := by
  obtain ⟨hu, hgone⟩ := (h.ensureSize n).clear slot
  unfold NameTable.rename
  generalize (t.ensureSize n).clear slot = u at hu hgone
  dsimp only
  have hkept (s : Nat) (hne : s ≠ slot) : (u.setRaw slot q).nameAt? s = u.nameAt? s := by
    simp only [nameAt?, slots_setRaw_ne u q hne]
  have hnamed : ∀ s, (u.setRaw slot q).Named s → s < n := by
    rintro s ⟨r, hr, hr'⟩
    by_cases hne : s = slot
    · omega
    · exact hu.named_lt s ⟨r, (hkept s hne).symm.trans hr, hr'⟩
  have hindex (hi : (u.setRaw slot q).isIndexed = true) :
      (u.setRaw slot q).Indexes (· ≠ slot) := by
    refine (hu.indexed hi).congr rfl (fun s b => ?_) fun s b _ hb => ?_
    · by_cases hne : s = slot
      · subst hne
        simpa using fun hb => hgone (Belongs.named hb)
      · have hb : (u.setRaw slot q).Belongs s b ↔ u.Belongs s b :=
          belongs_congr (by rfl) (hkept s hne) b
        simp [hne, hb]
    · have hne : s ≠ slot := by
        rintro rfl
        exact hgone hb.named
      simp only [next?, slots_setRaw_ne u q hne]
  have hended : (u.setRaw slot q).endless = false := hu.ended
  generalize u.setRaw slot q = v at hnamed hindex hended
  split
  · next hc =>
    unfold indexSlot
    split
    · exact sound_reindex hn (Nat.le_refl n) hnamed hended
    · next hbuckets =>
      have hi : v.isIndexed = true := by
        rcases Bool.or_eq_true_iff.1 hc with hc | hc
        · simp only [isIndexed, Array.isEmpty, Bool.not_eq_true', decide_eq_false_iff_not]
          simp only [indexThreshold] at hc
          omega
        · exact hc
      obtain ⟨hsame, hlink⟩ := indexes_link (hindex hi) hi (not_not_intro rfl)
        (Nat.lt_of_lt_of_le hslot hn)
      refine ⟨fun s hs => hnamed s ((hsame.named s).1 hs), fun _ => ?_, hsame.endless.trans hended⟩
      exact hlink.of_iff fun s b _ => by simpa using em' (s = slot)
  · next hc =>
    refine ⟨hnamed, fun hi => ?_, hended⟩
    simp [hi] at hc

omit [NameHash] in
lemma named_insertEntries {n offset count s : Nat} (hn : ∀ s, t.Named s → s < n)
    (h : (t.insertEntries offset count).Named s) : s < n + count := by
  obtain ⟨q, hq, hu⟩ := h
  simp only [nameAt?, insertEntries, Array.getElem?_append, Array.getElem?_extract,
    Array.getElem?_replicate, Array.size_append, Array.size_extract, Array.size_replicate,
    Nat.sub_zero, Nat.zero_add] at hq
  split at hq
  · split at hq
    · have := hn s ⟨q, hq, hu⟩
      omega
    · next hlt =>
      -- the entries that were opened have no name
      rw [if_pos (by omega)] at hq
      obtain rfl : QName.unnamed = q := by simpa [NameEntry.unnamed] using hq
      simp at hu
  · split at hq
    · have := hn _ ⟨q, hq, hu⟩
      omega
    · simp at hq

omit [NameHash] in
lemma named_removeEntry {n slot s : Nat} (hn : ∀ s, t.Named s → s < n) (hslot : slot < n)
    (h : (t.removeEntry slot).Named s) : s < n - 1 := by
  obtain ⟨q, hq, hu⟩ := h
  simp only [nameAt?, removeEntry, Array.eraseIdxIfInBounds] at hq
  split at hq
  · rw [Array.getElem?_eraseIdx] at hq
    split at hq
    · omega
    · have := hn (s + 1) ⟨q, hq, hu⟩
      omega
  · have := lt_size_of_nameAt? hq
    simp only [size] at this
    omega

end ScriptHeap.NameTable
