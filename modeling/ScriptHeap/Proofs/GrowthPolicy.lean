import Mathlib
import ScriptHeap.Proofs.Growth
import ScriptHeap.Proofs.InPlace
import ScriptHeap.Proofs.Listing

/-!
How objects grow. The growth that is charged is the growth that is carried out, and the next
capacity is the least one for small objects and close above the count for large ones. All of this is
computed on machine words, and no step of the computation wraps around.
-/

namespace ScriptHeap

/-! ### Sizes as machine words

The computations as they are carried out, with arithmetic that would wrap around. Multiplication is
checked wherever the count comes from the host. -/

namespace Words

/-- Division rounded up. -/
def ceilDiv (a b : UInt64) : UInt64 := if 0 < a % b then a / b + 1 else a / b

/-- The product, if it is a word. -/
def mul? (a b : UInt64) : Option UInt64 :=
  if a.toNat * b.toNat < wordLimit then some (a * b) else none

/-- The capacity of a fresh array of `n` slots. -/
def roundUp (n : UInt64) : UInt64 := ceilDiv n 8 * 8

/-- The part by which an array of this capacity grows at least. -/
def quarter (capacity : UInt64) : UInt64 := if 8 < capacity / 4 then capacity / 4 else 8

def next? (capacity count : UInt64) : Option UInt64 :=
  if 256 < capacity then
    (mul? (ceilDiv count (quarter capacity)) (quarter capacity)).bind fun size =>
      mul? (ceilDiv size 8) 8
  else mul? (ceilDiv count 8) 8

def growthBytes? (capacity count : UInt64) : Option UInt64 :=
  if count ≤ capacity then some 0
  else (next? capacity count).bind fun n => mul? (n - capacity) 8

def storageBytes (capacity : UInt64) : UInt64 := capacity * 8

/-- The number of slots that a store to the slot needs. -/
def needed (count : UInt64) (slot : Int32) : UInt64 :=
  if slot < 0 then count + 1 else slot.toInt64.toUInt64 + 1

lemma toNat_ceilDiv {a b : UInt64} (hb : 0 < b.toNat) :
    (ceilDiv a b).toNat = (a.toNat + (b.toNat - 1)) / b.toNat := by
  have ha := a.toNat_lt
  have hdiv := Nat.div_add_mod a.toNat b.toNat
  have hmod := Nat.mod_lt a.toNat hb
  have hrest : 0 < a % b ↔ 0 < a.toNat % b.toNat := by
    rw [UInt64.lt_iff_toNat_lt, UInt64.toNat_mod]
    rfl
  unfold ceilDiv
  simp only [hrest]
  generalize hq : a.toNat / b.toNat = q at hdiv
  generalize hr : a.toNat % b.toNat = r at hdiv hmod
  split
  · next hpos =>
    -- with a remainder the divisor is at least two, and the quotient has room for one more
    have hle : 2 * q ≤ b.toNat * q := Nat.mul_le_mul_right q (by omega)
    have hsum : a.toNat + (b.toNat - 1) = (r - 1) + b.toNat * (q + 1) := by
      rw [Nat.mul_succ]
      omega
    rw [UInt64.toNat_add, UInt64.toNat_div, hq, hsum, Nat.add_mul_div_left _ _ hb,
      Nat.div_eq_of_lt (by omega), UInt64.toNat_one, Nat.mod_eq_of_lt (by omega), Nat.zero_add]
  · have hsum : a.toNat + (b.toNat - 1) = (b.toNat - 1) + b.toNat * q := by omega
    rw [UInt64.toNat_div, hq, hsum, Nat.add_mul_div_left _ _ hb, Nat.div_eq_of_lt (by omega),
      Nat.zero_add]

lemma toNat_mul? (a b : UInt64) : (mul? a b).map (·.toNat) = word? (a.toNat * b.toNat) := by
  unfold mul? word?
  split
  · next h =>
    have hfits : a.toNat * b.toNat % 2 ^ 64 = a.toNat * b.toNat := Nat.mod_eq_of_lt h
    rw [Option.map_some, UInt64.toNat_mul, hfits]
  · rfl

lemma toNat_mul?_ceilDiv {step : UInt64} (h : 0 < step.toNat) (n : UInt64) :
    (mul? (ceilDiv n step) step).map (·.toNat) = word? (Capacity.ceilTo step.toNat n.toNat) := by
  rw [toNat_mul?, toNat_ceilDiv h, Capacity.ceilTo]

lemma toNat_quarter (capacity : UInt64) :
    (quarter capacity).toNat = max (capacity.toNat / 4) Capacity.unit := by
  have hdiv : (capacity / 4).toNat = capacity.toNat / 4 := UInt64.toNat_div _ _
  have hunit : (8 : UInt64).toNat = Capacity.unit := rfl
  unfold quarter
  simp only [UInt64.lt_iff_toNat_lt, hdiv, hunit]
  split
  · rw [hdiv]
    omega
  · rw [hunit]
    omega

/-- The next capacity is computed without a wrap. -/
lemma toNat_next? (capacity count : UInt64) :
    (next? capacity count).map (·.toNat) = Capacity.next? capacity.toNat count.toNat := by
  have hround (n : UInt64) : (mul? (ceilDiv n 8) 8).map (·.toNat) =
      word? (Capacity.roundUp n.toNat) := toNat_mul?_ceilDiv (by decide) n
  have hquarter : 0 < (quarter capacity).toNat := by
    rw [toNat_quarter]
    exact lt_max_of_lt_right (by decide)
  have hlarge : 256 < capacity ↔ Capacity.large < capacity.toNat := UInt64.lt_iff_toNat_lt
  unfold next? Capacity.next?
  simp only [hlarge]
  split
  · have hsize := toNat_mul?_ceilDiv hquarter count
    rw [toNat_quarter] at hsize
    rw [← hsize, Option.map_bind, Option.bind_map]
    exact congrArg _ (funext hround)
  · exact hround count

/-- The bytes that growth adds are computed without a wrap. -/
lemma toNat_growthBytes? (capacity count : UInt64) :
    (growthBytes? capacity count).map (·.toNat) =
      Capacity.growthBytes? capacity.toNat count.toNat := by
  unfold growthBytes? Capacity.growthBytes?
  simp only [UInt64.le_iff_toNat_le]
  split
  · rfl
  · next hlt =>
    rw [← toNat_next?, Option.map_bind, Option.bind_map]
    rcases hn : next? capacity count with _ | n
    · rfl
    · have hnext : Capacity.next? capacity.toNat count.toNat = some n.toNat := by
        rw [← toNat_next?, hn, Option.map_some]
      have hle : count.toNat ≤ n.toNat := Capacity.le_of_next? hnext
      have hsub : (n - capacity).toNat = n.toNat - capacity.toNat :=
        UInt64.toNat_sub_of_le _ _ (UInt64.le_iff_toNat_le.2 (by omega))
      simp only [Option.bind_some, Function.comp_apply]
      rw [toNat_mul?, hsub]
      rfl

/-- A slot argument that is not negative is its own slot number. -/
lemma toNat_slot {slot : Int32} (h : ¬ slot < 0) :
    slot.toInt64.toUInt64.toNat = slot.toInt.toNat := by
  have hpos : 0 ≤ slot.toInt64 := by
    rw [Int64.le_iff_toInt_le, Int32.toInt_toInt64]
    exact Int.not_lt.1 fun hlt => h (Int32.lt_iff_toInt_lt.2 hlt)
  rw [Int64.toNat_toUInt64_of_le hpos, ← Int64.toNat_toInt, Int32.toInt_toInt64]

/-- Every size that has to do with the object comes out on words as it should. -/
structure Exact (o : Object) : Prop where
  next : ∀ count : UInt64, (next? (.ofNat o.capacity) count).map (·.toNat) =
    Capacity.next? o.capacity count.toNat
  growth : ∀ count : UInt64, (growthBytes? (.ofNat o.capacity) count).map (·.toNat) =
    o.growthBytes? count.toNat
  storage : (storageBytes (.ofNat o.capacity)).toNat = o.storageBytes
  room : (roundUp (.ofNat o.count)).toNat = Capacity.roundUp o.count
  needed : ∀ slot : Int32, (needed (.ofNat o.count) slot).toNat = o.needed slot.toInt

lemma exact_of_exists {o : Object} (hcount : o.count ≤ o.capacity)
    (hlimit : o.storageBytes ≤ Capacity.arrayLimit) : Exact o := by
  have hbytes : o.capacity * 8 ≤ 9223372036854775807 := hlimit
  have hcapacity : (UInt64.ofNat o.capacity).toNat = o.capacity :=
    UInt64.toNat_ofNat_of_lt' (by rw [UInt64.size]; omega)
  have hwords : (UInt64.ofNat o.count).toNat = o.count :=
    UInt64.toNat_ofNat_of_lt' (by rw [UInt64.size]; omega)
  have height : (8 : UInt64).toNat = 8 := rfl
  refine ⟨fun count => ?_, fun count => ?_, ?_, ?_, fun slot => ?_⟩
  · rw [toNat_next?, hcapacity]
  · rw [toNat_growthBytes?, hcapacity]
    rfl
  · rw [storageBytes, UInt64.toNat_mul, hcapacity, height, Nat.mod_eq_of_lt (by omega)]
    rfl
  · have hceil : (ceilDiv (.ofNat o.count) 8).toNat = (o.count + 7) / 8 := by
      rw [toNat_ceilDiv (by decide), hwords]
      rfl
    rw [roundUp, UInt64.toNat_mul, hceil, height, Nat.mod_eq_of_lt (by omega)]
    rfl
  · have hone : (1 : UInt64).toNat = 1 := rfl
    unfold needed Object.needed
    have hneg : slot < 0 ↔ slot.toInt < 0 := Int32.lt_iff_toInt_lt
    split
    · next hslot =>
      rw [if_pos (hneg.1 hslot), UInt64.toNat_add, hwords, hone, Nat.mod_eq_of_lt (by omega)]
    · next hslot =>
      have hlt : slot.toInt < 2 ^ 31 := slot.toInt_lt
      rw [if_neg fun h => hslot (hneg.2 h), UInt64.toNat_add, toNat_slot hslot, hone,
        Nat.mod_eq_of_lt (by omega)]

end Words

/-! ### The next capacity -/

namespace Capacity

/-- The capacity that an array of capacity `c` grows to when it has to hold `n` slots: the least
multiple of eight for a small array, between a quarter more than it had and a quarter more than it
needs for a large one. -/
structure Steps (c n c' : Nat) : Prop where
  holds : n ≤ c'
  small : c ≤ 256 → IsLeast {k | 8 ∣ k ∧ n ≤ k} c'
  big : 256 < c → c + c / 4 ≤ c' ∧ c' < n + c / 4 + 8

lemma isLeast_roundUp (n : Nat) : IsLeast {k | 8 ∣ k ∧ n ≤ k} (roundUp n) := by
  have hlt : roundUp n < n + 8 := ceilTo_lt (by decide) n
  obtain ⟨q, hq⟩ : 8 ∣ roundUp n := dvd_ceilTo unit n
  refine ⟨⟨⟨q, hq⟩, le_roundUp n⟩, ?_⟩
  rintro k ⟨⟨r, rfl⟩, hn⟩
  omega

lemma dvd_of_next? {c n c' : Nat} (h : next? c n = some c') : 8 ∣ c' := by
  unfold next? at h
  split at h
  · obtain ⟨size, -, hc'⟩ := Option.bind_eq_some_iff.1 h
    exact eq_of_word? hc' ▸ dvd_ceilTo unit size
  · exact eq_of_word? h ▸ dvd_ceilTo unit n

/-- The least multiple of a quarter that exceeds the whole is a quarter more than the whole. -/
lemma le_ceilTo_quarter {c n : Nat} (hc : 8 ∣ c) (hbig : 256 < c) (hn : c < n) :
    c + c / 4 ≤ ceilTo (c / 4) n := by
  obtain ⟨m, hm⟩ := dvd_ceilTo (c / 4) n
  have hge : n ≤ ceilTo (c / 4) n := le_ceilTo (by omega) n
  have hwhole : c = c / 4 * 4 := by omega
  have hmore : 4 < m := by
    by_contra hle
    have := Nat.mul_le_mul_left (c / 4) (Nat.not_lt.1 hle)
    omega
  have := Nat.mul_le_mul_left (c / 4) hmore
  omega

lemma steps_of_next? {c n c' : Nat} (hc : 8 ∣ c) (hn : c < n) (h : next? c n = some c') :
    Steps c n c' := by
  refine ⟨le_of_next? h, fun hsmall => ?_, fun hbig => ?_⟩
  · have hsmall : ¬ large < c := Nat.not_lt.2 hsmall
    rw [next?, if_neg hsmall] at h
    exact eq_of_word? h ▸ isLeast_roundUp n
  · have hlarge : large < c := hbig
    rw [next?, if_pos hlarge] at h
    obtain ⟨size, hsize, hc'⟩ := Option.bind_eq_some_iff.1 h
    have hquarter : max (c / 4) unit = c / 4 := max_eq_left (by unfold unit; omega)
    rw [hquarter] at hsize
    have hsize := eq_of_word? hsize
    have hlow : c + c / 4 ≤ size := hsize ▸ le_ceilTo_quarter hc hbig hn
    have hhigh : size < n + c / 4 := hsize ▸ ceilTo_lt (by omega) n
    have hround : c' < size + 8 := eq_of_word? hc' ▸ ceilTo_lt (by decide) size
    have hge : size ≤ c' := eq_of_word? hc' ▸ le_roundUp size
    omega

end Capacity

namespace Object

variable {o o' : Object}

/-! ### Edits that take room -/

/-- The capacity stays, or it is the next one that holds the slots that are now in use. -/
def Outgrows (o o' : Object) : Prop :=
  o'.capacity = o.capacity ∨
    o.capacity < o'.count ∧ Capacity.reserve? o.capacity o'.count = some o'.capacity

lemma Outgrows.le (h : o.Outgrows o') : o.capacity ≤ o'.capacity := by
  rcases h with h | ⟨hlt, hr⟩
  · exact h.ge
  · exact (hlt.le).trans (Capacity.le_of_reserve? hr)

lemma Outgrows.next? (h : o.Outgrows o') (hlt : o.capacity < o'.capacity) :
    o.capacity < o'.count ∧ Capacity.next? o.capacity o'.count = some o'.capacity := by
  rcases h with h | ⟨hcount, hr⟩
  · omega
  · exact ⟨hcount, (Option.filter_eq_some_iff.1 hr).1⟩

lemma Outgrows.dvd (h : o.Outgrows o') (ho : 8 ∣ o.capacity) : 8 ∣ o'.capacity := by
  rcases h with h | ⟨-, hr⟩
  · rwa [h]
  · exact Capacity.dvd_of_next? (Option.filter_eq_some_iff.1 hr).1

lemma Outgrows.limit (h : o.Outgrows o') (ho : o.storageBytes ≤ Capacity.arrayLimit) :
    o'.storageBytes ≤ Capacity.arrayLimit := by
  rcases h with h | ⟨-, hr⟩
  · rwa [storageBytes_congr h]
  · exact of_decide_eq_true (Option.filter_eq_some_iff.1 hr).2

lemma Outgrows.congr {p : Object} (h : o.Outgrows p) (hcount : o'.count = p.count)
    (hcapacity : o'.capacity = p.capacity) : o.Outgrows o' := by
  unfold Outgrows at h ⊢
  rwa [hcount, hcapacity]

lemma outgrows_of_storageBytes (h : o'.storageBytes = o.storageBytes) : o.Outgrows o' :=
  .inl (Nat.eq_of_mul_eq_mul_right (by decide) h)

variable [NameHash]

lemma outgrows_grow (ho : o.count ≤ o.capacity) {n : Nat} (h : o.grow n = .ok o') :
    o.Outgrows o' := by
  have hcount := count_grow h
  unfold grow at h
  split at h
  · obtain rfl := Except.ok.inj h
    exact .inl rfl
  · next hn =>
    have hn : o.capacity < n := Nat.not_le.1 hn
    have hcount : o'.count = n := hcount.trans (max_eq_right (by omega))
    split at h
    · simp at h
    · next k hk =>
      have hle := Capacity.le_of_reserve? hk
      obtain rfl := Except.ok.inj h
      have hsize : (o.slots ++ Array.replicate (k - o.capacity) (none : Slot)).size = k := by
        simp only [capacity, Array.size_append, Array.size_replicate] at hn hle ⊢
        omega
      rw [Outgrows, hcount]
      exact .inr ⟨hn, hk.trans (congrArg some hsize.symm)⟩

lemma outgrows_checkSlot (ho : o.count ≤ o.capacity) {slot : Int} {compiler : Bool} {n : Nat}
    (h : o.checkSlot slot compiler = .ok (n, o')) : o.Outgrows o' := by
  rcases checkSlot_cases h with ⟨-, rfl⟩ | hg
  · exact .inl rfl
  · exact outgrows_grow ho hg

lemma outgrows_insert (ho : o.count ≤ o.capacity) {n offset : Nat}
    (h : o.insert n offset = .ok o') : o.Outgrows o' := by
  unfold insert at h
  split at h
  · simp at h
  · split at h
    · obtain rfl := Except.ok.inj h
      exact .inl rfl
    · split at h
      · simp at h
      · obtain ⟨p, hg, rfl⟩ := eq_ok_of_map h
        have hroom := (capacity_grow hg).2
        refine (outgrows_grow ho hg).congr rfl ?_
        simp only [capacity, Array.size_append, Array.size_extract, Array.size_replicate] at *
        omega

lemma outgrows_apply (ho : o.Sound) (e : Edit) : o.Outgrows (o.apply e) := by
  rw [apply]
  split
  · next o' he =>
    cases e with
    | checkSlot slot compiler =>
      obtain ⟨⟨n, p⟩, hc, rfl⟩ := eq_ok_of_map he
      exact outgrows_checkSlot ho.count_le hc
    | setValue slot v compiler =>
      obtain ⟨⟨n, p⟩, hs, rfl⟩ := eq_ok_of_map he
      obtain ⟨⟨k, p'⟩, hc, e⟩ := eq_ok_of_map hs
      obtain ⟨-, rfl⟩ := Prod.mk.inj e
      exact (outgrows_checkSlot ho.count_le hc).congr rfl (capacity_write _ _ _)
    | setName slot q compiler =>
      obtain ⟨⟨n, p⟩, hs, rfl⟩ := eq_ok_of_map he
      obtain ⟨⟨k, p'⟩, hc, e⟩ := eq_ok_of_map hs
      have hp := outgrows_checkSlot ho.count_le hc
      dsimp only at e
      split at e <;> obtain ⟨-, rfl⟩ := Prod.mk.inj e
      · exact hp
      · exact hp
    | delete slot compiler => exact outgrows_of_storageBytes (storageBytes_delete he)
    | grow n => exact outgrows_grow ho.count_le he
    | insert n offset => exact outgrows_insert ho.count_le he
    | remove slot compact compiler => exact outgrows_of_storageBytes (storageBytes_remove ho he)
    | setDynamic dynamic =>
      obtain rfl := Except.ok.inj he
      exact .inl rfl
  · exact .inl rfl

/-! ### Objects in use -/

omit [NameHash] in
lemma Spells.sound {l : Listing} (h : o.Spells l) : o.Sound := by
  refine ⟨h.capacity, fun i hi => ?_⟩
  have hentry := h.entry i
  rw [Listing.entryAt_of_le (by rw [h.length]; exact hi)] at hentry
  exact (Entry.mk.inj hentry).2.symm

lemma Arises.sound (h : Arises o) : o.Sound := by
  obtain ⟨l, hl⟩ := h.spells
  exact hl.sound

lemma Arises.outgrows (h : Arises o) (e : Edit) : o.Outgrows (o.apply e) := outgrows_apply h.sound e

lemma Arises.dvd_capacity (h : Arises o) : 8 ∣ o.capacity := by
  induction h with
  | empty dynamic => exact Nat.dvd_zero 8
  | instantiated id d extra dynamic separate =>
    have hcapacity : (ofTemplate (TypeInfo.make id d).template extra dynamic separate).capacity =
        Capacity.roundUp ((TypeInfo.make id d).template.size + extra) := Array.size_replicate
    exact hcapacity ▸ Capacity.dvd_ceilTo Capacity.unit _
  | edited o e ho ih => exact (ho.outgrows e).dvd ih

/-- The capacity never shrinks, and arrays that exist are followed by arrays that exist. -/
lemma Arises.capacity_editedAll (h : Arises o) (es : List Edit) :
    o.capacity ≤ (es.foldl apply o).capacity ∧
      (o.storageBytes ≤ Capacity.arrayLimit →
        (es.foldl apply o).storageBytes ≤ Capacity.arrayLimit) := by
  induction es generalizing o with
  | nil => exact ⟨Nat.le_refl _, id⟩
  | cons e es ih =>
    obtain ⟨hle, hlimit⟩ := ih (.edited o e h)
    exact ⟨(h.outgrows e).le.trans hle, fun ho => hlimit ((h.outgrows e).limit ho)⟩

end Object

/-! ### Growth in place -/

/-- No array is granted that could not exist. -/
def Allocator.Bounded (a : Allocator) : Prop :=
  ∀ n, a.slots n = true → n * Capacity.slotBytes ≤ Capacity.arrayLimit

lemma bounded_generous : Allocator.generous.Bounded := fun _ h => of_decide_eq_true h

namespace InPlace

section Follows

variable {α β : Type} {m m' : EditM α} {f f' : α → EditM β}

/-- Where the first edit succeeds, the second one does the same. -/
def Follows (m m' : EditM α) : Prop := ∀ o x o', m.run o = .ok x o' → m'.run o = .ok x o'

lemma Follows.bind (hm : Follows m m') (hf : ∀ x, Follows (f x) (f' x)) :
    Follows (m >>= f) (m' >>= f') := by
  intro o x o' h
  rw [EStateM.run_bind] at h ⊢
  rcases hres : m.run o with ⟨y, p⟩ | ⟨e, p⟩ <;> rw [hres] at h
  · rw [hm o y p hres]
    exact hf y p x o' h
  · cases h

lemma Follows.refl (m : EditM α) : Follows m m := fun _ _ _ h => h

lemma follows_ensure {ok ok' : Bool} (h : ok = true → ok' = true) (e : Failure) :
    Follows (ensure ok e) (ensure ok' e) := by
  cases ok with
  | true => rw [h rfl]; exact .refl _
  | false => exact fun _ _ _ hrun => nomatch hrun

end Follows

variable {a : Allocator}

lemma follows_reserveSlots (ha : a.Bounded) (n : Nat) :
    Follows (reserveSlots a n) (reserveSlots .generous n) := by
  refine Follows.bind (.refl _) fun o => ?_
  split
  · exact .refl _
  · next capacity _ =>
    refine Follows.bind (follows_ensure (fun h => ?_) _) fun _ => .refl _
    exact decide_eq_true (ha capacity h)

lemma follows_reserveNames (n : Nat) :
    Follows (reserveNames a n) (reserveNames .generous n) := by
  refine Follows.bind (.refl _) fun o => ?_
  split
  · exact Follows.bind (.refl _) fun _ => follows_ensure (fun _ => rfl) _
  · exact .refl _

variable [NameHash]

/-- Growth that is granted is the growth that is granted generously. -/
lemma follows_grow (ha : a.Bounded) (n : Nat) : Follows (grow a n) (grow .generous n) := by
  refine Follows.bind (Follows.bind (.refl _) fun o => ?_) fun _ => .refl _
  split
  · refine Follows.bind (follows_reserveSlots ha n) fun capacity => ?_
    exact Follows.bind (follows_reserveNames n) fun _ => .refl _
  · exact .refl _

lemma grow_of_run (ha : a.Bounded) {o o' : Object} {n : Nat}
    (h : (grow a n).run o = .ok () o') : o.grow n = .ok o' := by
  have hrun := follows_grow ha n o () o' h
  rw [run_grow_generous] at hrun
  rcases hg : o.grow n with e | p <;> rw [hg] at hrun
  · cases hrun
  · obtain ⟨-, rfl⟩ := EStateM.Result.ok.inj hrun
    rfl

omit [NameHash] in
/-- Growth by more bytes than a word can tell does not get its array. -/
lemma run_reserveSlots_of_none (ha : a.Bounded) {o : Object} {n : Nat}
    (h : o.growthBytes? n = none) : (reserveSlots a n).run o = .error .outOfMemory o := by
  unfold Object.growthBytes? Capacity.growthBytes? at h
  split at h
  · simp at h
  · unfold reserveSlots
    rw [EStateM.run_bind, EStateM.run_get]
    dsimp only
    rcases hnext : Capacity.next? o.capacity n with _ | capacity
    · rfl
    · rw [hnext, Option.bind_some] at h
      have hbytes : wordLimit ≤ (capacity - o.capacity) * Capacity.slotBytes := by
        by_contra hlt
        rw [word?, if_pos (Nat.not_le.1 hlt)] at h
        simp at h
      have hle := Nat.mul_le_mul_right Capacity.slotBytes (Nat.sub_le capacity o.capacity)
      have hrefused : a.slots capacity = false := by
        by_contra hgranted
        have hlimit := ha capacity (Bool.of_not_eq_false hgranted)
        have : Capacity.arrayLimit < wordLimit := by decide
        omega
      dsimp only
      rw [run_ensure, hrefused]
      rfl

lemma run_grow_of_none (ha : a.Bounded) {o : Object} {n : Nat} (h : o.growthBytes? n = none) :
    (grow a n).run o = .error .outOfMemory o := by
  have hlt : o.capacity < n := by
    by_contra hle
    simp [Object.growthBytes?, Capacity.growthBytes?, Nat.not_lt.1 hle] at h
  unfold grow makeRoom
  rw [EStateM.run_bind, EStateM.run_bind, EStateM.run_get]
  dsimp only
  rw [if_pos hlt, enlarge, EStateM.run_bind, run_reserveSlots_of_none ha h]

end InPlace

namespace Object

variable [NameHash] {o : Object}

lemma grow_of_none {n : Nat} (h : o.growthBytes? n = none) : o.grow n = .error .outOfMemory := by
  have hrun := InPlace.run_grow_of_none bounded_generous h
  rw [InPlace.run_grow_generous] at hrun
  rcases hg : o.grow n with e | p <;> rw [hg] at hrun
  · obtain ⟨rfl, -⟩ := EStateM.Result.error.inj hrun
    rfl
  · cases hrun

/-- **Objects grow as predicted.** Growth that succeeds adds the bytes that were predicted for it,
with every allocator that grants only arrays that can exist, and growth without a prediction fails
for lack of memory. The capacity is a multiple of eight, holds the slots in use and never shrinks;
an edit that raises it raises it to the next step for the slots that are then in use. As long as the
array of the object can exist, so do the arrays that follow it, and all sizes are computed without a
wrap. -/
theorem growth_policy (h : Arises o) :
    (∀ n o', o.grow n = .ok o' →
      ∃ extra, o.growthBytes? n = some extra ∧ o'.storageBytes = o.storageBytes + extra) ∧
    (∀ n, o.growthBytes? n = none → o.grow n = .error .outOfMemory) ∧
    (∀ a : Allocator, a.Bounded → ∀ n,
      (∀ o', (InPlace.grow a n).run o = .ok () o' → o.grow n = .ok o') ∧
      (o.growthBytes? n = none → (InPlace.grow a n).run o = .error .outOfMemory o)) ∧
    8 ∣ o.capacity ∧ o.count ≤ o.capacity ∧
    (∀ n o', o.grow n = .ok o' → o.capacity < o'.capacity →
      Capacity.Steps o.capacity n o'.capacity) ∧
    (∀ e, o.capacity < (o.apply e).capacity →
      Capacity.Steps o.capacity (o.apply e).count (o.apply e).capacity) ∧
    (∀ es : List Edit, o.capacity ≤ (es.foldl apply o).capacity) ∧
    (o.storageBytes ≤ Capacity.arrayLimit → ∀ es : List Edit,
      (es.foldl apply o).storageBytes ≤ Capacity.arrayLimit ∧ Words.Exact (es.foldl apply o)) := by
  have hroom : o.count ≤ o.capacity := h.sound.count_le
  refine ⟨fun n o' hg => storageBytes_grow hg, fun n hn => grow_of_none hn,
    fun a ha n => ⟨fun o' => InPlace.grow_of_run ha, InPlace.run_grow_of_none ha⟩,
    h.dvd_capacity, hroom, fun n o' hg hlt => ?_, fun e hlt => ?_,
    fun es => (h.capacity_editedAll es).1, fun hlimit es => ?_⟩
  · obtain ⟨hcount, hnext⟩ := (outgrows_grow hroom hg).next? hlt
    obtain rfl : o'.count = n := by
      have := count_grow hg
      omega
    exact Capacity.steps_of_next? h.dvd_capacity hcount hnext
  · obtain ⟨hcount, hnext⟩ := (h.outgrows e).next? hlt
    exact Capacity.steps_of_next? h.dvd_capacity hcount hnext
  · have hlimit := (h.capacity_editedAll es).2 hlimit
    exact ⟨hlimit, Words.exact_of_exists (h.editedAll es).sound.count_le hlimit⟩

end Object

namespace Object

/-- Past 256 slots the next capacity is rounded to a quarter and then to eight slots. -/
theorem growth_of_large :
    let o := (empty true).apply (.grow 264)
    o.capacity = 264 ∧ o.growthBytes? 265 = some 576 ∧
      (o.apply (.grow 265)).storageBytes = o.storageBytes + 576 ∧
      o.grow (2 ^ 62) = .error .outOfMemory := by
  have harises : ((empty true).apply (.grow 264)).Arises := .edited _ _ (.empty true)
  have hpolicy := growth_policy harises
  have hcapacity : ((empty true).apply (.grow 264)).capacity = 264 := by decide +kernel
  have hgranted : (((empty true).apply (.grow 264)).grow 265).isOk = true := by decide +kernel
  have hpredicted : ((empty true).apply (.grow 264)).growthBytes? 265 = some 576 := by
    rw [growthBytes?, hcapacity]
    decide
  refine ⟨hcapacity, hpredicted, ?_, hpolicy.2.1 _ ?_⟩
  · rcases hg : ((empty true).apply (.grow 264)).grow 265 with e | o'
    · rw [hg] at hgranted
      cases hgranted
    · obtain ⟨extra, hextra, hbytes⟩ := hpolicy.1 265 o' hg
      obtain rfl : 576 = extra := Option.some.inj (hpredicted.symm.trans hextra)
      rw [← hbytes, apply, edit, hg]
  · rw [growthBytes?, hcapacity]
    decide

end Object

end ScriptHeap
