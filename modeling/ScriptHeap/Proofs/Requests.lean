import ScriptHeap.Proofs.Collection

/-!
Collection requests. A request makes a list of passes, one after the other. Between them nothing
but counters changes. As long as no pass starts with a table known to be full without repairing the
tables, the space stays closed and covered. In general a request keeps what is in use exactly if
each pass that starts with a full table happens to mark what is in use all the same.
-/

namespace ScriptHeap.Space

/-- A pass that a request makes. -/
structure Pass where
  start : Space
  target : Gen
  repair : Bool

/-- The space in which a request makes its first pass. -/
def awake (s : Space) : Space :=
  { s with collector := { s.collector with required := false, workDone := 0 } }

/-- At most `n` smart passes. -/
def smartPassList [Environment] (roots : List RecordId) : Nat → Space → List Pass
  | 0, _ => []
  | n + 1, s =>
    match s.smartTarget? with
    | none => []
    | some target =>
      ⟨s, target, false⟩ ::
        smartPassList roots n (s.collectPass target roots false (.start .smart)).2

/-- The passes of a request. -/
def passList [Environment] (s : Space) (mode : Mode) (roots : List RecordId) : List Pass :=
  if !s.collector.enabled || s.collector.phase ≠ .idle then []
  else if s.needsRepair then [⟨s.awake, .old, true⟩]
  else
    match mode with
    | .quick => [⟨s.awake, .new, false⟩]
    | .full => [⟨s.awake, .old, false⟩]
    | .smart => smartPassList roots smartPassLimit s.awake

/-- No pass of the request starts with a table known to be full, unless it repairs the tables. -/
def Calm [Environment] (s : Space) (mode : Mode) (roots : List RecordId) : Prop :=
  ∀ p ∈ s.passList mode roots, p.start.collector.overflow = true → p.repair = true

/-- Passes that lead from one space to another. -/
inductive PassRun (roots : List RecordId) : Space → List Pass → Space → Prop
  | done {s s' : Space} : Quiet s s' → PassRun roots s [] s'
  | pass {s s1 s2 : Space} {p : Pass} {ps : List Pass} :
    Quiet s p.start → p.target ≤ Gen.old → Passes p.start s1 p.target roots p.repair →
    PassRun roots s1 ps s2 → PassRun roots s (p :: ps) s2

lemma le_old_of_smartTarget? {s : Space} {target : Gen} (h : s.smartTarget? = some target) :
    target ≤ Gen.old := by
  unfold smartTarget? at h
  dsimp only at h
  split at h
  · simp at h
  · obtain rfl := Option.some.inj h
    rcases hf : [Gen.old, .young, .new].find?
      (fun g => s.collector.workQuota < (s.bucket g).newlyCreated) with _ | g
    · rw [Option.getD_none]
      simp only [List.foldl_cons, List.foldl_nil]
      split <;> try split
      all_goals decide
    · rw [Option.getD_some]
      have := List.mem_of_find?_eq_some hf
      simp only [List.mem_cons, List.not_mem_nil, or_false] at this
      rcases this with rfl | rfl | rfl <;> decide

lemma passRun_smartPasses [Environment] (roots : List RecordId) (n : Nat) (info : CollectInfo)
    {s : Space} (hs : s.Sound) :
    PassRun roots s (smartPassList roots n s) (smartPasses roots n info s).2 := by
  induction n generalizing info s with
  | zero => exact .done (Quiet.refl s)
  | succ n ih =>
    rcases ht : s.smartTarget? with _ | target
    · simp only [smartPassList, smartPasses, ht]
      exact .done (Quiet.refl s)
    · simp only [smartPassList, smartPasses, ht]
      have hle := le_old_of_smartTarget? ht
      have hp := passes_collectPass hs (lt_of_le_of_lt hle Gen.old_lt_eternal) roots false info
      exact .pass (Quiet.refl s) hle hp (ih _ hp.sound)

lemma PassRun.trans_quiet {roots : List RecordId} {s s' s'' : Space} {ps : List Pass}
    (h : PassRun roots s ps s') (hq : Quiet s' s'') : PassRun roots s ps s'' := by
  induction h with
  | done h => exact .done (h.trans hq)
  | pass h ht hp _ ih => exact .pass h ht hp (ih hq)

lemma PassRun.of_quiet {roots : List RecordId} {s s' s'' : Space} {ps : List Pass}
    (h : PassRun roots s' ps s'') (hq : Quiet s s') : PassRun roots s ps s'' := by
  cases h with
  | done h => exact .done (hq.trans h)
  | pass h ht hp hr => exact .pass (hq.trans h) ht hp hr

/-- A request makes its passes. -/
theorem passRun_collect [Environment] {s : Space} (hs : s.Sound) (mode : Mode)
    (roots : List RecordId) : PassRun roots s (s.passList mode roots) (s.collect mode roots).2 := by
  have hquiet : Quiet s s.awake := ⟨rfl, rfl, rfl, rfl, rfl, rfl, rfl, rfl⟩
  have hawake := hquiet.sound hs
  have hpass {target : Gen} (ht : target ≤ Gen.old) (repair : Bool) (info : CollectInfo) :
      PassRun roots s [⟨s.awake, target, repair⟩]
        (s.awake.collectPass target roots repair info).2 :=
    .pass hquiet ht (passes_collectPass hawake (lt_of_le_of_lt ht Gen.old_lt_eternal) roots repair
      info) (.done (Quiet.refl _))
  unfold collect passList
  split
  · exact .done (Quiet.refl s)
  · suffices h : PassRun roots s _ (s.awake.runPasses mode roots).2 from
      h.trans_quiet ⟨rfl, rfl, rfl, rfl, rfl, rfl, rfl, rfl⟩
    unfold runPasses
    rw [hquiet.needsRepair]
    split
    · exact hpass (le_refl _) true _
    · rcases mode with _ | _ | _
      · exact hpass (by decide) false _
      · have := passRun_smartPasses roots smartPassLimit (.start .smart) hawake
        exact this.of_quiet hquiet
      · exact hpass (le_refl _) false _

/-! ### What a request preserves -/

section Run

variable {roots : List RecordId} {s s' : Space} {ps : List Pass} (h : PassRun roots s ps s')
include h

lemma PassRun.sound (hs : s.Sound) : s'.Sound := by
  induction h with
  | done h => exact h.sound hs
  | pass _ _ hp _ ih => exact ih hp.sound

lemma PassRun.rootCapacity : s'.collector.rootCapacity = s.collector.rootCapacity := by
  induction h with
  | done h => exact h.rootCapacity
  | pass h _ hp _ ih => exact ih.trans (hp.rootCapacity.trans h.rootCapacity)

lemma PassRun.covered (hc : s.Covered []) : s'.Covered [] := by
  induction h with
  | done h => exact h.covered hc
  | pass h _ hp _ ih => exact ih (hp.covered (.inl (h.covered hc)))

/-- A record that is there after a request was there before, and stayed what it was. -/
lemma PassRun.ages {id : RecordId} {q : Record} (hq : s'.arena.live? id = some q) :
    ∃ r, s.arena.live? id = some r ∧ q.lasting = r.lasting ∧
      r.header.generation ≤ q.header.generation ∧
      (Gen.old < q.header.generation → Gen.old < r.header.generation) := by
  induction h with
  | done h => exact ⟨q, h.arena ▸ hq, rfl, le_refl _, fun h => h⟩
  | pass h _ hp _ ih =>
    obtain ⟨p, hp', e, hle, hold⟩ := ih hq
    obtain ⟨r, hr, e', hg⟩ := hp.ages id p hp'
    refine ⟨r, h.arena ▸ hr, e.trans e', ?_⟩
    rcases hg with hg | ⟨hlt, hg⟩
    · exact ⟨hg ▸ hle, fun ho => hg ▸ hold ho⟩
    · refine ⟨(hg ▸ Gen.le_next _).trans hle, fun ho => absurd (hold ho) ?_⟩
      rw [hg, not_lt]
      exact Gen.next_le hlt

/-- Where a pass starts the space is sound and its root tables are in order. -/
lemma PassRun.starts (hs : s.Sound) (hc : s.Covered []) :
    ∀ p ∈ ps, p.start.Sound ∧ p.start.Covered [] ∧ p.target ≤ Gen.old := by
  induction h with
  | done => simp
  | pass h ht hp _ ih =>
    have := ih hp.sound (hp.covered (.inl (h.covered hc)))
    simpa using ⟨⟨h.sound hs, h.covered hc, ht⟩, this⟩

lemma PassRun.pendingFull (hpend : s.collector.pendingFull = false) :
    ∀ p ∈ ps, p.start.collector.pendingFull = false := by
  induction h with
  | done => simp
  | pass h _ hp _ ih =>
    have hpend' := h.pendingFull.trans hpend
    simpa [hpend'] using ih (by simp [hp.pendingFull, hpend'])

lemma PassRun.closed (hs : s.Sound) (hc : s.arena.Closed)
    (hready : ∀ p ∈ ps, p.start.Ready p.target p.repair) : s'.arena.Closed := by
  induction h with
  | done h => exact h.arena ▸ hc
  | @pass s s1 _ p ps h ht hp _ ih =>
    refine ih hp.sound ?_ fun p' hp' => hready p' (List.mem_cons_of_mem _ hp')
    exact hp.closed (h.sound hs) (lt_of_le_of_lt ht Gen.old_lt_eternal) (hready p (by simp))
      (h.arena ▸ hc)

end Run

lemma repair_smartPassList [Environment] (roots : List RecordId) (n : Nat) (s : Space) :
    ∀ p ∈ smartPassList roots n s, p.repair = false := by
  induction n generalizing s with
  | zero => simp [smartPassList]
  | succ n ih =>
    unfold smartPassList
    split
    · simp
    · simpa using ih _

/-- The passes of a request repair the tables, or none of them does. -/
lemma passList_cases [Environment] (s : Space) (mode : Mode) (roots : List RecordId) :
    s.needsRepair = true ∧ (∀ p ∈ s.passList mode roots, p.repair = true ∧ p.target = Gen.old) ∨
      s.needsRepair = false ∧ ∀ p ∈ s.passList mode roots, p.repair = false := by
  unfold passList
  rcases hn : s.needsRepair with _ | _
  · refine .inr ⟨rfl, ?_⟩
    split
    · simp
    · rcases mode with _ | _ | _
      · simp
      · simpa using repair_smartPassList roots smartPassLimit s.awake
      · simp
  · refine .inl ⟨rfl, ?_⟩
    split <;> simp

/-- A pass that repairs the tables or starts with no full table can trust them. -/
lemma ready_of_mem_passList [Environment] {s : Space} (hs : s.Sound) (hc : s.Covered [])
    {mode : Mode} {roots : List RecordId} {p : Pass} (hp : p ∈ s.passList mode roots)
    (hcalm : p.start.collector.overflow = true → p.repair = true) :
    p.start.Ready p.target p.repair := by
  rcases passList_cases s mode roots with ⟨-, h⟩ | ⟨hn, h⟩
  · exact .inr (h p hp)
  · have hrun := passRun_collect hs mode roots
    have hpend := hrun.pendingFull (Bool.or_eq_false_iff.1 hn).2 p hp
    refine .inl ⟨(hrun.starts hs hc p hp).2.1, ?_⟩
    rcases ho : p.start.collector.overflow with _ | _
    · simp [needsRepair, ho, hpend]
    · exact absurd (hcalm ho) (by simp [h p hp])

/-- What holds between the operations of an orderly run, and inside them but for some pending
references. -/
structure Steady (s : Space) (pending : List (RecordId × RecordId)) : Prop extends s.Sound where
  closed : s.arena.Closed
  covered : s.Covered pending

/-- **A calm request leaves no dangling reference**, and the tables cover what they have to. -/
theorem Steady.collect [Environment] {s : Space} (hs : s.Steady []) {mode : Mode}
    {roots : List RecordId} (hcalm : s.Calm mode roots) : (s.collect mode roots).2.Steady [] := by
  have hrun := passRun_collect hs.toSound mode roots
  exact ⟨hrun.sound hs.toSound,
    hrun.closed hs.toSound hs.closed fun p hp =>
      ready_of_mem_passList hs.toSound hs.covered hp (hcalm p hp),
    hrun.covered hs.covered⟩

/-! ### Requests of one pass -/

/-- A quick or full request makes one pass, and that one repairs full tables. -/
lemma calm_of_ne_smart [Environment] {s : Space} {mode : Mode} (hmode : mode ≠ .smart)
    (roots : List RecordId) : s.Calm mode roots := by
  intro p hp ho
  rcases passList_cases s mode roots with ⟨-, h⟩ | ⟨hn, -⟩
  · exact (h p hp).1
  · have hstart : p.start = s.awake := by
      unfold passList at hp
      split at hp
      · simp at hp
      · rcases mode with _ | _ | _
        · simp_all
        · exact absurd rfl hmode
        · simp_all
    rw [hstart] at ho
    have : s.collector.overflow = false := (Bool.or_eq_false_iff.1 hn).1
    exact absurd ho (by simp [awake, this])

/-- The generations that a quick or full request collects. -/
def requestTarget (s : Space) (mode : Mode) : Gen :=
  if s.needsRepair then .old else match mode with
    | .quick => .new
    | _ => .old

/-- **A quick or full request keeps exactly the right records.** Of the generations it collects it
keeps what can be reached from the heap roots, from permanent records and from elder records, and
of the others all. -/
theorem live_collect_iff [Environment] {s : Space} (hs : s.Steady []) {mode : Mode}
    (hmode : mode ≠ .smart) (roots : List RecordId) (hon : s.collector.enabled = true)
    {id : RecordId} {r : Record} (hr : s.arena.live? id = some r) :
    (∃ q, (s.collect mode roots).2.arena.live? id = some q) ↔
      (r.header.generation ≤ s.requestTarget mode →
        s.arena.Reaches (s.Anchored (s.requestTarget mode) roots) id) := by
  have hlist : s.passList mode roots = [⟨s.awake, s.requestTarget mode, s.needsRepair⟩] := by
    unfold passList requestTarget
    rw [if_neg (by simp [hon, hs.idle])]
    rcases hn : s.needsRepair with _ | _
    · rcases mode with _ | _ | _
      · rfl
      · exact absurd rfl hmode
      · rfl
    · rfl
  have hready := ready_of_mem_passList hs.toSound hs.covered
    (p := ⟨s.awake, s.requestTarget mode, s.needsRepair⟩) (by rw [hlist]; simp)
    fun ho => Bool.or_eq_true_iff.2 (.inl ho)
  have hrun := passRun_collect hs.toSound mode roots
  rw [hlist] at hrun
  cases hrun with
  | @pass _ s1 _ _ _ hq ht hp hrest =>
    cases hrest with
    | done hq' =>
      rw [hq'.arena]
      have hsound := hq.sound hs.toSound
      by_cases hg : r.header.generation ≤ s.requestTarget mode
      · rw [forall_prop_of_true hg]
        exact hp.live_iff_reaches hsound (lt_of_le_of_lt ht Gen.old_lt_eternal)
          hready hr hg
      · exact iff_of_true ((hp.survives id r hr).2 fun h => absurd h hg) fun h => absurd h hg

/-! ### What is in use -/

/-- The record can be reached from the heap roots, from permanent records or from eternal ones. -/
def InUse (s : Space) (roots : List RecordId) (id : RecordId) : Prop :=
  s.arena.Reaches (s.Anchored .old roots) id

/-- The pass marks what is in use in the generations it collects. -/
def Pass.Keeps (p : Pass) (roots : List RecordId) : Prop :=
  ∀ id r, p.start.InUse roots id → p.start.arena.live? id = some r →
    r.header.generation ≤ p.target → p.start.Marks p.target roots p.repair id

/-- A pass that can trust the root tables marks what is in use. -/
lemma keeps_of_ready {p : Pass} {roots : List RecordId} (hs : p.start.Sound)
    (ht : p.target ≤ Gen.old) (hready : p.start.Ready p.target p.repair) : p.Keeps roots := by
  intro id r hid hr hg
  refine marks_of_reaches hs.worklist hs.unmarked hs.binned
    (lt_of_le_of_lt ht Gen.old_lt_eternal) hready (hid.mono fun j hj => ?_) hr hg
  rcases hj with hj | ⟨q, hq, hp | hold⟩
  · exact .inl hj
  · exact .inr ⟨q, hq, .inl hp⟩
  · exact .inr ⟨q, hq, .inr (lt_of_le_of_lt ht hold)⟩

/-- What a pass keeps stays in use. -/
lemma Passes.inUse {s s' : Space} {target : Gen} {roots : List RecordId} {repair : Bool}
    (hp : Passes s s' target roots repair)
    (hkeep : ∀ id r, s.InUse roots id → s.arena.live? id = some r →
      r.header.generation ≤ target → s.Marks target roots repair id)
    {id : RecordId} (h : s.InUse roots id) : s'.InUse roots id := by
  have hlive {j : RecordId} {r : Record} (hj : s.InUse roots j) (hr : s.arena.live? j = some r) :=
    hp.survivor hr fun hg => hkeep j r hj hr hg
  induction h with
  | @base j r hb hr =>
    obtain ⟨q, hq, e, hg⟩ := hlive (.base hb hr) hr
    rcases hb with hb | ⟨r', hr', hanchor⟩
    · exact .base (.inl hb) hq
    · rw [hr] at hr'
      obtain rfl := Option.some.inj hr'
      refine .base (.inr ⟨q, hq, ?_⟩) hq
      rcases hanchor with hperm | hold
      · exact .inl ((Record.permanent_of_lasting e).trans hperm)
      · rcases hg with hg | ⟨hlt, -⟩
        · exact .inr (hg ▸ hold)
        · exact absurd hold hlt.le.not_gt
  | @step x y r q hx hr hy hq ih =>
    obtain ⟨r', hr', e, -⟩ := hlive hx hr
    obtain ⟨q', hq', -, -⟩ := hlive (.step hx hr hy hq) hq
    exact .step ih hr' (Record.body_of_lasting e ▸ hy) hq'

section Run

variable {roots : List RecordId} {s s' : Space} {ps : List Pass} (h : PassRun roots s ps s')
include h

/-- Nothing comes into use in a request. -/
lemma PassRun.inUse_of_inUse {id : RecordId} (hid : s'.InUse roots id) : s.InUse roots id := by
  induction hid with
  | base hb hq =>
    obtain ⟨r, hr, e, -, hold⟩ := h.ages hq
    rcases hb with hb | ⟨q', hq', hanchor⟩
    · exact .base (.inl hb) hr
    · rw [hq] at hq'
      obtain rfl := Option.some.inj hq'
      refine .base (.inr ⟨r, hr, ?_⟩) hr
      rcases hanchor with hperm | hgen
      · exact .inl ((Record.permanent_of_lasting e).symm.trans hperm)
      · exact .inr (hold hgen)
  | step _ hq hy hp ih =>
    obtain ⟨r, hr, e, -⟩ := h.ages hq
    obtain ⟨p, hp, -⟩ := h.ages hp
    exact .step ih hr (Record.body_of_lasting e ▸ hy) hp

/-- **What is in use survives** a run of passes exactly if each pass keeps it. -/
lemma PassRun.keeps_iff : (∀ id, s.InUse roots id → ∃ q, s'.arena.live? id = some q) ↔
    ∀ p ∈ ps, p.Keeps roots := by
  induction h with
  | done h =>
    refine ⟨fun _ => by simp, fun _ id hid => ?_⟩
    rw [h.arena]
    exact hid.live
  | @pass s s1 s2 p ps h ht hp hrest ih =>
    have hone : PassRun roots s [p] s1 := .pass h ht hp (.done (Quiet.refl _))
    have hstart {id : RecordId} : s.InUse roots id ↔ p.start.InUse roots id := by
      unfold InUse Anchored
      rw [h.arena]
    rw [List.forall_mem_cons, ← ih]
    constructor
    · intro hall
      refine ⟨fun id r hid hr => ?_, fun id hid => hall id (hone.inUse_of_inUse hid)⟩
      obtain ⟨q, hq⟩ := hall id (hstart.2 hid)
      obtain ⟨q', hq', -⟩ := hrest.ages hq
      exact (hp.survives id r hr).1 ⟨q', hq'⟩
    · rintro ⟨hkeep, hall⟩ id hid
      exact hall id (hp.inUse hkeep (hstart.1 hid))

end Run

/-- **When a request loses a record in use.** It does so exactly if a pass that starts with a full
table, and does not repair the tables, misses one. -/
theorem collect_keeps_iff [Environment] {s : Space} (hs : s.Steady []) (mode : Mode)
    (roots : List RecordId) :
    (∀ id, s.InUse roots id → ∃ q, (s.collect mode roots).2.arena.live? id = some q) ↔
      ∀ p ∈ s.passList mode roots, p.start.collector.overflow = true → p.repair = false →
        p.Keeps roots := by
  have hrun := passRun_collect hs.toSound mode roots
  rw [hrun.keeps_iff]
  refine ⟨fun h p hp _ _ => h p hp, fun h p hp => ?_⟩
  by_cases hbad : p.start.collector.overflow = true ∧ p.repair = false
  · exact h p hp hbad.1 hbad.2
  · obtain ⟨hsound, -, ht⟩ := hrun.starts hs.toSound hs.covered p hp
    refine keeps_of_ready hsound ht (ready_of_mem_passList hs.toSound hs.covered hp fun ho => ?_)
    simpa [ho] using hbad

end ScriptHeap.Space
