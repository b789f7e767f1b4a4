import ScriptHeap.Proofs.PassChain

/-!
Root tables right after a pass. Compaction walks through the tables of the collected generations and
lets a holder move on to a table that may be next or may be done already. In both cases the holder
refers into the generation of the table that it ends up in, so what a compacted table lists is right
at the end of the pass. A repair starts from nothing and lists every holder for all the generations
that it refers to.
-/

namespace ScriptHeap

namespace Space

/-- The table of `g` lists live records only, and each of them refers to a younger record of `g`
that is not permanent. -/
def Exact (s : Space) (g : Gen) : Prop :=
  ∀ x ∈ (s.bucket g).roots, ∃ y, s.arena.Crosses x y g

/-- Listing changes no reference, so a table is exact if it is by the references from before. -/
lemma Exact.of_alike {s t : Space} {g : Gen} (ha : s.arena.Alike t.arena)
    (h : ∀ x ∈ (t.bucket g).roots, ∃ y, s.arena.Crosses x y g) : t.Exact g := by
  intro x hx
  obtain ⟨y, hcross⟩ := h x hx
  exact ⟨y, hcross.of_alike ha.symm⟩

/-! ### New holders -/

lemma mem_roots_listAll {moves : List (RecordId × Gen)} {s : Space} {h : Gen} {x : RecordId}
    (hx : x ∈ ((s.listAll moves).bucket h).roots) : x ∈ (s.bucket h).roots ∨ (x, h) ∈ moves := by
  induction moves generalizing s with
  | nil => exact .inl hx
  | cons move moves ih =>
    rcases ih hx with hx | hmem
    · rcases mem_roots_addRoot hx with hx | e
      · exact .inl hx
      · exact .inr (e ▸ List.mem_cons_self)
    · exact .inr (List.mem_cons_of_mem _ hmem)

/-! ### Compaction -/

lemma crosses_of_staysListed {s : Space} {g : Gen} {x : RecordId}
    (h : s.staysListed g x = true) : ∃ y, s.arena.Crosses x y g := by
  rcases hr : s.arena.live? x with _ | r
  · rw [not_staysListed hr] at h
    cases h
  · exact (Arena.contains_youngerThan hr).1 ((staysListed_iff hr).1 h)

/-- A holder moves to the table of a generation that it refers to. -/
lemma crosses_of_movesTo? {s : Space} {g next : Gen} {x : RecordId}
    (h : s.movesTo? g x = some next) : ∃ y, s.arena.Crosses x y next := by
  rcases hr : s.arena.live? x with _ | r
  · simp [movesTo?, references?, hr] at h
  · rcases hout : (s.arena.youngerThan r.header.generation r.body.references).contains g with _ | _
    · rw [movesTo?_eq hr hout] at h
      obtain ⟨hleast, -⟩ := Option.filter_eq_some_iff.1 h
      exact (Arena.contains_youngerThan hr).1 (GenSet.leastAbove?_eq_some hleast).1
    · simp [movesTo?, references?, Arena.header?, hr, hout] at h

/-- **Compaction leaves an exact table behind**, and tables that were exact stay so although holders
move into them. -/
theorem exact_compactTable {s : Space} {stale : Gen → Prop} (hl : s.Listed stale) {g h : Gen}
    (hh : h = g ∨ s.Exact h) : (s.compactTable g).Exact h := by
  refine .of_alike (compacts_compactTable hl g).relisted.alike fun x hx => ?_
  rw [compactTable_eq] at hx
  rcases mem_roots_listAll hx with hx | hmoves
  · obtain ⟨hx, hstays⟩ := (mem_roots_trimmed (hl.nodup g) h x).1 hx
    rcases hh with rfl | hexact
    · exact crosses_of_staysListed (hstays rfl)
    · exact hexact x hx
  · exact crosses_of_movesTo? (mem_moves.1 hmoves).2

lemma exact_compactTables (gs : List Gen) {s : Space} {stale : Gen → Prop} (hl : s.Listed stale)
    {h : Gen} (hh : h ∈ gs ∨ s.Exact h) : (gs.foldl compactTable s).Exact h := by
  induction gs generalizing s stale with
  | nil => exact hh.resolve_left List.not_mem_nil
  | cons g gs ih =>
    refine ih (compacts_compactTable hl g).listed ?_
    rcases hh with hmem | hexact
    · rcases List.mem_cons.1 hmem with rfl | hmem
      · exact .inr (exact_compactTable hl (.inl rfl))
      · exact .inl hmem
    · exact .inr (exact_compactTable hl (.inr hexact))

/-! ### Repair -/

lemma exact_relist {s : Space} {g h : Gen} {holder : RecordId} (hexact : s.Exact h) :
    (s.relist g holder).Exact h := by
  rcases hsome : s.references? holder with _ | refs
  · unfold relist
    rw [hsome]
    exact hexact
  · rw [relist_eq hsome]
    obtain ⟨r, hr, rfl⟩ := references?_eq_some.1 hsome
    set refs := s.arena.youngerThan r.header.generation r.body.references with hrefs
    have h1 := (notes_refLinks s holder refs).relinked
    have h2 := relinked_listAll ((Gen.all.filter fun h => h < g && refs.contains h).map (holder, ·))
      (s.modifyHeader holder ({ · with refLinks := refs }))
    refine .of_alike (h1.trans h2).alike fun x hx => ?_
    rcases mem_roots_listAll hx with hx | hnew
    · exact hexact x hx
    · obtain ⟨j, hj, e⟩ := List.mem_map.1 hnew
      obtain ⟨rfl, rfl⟩ := Prod.mk.inj e
      have hcontains := (Bool.and_eq_true_iff.1 (List.mem_filter.1 hj).2).2
      exact (Arena.contains_youngerThan hr).1 hcontains

lemma exact_relistAll {g h : Gen} (holders : List RecordId) {s : Space} (hexact : s.Exact h) :
    (holders.foldl (relist · g) s).Exact h := by
  induction holders generalizing s with
  | nil => exact hexact
  | cons holder holders ih => exact ih (exact_relist hexact)

lemma exact_relistBuckets {h : Gen} (gs : List Gen) {s : Space} (hexact : s.Exact h) :
    (gs.foldl (fun s g => (s.bucket g).live.foldl (relist · g) s) s).Exact h := by
  induction gs generalizing s with
  | nil => exact hexact
  | cons g gs ih => exact ih (exact_relistAll (s.bucket g).live hexact)

/-- What a repair lists is right. -/
lemma exact_relistedAll (s : Space) (h : Gen) : s.relistedAll.Exact h := by
  refine exact_relistBuckets (Gen.above .new) fun x hx => ?_
  rw [roots_clearRoots] at hx
  cases hx

/-- A repair lists all that it has to, unless a table is full. -/
lemma mem_roots_relistedAll {s : Space} (hb : s.Binned)
    (ho : s.relistedAll.collector.overflow = false) {x y : RecordId} {g : Gen}
    (hcross : s.relistedAll.arena.Crosses x y g) : x ∈ (s.relistedAll.bucket g).roots := by
  have hn := notes_relistedAll hb
  have hbefore := hcross.of_alike hn.relinked.alike
  refine (hn.noted _ (cleared_clearRoots hb).listed x y g trivial hbefore).resolve_right fun h => ?_
  rw [ho] at h
  cases h

/-! ### Passes -/

section Pass

variable [Environment] {p : Pass} {roots : List RecordId} (hs : p.start.Sound)
  (ht : p.target ≤ Gen.old)
include hs ht

lemma exact_finish_of_compaction (hrepair : p.repair = false) {g : Gen} (hg : g ≤ p.target) :
    (p.finish roots).Exact g := by
  have hl := (swept_swept hs ht roots).listed
  have htidied : p.tidied roots = (p.swept roots).resetRoots p.target := by
    unfold Pass.tidied upkeep
    rw [hrepair]
    rfl
  obtain ⟨stats, -, hfinish⟩ := finish_eq p roots
  have hexact : (p.tidied roots).Exact g := by
    rw [htidied]
    exact exact_compactTables (Gen.upTo p.target) hl (.inl (Gen.mem_upTo.2 hg))
  rw [hfinish]
  exact hexact

lemma exact_finish_of_repair (hrepair : p.repair = true) (g : Gen) :
    (p.finish roots).Exact g ∧ ((p.finish roots).collector.overflow = false →
      ∀ x y, (p.finish roots).arena.Crosses x y g → x ∈ ((p.finish roots).bucket g).roots) := by
  have hb := (swept_swept hs ht roots).binned
  have htidied : p.tidied roots = (p.swept roots).rebuildRoots := by
    unfold Pass.tidied upkeep
    rw [hrepair]
    rfl
  have hexact := exact_relistedAll (p.swept roots) g
  have hall (ho : (p.swept roots).relistedAll.collector.overflow = false) (x y : RecordId) :=
    mem_roots_relistedAll hb ho (x := x) (y := y) (g := g)
  obtain ⟨stats, -, hfinish⟩ := finish_eq p roots
  rw [hfinish, htidied, rebuildRoots_eq]
  generalize (p.swept roots).relistedAll = t at hexact hall
  exact ⟨hexact, hall⟩

end Pass

end Space

namespace Heap

open Space

/-- **Root tables are exact after compaction.** Right after a pass without repair, what the tables
of the collected generations list refers into them, and unless a table is full every holder of a
reference into them is listed for its generation or a younger one. Right after a repair, unless a
table is full again, a record is listed for exactly the younger generations that it refers to. -/
theorem rootTables_pass [Environment] {o : HeapOptions} {ops : List Operation}
    (hord : Orderly (fresh o) ops) (op : Operation) :
    let h := run (fresh o) ops
    ∀ p ∈ h.passes op,
      let s := p.finish h.roots
      (p.repair = false → (∀ g ≤ p.target, s.Exact g) ∧
        (s.collector.overflow = false → ∀ x y g, g ≤ p.target → s.arena.Crosses x y g →
          ∃ j ≤ g, x ∈ (s.bucket j).roots)) ∧
      (p.repair = true → s.collector.pendingFull = false ∧
        (s.collector.overflow = false →
          ∀ g x, x ∈ (s.bucket g).roots ↔ ∃ y, s.arena.Crosses x y g)) := by
  intro h p hp s
  have hs : h.toSpace.Steady [] := steady_run ops (steady_fresh o).1 hord
  obtain ⟨mode, -, hmode⟩ := request_of_mem_passes hp
  have hrun := passRun_collect hs.toSound mode h.roots
  obtain ⟨hstart, hcovered, ht⟩ := hrun.starts hs.toSound hs.covered p hmode
  have hpass : Passes p.start s p.target h.roots p.repair := passes_finish hstart ht h.roots
  refine ⟨fun hrepair => ⟨fun g hg => exact_finish_of_compaction hstart ht hrepair hg,
    fun ho x y g _ hcross => ?_⟩, fun hrepair => ⟨?_, fun ho g x => ⟨?_, ?_⟩⟩⟩
  · -- a request that compacts did not have to repair the tables, so no full pass is pending
    have hn : h.toSpace.needsRepair = false := by
      rcases passList_cases h.toSpace mode h.roots with ⟨-, hall⟩ | ⟨hn, -⟩
      · rw [(hall p hmode).1] at hrepair
        cases hrepair
      · exact hn
    have hpending : s.collector.pendingFull = false := by
      rw [hpass.pendingFull, hrun.pendingFull (Bool.or_eq_false_iff.1 hn).2 p hmode,
        Bool.false_and]
    have hready : s.needsRepair = false := by simp [needsRepair, ho, hpending]
    exact hpass.covered (.inl hcovered) hready x y g List.not_mem_nil hcross
  · rw [hpass.pendingFull, hrepair, Bool.not_true, Bool.and_false]
  · exact (exact_finish_of_repair hstart ht hrepair g).1 x
  · rintro ⟨y, hcross⟩
    exact (exact_finish_of_repair hstart ht hrepair g).2 ho x y hcross

/-- An old object gets the only reference to a new one. -/
def elderRun : List Operation := [.setAllocGeneration .old, .createPlainObject,
  .setAllocGeneration .new, .createPlainObject, .setProperty 1 (-1) (some 2)]

/-- The old object is listed after a quick pass. -/
theorem rootTables_quick_pass :
    let h := run (fresh (.tuned .balanced)) elderRun
    ∃ p ∈ h.passes (.collect .quick), p.repair = false ∧
      ∃ j ≤ Gen.new, 1 ∈ ((p.finish h.roots).bucket j).roots := by
  have hord : Orderly (fresh (.tuned .balanced)) elderRun :=
    ⟨trivial, trivial, trivial, trivial, trivial, trivial⟩
  have hpass := rootTables_pass hord (.collect .quick)
  have hon : (run (fresh (.tuned .balanced)) elderRun).collector.enabled = true := by cbv
  have hidle : (run (fresh (.tuned .balanced)) elderRun).collector.phase = .idle := by cbv
  have hready : (run (fresh (.tuned .balanced)) elderRun).needsRepair = false := by cbv
  have hholder : ((Pass.finish ⟨(run (fresh (.tuned .balanced)) elderRun).awake, .new, false⟩
      (run (fresh (.tuned .balanced)) elderRun).roots).arena.live? 1).map (fun r =>
      (r.body.references, r.header.generation)) = some ([2], .old) := by cbv
  have htarget : ((Pass.finish ⟨(run (fresh (.tuned .balanced)) elderRun).awake, .new, false⟩
      (run (fresh (.tuned .balanced)) elderRun).roots).arena.live? 2).map (fun r =>
      (r.header.permanent, r.header.generation)) = some (false, .new) := by cbv
  have hroom : (Pass.finish ⟨(run (fresh (.tuned .balanced)) elderRun).awake, .new, false⟩
      (run (fresh (.tuned .balanced)) elderRun).roots).collector.overflow = false := by cbv
  generalize run (fresh (.tuned .balanced)) elderRun = h at *
  have hlist : h.passes (.collect .quick) = [⟨h.awake, .new, false⟩] := by
    simp [passes, request?, passList, hon, hidle, hready]
  have hcompacts : (Pass.mk h.awake .new false).repair = false := rfl
  have hyoungest : (Pass.mk h.awake .new false).target = .new := rfl
  dsimp only at hpass ⊢
  rw [hlist] at hpass ⊢
  generalize Pass.mk h.awake .new false = p at *
  obtain ⟨-, hcovered⟩ := (hpass p (List.mem_singleton_self p)).1 hcompacts
  obtain ⟨r, hr, er⟩ := Option.map_eq_some_iff.1 hholder
  obtain ⟨q, hq, eq⟩ := Option.map_eq_some_iff.1 htarget
  obtain ⟨hrefs, hold⟩ := Prod.mk.inj er
  obtain ⟨hperm, hnew⟩ := Prod.mk.inj eq
  have hcross : (p.finish h.roots).arena.Crosses 1 2 .new :=
    ⟨r, q, hr, hrefs ▸ List.mem_singleton_self 2, hq, hperm, hnew, hold ▸ by decide⟩
  exact ⟨p, List.mem_singleton_self p, hcompacts,
    hcovered hroom 1 2 .new hyoungest.ge hcross⟩

end Heap

end ScriptHeap
