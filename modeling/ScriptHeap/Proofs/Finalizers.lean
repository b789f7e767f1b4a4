import ScriptHeap.Proofs.Aging
import ScriptHeap.Proofs.Deaths

/-!
Finalizers. The finalizer of a type is called on the payload of a record when a sweep reclaims the
record, and never else. So the payloads that are finalized can be told from the records that die:
each of them gives one, if it has a payload and its type a finalizer, and it is the payload that the
record had last.
-/

namespace ScriptHeap

namespace Space

/-- The payload that is finalized when the record is reclaimed. -/
def finalizes? (s : Space) (r : Record) : Option Payload :=
  if (s.types.get? r.type).any (·.finalizer) then r.body.payload? else none

lemma finalizes?_eq_some {s : Space} {r : Record} {payload : Payload} :
    s.finalizes? r = some payload ↔ ∃ info, s.types.get? r.type = some info ∧
      info.finalizer = true ∧ r.body = .native payload := by
  unfold finalizes?
  rcases hinfo : s.types.get? r.type with _ | info
  · simp
  · rcases hf : info.finalizer with _ | _
    · simp [hf]
    · rcases hb : r.body with _ | _ | _ | _ | p | _ | _ <;> simp [hf, Body.payload?]

lemma epitaph?_eq (s : Space) (r : Record) :
    s.epitaph? r = (s.finalizes? r).bind Payload.epitaph? := by
  unfold epitaph? finalizes?
  split <;> rfl

/-- **No change but a collection calls a finalizer.** -/
theorem Change.finalized [Environment] {strict : Prop} {may : Command → Prop} {limit : Nat}
    {d d' : Draft} (h : Change strict may limit d d') (hmay : ¬ may .collect) :
    d'.space.finalized = d.space.finalized := by
  cases h with
  | note _ =>
    exact congrArg Tally.finalized (tally_of_bare (notes_recordReference _ _ _).relinked.bare)
  | noteAll _ =>
    exact congrArg Tally.finalized (tally_of_bare (notes_recordReferences _ _).relinked.bare)
  | collect _ _ hc _ => exact absurd hc hmay
  | _ => rfl

lemma Changes.finalized [Environment] {strict : Prop} {may : Command → Prop} {limit : Nat}
    {d d' : Draft} (h : Changes strict may limit d d') (hmay : ¬ may .collect) :
    d'.space.finalized = d.space.finalized := by
  induction h with
  | refl => rfl
  | tail _ hstep ih => exact (hstep.finalized hmay).trans ih

/-- Until a pass starts, what it reclaims has stayed what it was. -/
lemma PassChain.reaps_start [Environment] {roots : List RecordId} {s t : Space} {ps : List Pass}
    (h : PassChain roots s ps t) (hs : s.Sound) :
    ∀ p ∈ ps, ∃ ids, Reaps s p.start ids := by
  induction h with
  | nil => simp
  | @cons p ps s ht _ ih =>
    have hfirst := (reaps_finish hs ht roots).1
    intro q hq
    rcases List.mem_cons.1 hq with rfl | hq
    · exact ⟨[], .of_alike (.refl _) rfl⟩
    · obtain ⟨ids, hids⟩ := ih (passes_finish hs ht roots).sound q hq
      exact ⟨_, hfirst.trans hids⟩

end Space

namespace Heap

open Space

variable [Environment] {h : Heap} {op : Operation}

/-- The payloads that the operation finalizes, each with its record, in this order. -/
def finalizations (h : Heap) (op : Operation) : List (RecordId × Payload) :=
  (h.deaths op).filterMap fun id =>
    ((h.arena.live? id).bind h.toSpace.finalizes?).map (id, ·)

/-- The payloads that a run finalizes. -/
def finalizationsAlong : Heap → List Operation → List (RecordId × Payload)
  | _, [] => []
  | h, op :: ops => h.finalizations op ++ finalizationsAlong (apply op h).2 ops

lemma mem_finalizations {id : RecordId} {payload : Payload} :
    (id, payload) ∈ h.finalizations op ↔ id ∈ h.deaths op ∧
      ∃ r info, h.arena.live? id = some r ∧ h.types.get? r.type = some info ∧
        info.finalizer = true ∧ r.body = .native payload := by
  simp only [finalizations, List.mem_filterMap, Option.map_eq_some_iff, Option.bind_eq_some_iff,
    finalizes?_eq_some, Prod.mk.injEq]
  constructor
  · rintro ⟨_, hid, _, ⟨r, hr, info, hinfo, hf, hb⟩, rfl, rfl⟩
    exact ⟨hid, r, info, hr, hinfo, hf, hb⟩
  · rintro ⟨hid, r, info, hr, hinfo, hf, hb⟩
    exact ⟨id, hid, payload, ⟨r, hr, info, hinfo, hf, hb⟩, rfl, rfl⟩

/-- A record that dies is finalized at most once, when its turn comes. -/
lemma finalizations_sublist : ((h.finalizations op).map (·.1)).Sublist (h.deaths op) := by
  unfold finalizations
  generalize h.deaths op = ids
  induction ids with
  | nil => exact .slnil
  | cons id ids ih =>
    rcases he : (h.arena.live? id).bind h.toSpace.finalizes? with _ | payload
    · rw [List.filterMap_cons_none (by simp [he])]
      exact ih.cons id
    · rw [List.filterMap_cons_some (b := (id, payload)) (by simp [he])]
      exact ih.cons_cons id

lemma deaths_of_request?_eq_none (hreq : h.request? op = none) : h.deaths op = [] := by
  unfold deaths
  rw [passes_of_request?_eq_none hreq]
  rfl

/-- **The records that an operation reclaims** are those that are live before it and not after
it, and each is reclaimed once. -/
theorem deaths_apply (hs : h.toSpace.Sound) (op : Operation) : (h.deaths op).Nodup ∧
    ∀ id, id ∈ h.deaths op ↔
      h.arena.isLive id = true ∧ (apply op h).2.arena.isLive id = false := by
  rcases hreq : h.request? op with _ | mode
  · rw [deaths_of_request?_eq_none hreq]
    refine ⟨List.nodup_nil, fun id => ?_⟩
    have hspares := (spares_apply hs hreq).live id
    constructor
    · rintro ⟨⟩
    · rintro ⟨hlive, hdead⟩
      obtain ⟨r, hr⟩ := Arena.isLive_iff.1 hlive
      obtain ⟨q, hq, -⟩ := hspares r hr
      rw [Arena.isLive_iff.2 ⟨q, hq⟩] at hdead
      cases hdead
  · have hreaps := (reaps_apply hs hreq).1
    refine ⟨hreaps.nodup, fun id => ?_⟩
    rw [hreaps.mem, Arena.isLive_iff, Arena.isLive, Option.isSome_eq_false_iff,
      Option.isNone_iff_eq_none]

omit [Environment] in
/-- A record that dies leaves the tag of the probe that it holds, if its type has a finalizer. -/
lemma bind_epitaph? (h : Heap) (id : RecordId) : (h.arena.live? id).bind h.toSpace.epitaph? =
    match h.arena.live? id with
    | some ⟨_, type, .native (.probe tag _)⟩ =>
      if (h.types.get? type).any (·.finalizer) then some tag else none
    | _ => none := by
  rcases h.arena.live? id with _ | ⟨header, type, body⟩
  · rfl
  · cases body with
    | native payload =>
      cases payload with
      | probe tag refs => rfl
      | _ => exact ite_self none
    | _ => exact ite_self none

lemma tags_finalizations : (h.finalizations op).filterMap (·.2.epitaph?) =
    (h.deaths op).filterMap fun id => (h.arena.live? id).bind h.toSpace.epitaph? := by
  rw [finalizations, List.filterMap_filterMap]
  refine List.filterMap_congr fun id _ => ?_
  rcases h.arena.live? id with _ | r
  · rfl
  · rw [Option.bind_some, Option.bind_some, epitaph?_eq]
    rcases h.toSpace.finalizes? r with _ | payload <;> rfl

/-- **The tags that an operation adds** are those of the probes that it finalizes. -/
theorem finalized_apply (hs : h.toSpace.Sound) (op : Operation) : (apply op h).2.finalized =
    h.finalized ++ (h.finalizations op).filterMap (·.2.epitaph?) := by
  rw [tags_finalizations]
  rcases hreq : h.request? op with _ | mode
  · obtain ⟨P, hP, -⟩ := evolves_apply hs op False.elim
    rw [deaths_of_request?_eq_none hreq, List.filterMap_nil, List.append_nil]
    exact hP.changes.finalized (not_asks_collect hreq)
  · exact (reaps_apply hs hreq).1.finalized

lemma finalized_run (ops : List Operation) (hs : h.toSpace.Sound) : (run h ops).finalized =
    h.finalized ++ (h.finalizationsAlong ops).filterMap (·.2.epitaph?) := by
  induction ops generalizing h with
  | nil => exact (List.append_nil _).symm
  | cons op ops ih =>
    have hrest := ih (sound_apply hs op)
    rw [finalizationsAlong, List.filterMap_append, ← List.append_assoc, ← finalized_apply hs op]
    exact hrest

/-- When a pass comes to reclaim a record, type and body are those from before the operation. -/
lemma live?_start_of_passes (hs : h.toSpace.Sound) {p : Pass} (hp : p ∈ h.passes op)
    {id : RecordId} (hid : id ∈ p.deaths h.roots) : ∃ q r, p.start.arena.live? id = some q ∧
      h.arena.live? id = some r ∧ q.type = r.type ∧ q.body = r.body := by
  obtain ⟨mode, hreq, -⟩ := request_of_mem_passes hp
  obtain ⟨s, t, hchain, hsound, hbefore, -⟩ := chain_apply hs hreq
  obtain ⟨hstart, ht⟩ := hchain.starts hsound p hp
  obtain ⟨ids, hreaps⟩ := hchain.reaps_start hsound p hp
  obtain ⟨⟨q, hq⟩, -⟩ := ((reaps_finish hstart ht h.roots).1.mem id).1 hid
  obtain ⟨r, hr, e⟩ := hreaps.lasting id q hq
  exact ⟨q, r, hq, (hbefore.live id).symm.trans hr, Record.type_of_lasting e,
    Record.body_of_lasting e⟩

/-- **Finalizers run exactly once, and on death only.** The tags that finalizers have left behind in
a run are those of the probes among the payloads that its operations have finalized, in order. What
an operation adds to them is told by the records that it reclaims, one after the other: a record
that holds a probe, and whose type has a finalizer, leaves its tag, and no other record leaves
anything. An operation finalizes a payload exactly if a live record of a type with a finalizer holds
it and one of the passes reclaims this record, which happens once, and the record still is what it
was before the operation. The records that are reclaimed are those that were live and are not any
longer, so an operation that asks for no collection reclaims none. -/
theorem finalizers_run (o : HeapOptions) (ops : List Operation) :
    let h := run (fresh o) ops
    (h.finalized = ((fresh o).finalizationsAlong ops).filterMap fun f => match f with
      | (_, .probe tag _) => some tag
      | _ => none) ∧
    ∀ op,
      ((apply op h).2.finalized =
        h.finalized ++ (h.deaths op).filterMap fun id => match h.arena.live? id with
          | some ⟨_, type, .native (.probe tag _)⟩ =>
            if (h.types.get? type).any (·.finalizer) then some tag else none
          | _ => none) ∧
      (∀ id payload, (id, payload) ∈ h.finalizations op ↔ id ∈ h.deaths op ∧
        ∃ r info, h.arena.live? id = some r ∧ h.types.get? r.type = some info ∧
          info.finalizer = true ∧ r.body = .native payload) ∧
      ((h.finalizations op).map (·.1)).Sublist (h.deaths op) ∧
      (h.deaths op).Nodup ∧
      (∀ id, id ∈ h.deaths op ↔
        h.arena.isLive id = true ∧ (apply op h).2.arena.isLive id = false) ∧
      (∀ p ∈ h.passes op, ∀ id ∈ p.deaths h.roots, ∃ q r, p.start.arena.live? id = some q ∧
        h.arena.live? id = some r ∧ q.type = r.type ∧ q.body = r.body) ∧
      (h.request? op = none → h.deaths op = []) := by
  intro h
  have hs : h.toSpace.Sound := (sound_typed_run o ops).1
  have htags : h.finalized = ((fresh o).finalizationsAlong ops).filterMap (·.2.epitaph?) :=
    (finalized_run ops (steady_fresh o).1.toSound).trans (List.nil_append _)
  refine ⟨htags.trans (List.filterMap_congr fun f _ => ?_), fun op => ?_⟩
  · obtain ⟨id, payload⟩ := f
    cases payload <;> rfl
  · obtain ⟨hnodup, hmem⟩ := deaths_apply hs op
    refine ⟨?_, fun id payload => mem_finalizations, finalizations_sublist, hnodup, hmem,
      fun p hp id hid => live?_start_of_passes hs hp hid, deaths_of_request?_eq_none⟩
    rw [finalized_apply hs op, tags_finalizations]
    exact congrArg _ (List.filterMap_congr fun id _ => bind_epitaph? h id)

end Heap

namespace Heap

/-- A probe that is lost, one of a type without a finalizer, a native record that holds no probe, a
probe whose payload is replaced, and a probe that is kept. -/
def burial : List Operation :=
  [.defineType { name := .ofLocal "Mute", kind := .native },
    .createNative .native (.probe "lost" []), .createNative 5 (.probe "mute" [1]),
    .createNative .native .normal, .createNative .native (.probe "replaced" []),
    .setNative 4 (.probe "new" [1]), .createNative .native (.probe "kept" []),
    .setResult (some 5)]

/-- Four records are reclaimed and two of them leave a tag. Later collections add none. -/
theorem finalizers_run_burial :
    (run (fresh (.tuned .balanced)) burial).deaths (.collect .full) = [1, 2, 3, 4] ∧
      (apply (.collect .full) (run (fresh (.tuned .balanced)) burial)).2.finalized =
        ["lost", "new"] ∧
      (run (fresh (.tuned .balanced)) (burial ++ [.collect .full, .collect .full])).finalized =
        ["lost", "new"] := by
  have hdeaths : (run (fresh (.tuned .balanced)) burial).deaths (.collect .full) =
      [1, 2, 3, 4] := by cbv
  have hbefore : (run (fresh (.tuned .balanced)) burial).finalized = [] := by cbv
  have hleft : [1, 2, 3, 4].filterMap (fun id =>
      ((run (fresh (.tuned .balanced)) burial).arena.live? id).bind
        (run (fresh (.tuned .balanced)) burial).toSpace.epitaph?) = ["lost", "new"] := by cbv
  have halong : (fresh (.tuned .balanced)).finalizationsAlong
      (burial ++ [.collect .full, .collect .full]) =
      [(1, .probe "lost" []), (3, .normal), (4, .probe "new" [1])] := by cbv
  refine ⟨hdeaths, ?_, ?_⟩
  · obtain ⟨-, hop⟩ := finalizers_run (.tuned .balanced) burial
    rw [(hop (.collect .full)).1, hdeaths, hbefore, ← hleft]
    exact List.filterMap_congr fun id _ => (bind_epitaph? _ id).symm
  · rw [(finalizers_run _ _).1, halong]
    rfl

end Heap

end ScriptHeap
