import ScriptHeap.Collector.Space

/-!
The write barrier. When an elder record comes to refer to a younger one it is listed in the root
table of the generation of the younger one, so that this generation can be collected without a look
at its elders. A full table raises the overflow flag, and the next collection rebuilds all tables.
-/

namespace ScriptHeap.Space

/-- Lists `holder` in the root table of `g`. The answer tells whether it is listed afterwards. -/
def addRoot (s : Space) (g : Gen) (holder : RecordId) : Bool × Space :=
  match s.arena.header? holder with
  | none => (false, s)
  | some h =>
    if h.rootLinks.contains g then
      (true, s.modifyHeader holder fun h => { h with refLinks := h.refLinks.insert g })
    else
      let c := s.collector
      if c.rootCapacity ≤ (s.bucket g).roots.length then
        let s := s.modifyHeader holder fun h => { h with refLinks := h.refLinks.insert g }
        let s := if c.overflow then s else s.emit (.tableFull g c.rootCapacity)
        (false, { s with
          collector := { c with
            overflow := true
            stats := { c.stats with totalOverflows := c.stats.totalOverflows + 1 } } })
      else
        let s := s.modifyHeader holder fun h =>
          { h with refLinks := h.refLinks.insert g, rootLinks := h.rootLinks.insert g }
        (true, s.updateBucket g fun b => { b with roots := b.roots ++ [holder] })

/-- Notes that `referent` was stored into `container`. -/
def recordReference (s : Space) (container : RecordId) (referent : Slot) : Space :=
  match referent.bind s.arena.header?, s.arena.header? container with
  | some target, some holder =>
    if !target.permanent && target.generation < holder.generation then
      (s.addRoot target.generation container).2
    else s
  | _, _ => s

/-- Notes every reference that `container` holds. -/
def recordReferences (s : Space) (container : RecordId) : Space :=
  match s.arena.live? container with
  | some r => r.body.references.foldl (fun s id => s.recordReference container (some id)) s
  | none => s

end ScriptHeap.Space
