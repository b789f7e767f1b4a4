/-!
Qualified names: a namespace and a local name. The public namespace is the empty one, and the
empty local name marks an unnamed slot.
-/

namespace ScriptHeap

structure QName where
  space : String
  name : String
deriving DecidableEq, Repr

namespace QName

def unnamed : QName := ⟨"", ""⟩

instance : Inhabited QName := ⟨unnamed⟩

/-- A name in the public namespace. -/
def ofLocal (name : String) : QName := ⟨"", name⟩

def isUnnamed (q : QName) : Bool := q.name == ""

/-- The namespace is written in front of the local name unless it is the public one. -/
def render (q : QName) : String :=
  if q.space = "" then q.name else q.space ++ "::" ++ q.name

/-- Names are ordered by namespace, then by local name, each by its characters. -/
instance : Ord QName where
  compare a b := (compare a.space b.space).then (compare a.name b.name)

@[simp] theorem isUnnamed_unnamed : unnamed.isUnnamed = true := rfl

theorem isUnnamed_iff {q : QName} : q.isUnnamed = true ↔ q.name = "" := by
  simp [isUnnamed]

end QName

end ScriptHeap
