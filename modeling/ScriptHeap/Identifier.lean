/-!
Identifiers: records are addressed by their place in the arena, types by their place in the
registry.
-/

namespace ScriptHeap

/-- The place of a record in the arena. Fewer than `2 ^ 32` records are assumed, so a place fits the
word that it is kept in. -/
abbrev RecordId := Nat

/-- The place of a type in the registry. Fewer than `2 ^ 32` types are assumed. -/
abbrev TypeId := Nat

/-- The content of a slot: a reference to a record, or null. -/
abbrev Slot := Option RecordId

end ScriptHeap
