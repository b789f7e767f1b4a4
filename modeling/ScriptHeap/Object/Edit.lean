import ScriptHeap.Object.Basic

/-!
The edits of an object as data. An edit that is refused leaves the object as it was.
-/

namespace ScriptHeap.Object

inductive Edit where
  | checkSlot (slot : Int) (compiler : Bool)
  | setValue (slot : Int) (v : Slot) (compiler : Bool)
  | setName (slot : Int) (q : QName) (compiler : Bool)
  | delete (slot : Nat) (compiler : Bool)
  | grow (n : Nat)
  | insert (n offset : Nat)
  | remove (slot : Nat) (compact compiler : Bool)
  | setDynamic (dynamic : Bool)
deriving DecidableEq, Repr

variable [NameHash]

def edit (o : Object) : Edit → Except Failure Object
  | .checkSlot slot compiler => (o.checkSlot slot compiler).map (·.2)
  | .setValue slot v compiler => (o.setValue slot v compiler).map (·.2)
  | .setName slot q compiler => (o.setName slot q compiler).map (·.2)
  | .delete slot compiler => o.delete slot compiler
  | .grow n => o.grow n
  | .insert n offset => o.insert n offset
  | .remove slot compact compiler => o.remove slot compact compiler
  | .setDynamic dynamic => .ok (o.withDynamic dynamic)

/-- The object after an edit, which may have been refused. -/
def apply (o : Object) (e : Edit) : Object :=
  match o.edit e with
  | .ok o' => o'
  | .error _ => o

end ScriptHeap.Object
