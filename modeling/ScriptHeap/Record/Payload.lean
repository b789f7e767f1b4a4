import ScriptHeap.Identifier

/-!
Payloads of native records. A payload may embed references to records; those it reports keep their
records alive, the others are weak. A probe leaves its tag behind when its record is reclaimed.
-/

namespace ScriptHeap

inductive Payload where
  /-- A function value: its receiver, its scope chain, and records it does not keep alive. -/
  | closure (this : Slot) (scope weak : List RecordId)
  /-- The three ways in which code completes. The handler of a throw is weak. -/
  | normal
  | returned (value : Slot)
  | thrown (value : RecordId) (handler : Slot)
  | probe (tag : String) (refs : List RecordId)
deriving DecidableEq, Repr

inductive PayloadKind where
  | closure
  | completion
  | probe
deriving DecidableEq, Repr

namespace Payload

def kind : Payload → PayloadKind
  | closure .. => .closure
  | normal => .completion
  | returned _ => .completion
  | thrown .. => .completion
  | probe .. => .probe

/-- The references that are reported to the marker, in order. -/
def references : Payload → List RecordId
  | closure this scope _ => this.toList ++ scope
  | normal => []
  | returned value => value.toList
  | thrown value _ => [value]
  | probe _ refs => refs

/-- What a finalizer leaves behind. -/
def epitaph? : Payload → Option String
  | probe tag _ => some tag
  | _ => none

/-- The list of references that host code edits: the scope of a closure, the records of a probe. -/
def items : Payload → List RecordId
  | closure _ scope _ => scope
  | probe _ refs => refs
  | _ => []

/-- Edits the scope of a closure. -/
def editScope? (f : List RecordId → List RecordId) : Payload → Option Payload
  | closure this scope weak => some (closure this (f scope) weak)
  | _ => none

/-- Edits the records of a probe. -/
def editProbe? (f : List RecordId → List RecordId) : Payload → Option Payload
  | probe tag refs => some (probe tag (f refs))
  | _ => none

end Payload

end ScriptHeap
