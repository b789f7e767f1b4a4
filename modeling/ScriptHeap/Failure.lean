/-!
The six kinds of failure an operation can report. What led to one is a `Fault`.
-/

namespace ScriptHeap

inductive Failure where
  /-- Memory is exhausted, or a size cannot be represented. -/
  | outOfMemory
  | outOfBounds
  /-- No property has the qualified name. -/
  | notFound
  /-- The record is not live. -/
  | referenceError
  /-- A fixed shape would change, or the value is of the wrong kind. -/
  | typeError
  /-- A bare name has several candidates. -/
  | ambiguous
deriving DecidableEq, Repr

namespace Failure

def all : List Failure :=
  [outOfMemory, outOfBounds, notFound, referenceError, typeError, ambiguous]

def describe : Failure → String
  | outOfMemory => "Out of Memory"
  | outOfBounds => "Out of Bounds"
  | notFound => "Not Found"
  | referenceError => "Reference Error"
  | typeError => "Type Error"
  | ambiguous => "Ambiguous Name"

theorem mem_all (f : Failure) : f ∈ all := by cases f <;> simp [all]

end Failure

end ScriptHeap
