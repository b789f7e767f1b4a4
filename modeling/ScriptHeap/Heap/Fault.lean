import ScriptHeap.Failure
import ScriptHeap.Identifier
import ScriptHeap.QName

/-!
Why an operation was refused. Each reason is one kind of failure and has one message.
-/

namespace ScriptHeap

inductive Fault where
  | unknownType (type : TypeId)
  | allocationRefused (bytes : Nat) (type : QName)
  | notObjectType (type : TypeId)
  | notNativeType (type : TypeId)
  | notNative (id : RecordId)
  | notLive (id : RecordId)
  /-- The value to be stored is not live. -/
  | deadValue (id : RecordId)
  | growthRefused (id : RecordId) (count : Nat)
  | fixedShape (id : RecordId)
  | notObject (id : RecordId)
  | deadRecord (id : RecordId)
  | badSlot (id : RecordId)
  /-- An operation on an object failed for another reason. -/
  | onObject (failure : Failure) (id : RecordId)
  | noProperty (name : QName)
  | memoryExceeded (maxMemory : Nat)
deriving DecidableEq, Repr

namespace Fault

def failure : Fault → Failure
  | unknownType _ | notObjectType _ | notNativeType _ | notNative _ => .typeError
  | fixedShape _ | notObject _ => .typeError
  | allocationRefused .. | growthRefused .. | memoryExceeded _ => .outOfMemory
  | notLive _ | deadValue _ | deadRecord _ => .referenceError
  | badSlot _ => .outOfBounds
  | onObject failure _ => failure
  | noProperty _ => .notFound

def message : Fault → String
  | unknownType type => "unknown type " ++ type.repr
  | allocationRefused bytes type =>
    "cannot allocate " ++ bytes.repr ++ " bytes for " ++ type.render
  | notObjectType type => "type " ++ type.repr ++ " is not an object type"
  | notNativeType type => "type " ++ type.repr ++ " is not a native type"
  | notNative id => "VarId(" ++ id.repr ++ ") is not a native record"
  | notLive id => "VarId(" ++ id.repr ++ ") is not live"
  | deadValue id => "cannot store dead record " ++ id.repr
  | growthRefused id count => "cannot grow object " ++ id.repr ++ " to " ++ count.repr ++ " slots"
  | fixedShape id => "object " ++ id.repr ++ " has a fixed shape"
  | notObject id => "record " ++ id.repr ++ " is not an object"
  | deadRecord id => "record " ++ id.repr ++ " is not live"
  | badSlot id => "bad property slot on object " ++ id.repr
  | onObject failure id => failure.describe ++ " on object " ++ id.repr
  | noProperty name => "property " ++ name.render ++ " not found"
  | memoryExceeded maxMemory => "memory limit of " ++ maxMemory.repr ++ " bytes exceeded"

/-- The reason for which an operation on a live object failed. -/
def ofObjectFailure (id : RecordId) : Failure → Fault
  | .typeError => fixedShape id
  | .referenceError => deadRecord id
  | .outOfBounds => badSlot id
  | .outOfMemory => onObject .outOfMemory id
  | .notFound => onObject .notFound id
  | .ambiguous => onObject .ambiguous id

@[simp] theorem failure_ofObjectFailure (id : RecordId) (f : Failure) :
    (ofObjectFailure id f).failure = f := by
  cases f <;> rfl

end Fault

end ScriptHeap
