import ScriptHeap.Heap.Clone
import ScriptHeap.Heap.Pressure
import ScriptHeap.Heap.Property
import ScriptHeap.Heap.Report

/-!
The operations of a heap as data, and runs of operations. A heap in use has come from a fresh one by
a run, each operation of which succeeded or was refused.
-/

namespace ScriptHeap

inductive Operation where
  | defineType (d : TypeDef)
  | addStandardSpace (space : String)
  | allocateRecord (type : TypeId) (extra : Nat)
  | createObject (type : TypeId) (extra : Nat)
  | createPlainObject
  | createString (text : String)
  | createNumber (bits : UInt64)
  | createBoolean (b : Bool)
  | createNative (type : TypeId) (payload : Payload)
  | setNative (id : RecordId) (payload : Payload)
  | editNative (id : RecordId) (edit : Payload → Option Payload)
  | cloneObject (id : RecordId) (deep : Bool)
  | setProperty (id : RecordId) (slot : Int) (v : Slot)
  | setPropertyName (id : RecordId) (slot : Int) (name : QName)
  | setPropertyByName (id : RecordId) (name : QName) (v : Slot)
  | deleteProperty (id : RecordId) (slot : Nat)
  | deletePropertyByName (id : RecordId) (name : QName)
  | growObject (id : RecordId) (count : Nat)
  | insertSlots (id : RecordId) (n offset : Nat)
  | removeSlot (id : RecordId) (slot : Nat) (compact : Bool)
  | pushFrame (f : Frame)
  | popFrame
  | editFrame (edit : Frame → Option Frame)
  | setResult (v : Slot)
  | setException (v : Slot)
  | takeException
  | addInitializer (id : RecordId)
  | finishInitializer (id : RecordId)
  | collect (mode : Mode)
  | collectIfRequired
  | enableCollector (on : Bool)
  | setAllocGeneration (g : Gen)
  | makePermanent (id : RecordId)
  | makeTransient (id : RecordId)
  | printReport

/-- What an operation answers when it succeeds. -/
inductive Answer where
  | done
  | record (id : RecordId)
  | type (id : TypeId)
  | slot (n : Nat)
  | reference (v : Slot)
  | payload (p : Option Payload)
  | frame (f : Option Frame)
  | flag (b : Bool)
  | generation (g : Gen)
  | info (i : Option CollectInfo)
deriving DecidableEq, Repr

namespace Heap

def addStandardSpace (space : String) : HeapM Unit :=
  modify fun h =>
    if h.standardSpaces.contains space then h
    else { h with standardSpaces := h.standardSpaces ++ [space] }

def popFrame : HeapM (Option Frame) := do
  let h ← get
  set { h with frames := h.frames.tail }
  return h.frames.head?

/-- Edits the innermost frame and tells whether that was possible. -/
def editFrame (edit : Frame → Option Frame) : HeapM Bool := do
  let h ← get
  match h.frames with
  | [] => return false
  | f :: rest =>
    match edit f with
    | none => return false
    | some f =>
      set { h with frames := f :: rest }
      return true

/-- Takes the exception away and tells it. -/
def takeException : HeapM Slot := do
  let h ← get
  set { h with exception := none }
  return h.exception

variable [Environment]

def defineType (d : TypeDef) : HeapM TypeId := do
  let h ← get
  let (id, types) := h.types.define d
  set { h with types }
  return id

def perform : Operation → HeapM Answer
  | .defineType d => .type <$> defineType d
  | .addStandardSpace space => do addStandardSpace space; return .done
  | .allocateRecord type extra => .record <$> allocateRecord type extra
  | .createObject type extra => .record <$> createObject type extra
  | .createPlainObject => .record <$> createPlainObject
  | .createString text => .record <$> createString text
  | .createNumber bits => .record <$> createNumber bits
  | .createBoolean b => .record <$> createBoolean b
  | .createNative type payload => .record <$> createNative type payload
  | .setNative id payload => do setNative id payload; return .done
  | .editNative id edit => .payload <$> editNative id edit
  | .cloneObject id deep => .record <$> cloneObject id deep
  | .setProperty id slot v => .slot <$> setProperty id slot v
  | .setPropertyName id slot name => .slot <$> setPropertyName id slot name
  | .setPropertyByName id name v => .slot <$> setPropertyByName id name v
  | .deleteProperty id slot => do deleteProperty id slot; return .done
  | .deletePropertyByName id name => do deletePropertyByName id name; return .done
  | .growObject id count => do growObject id count; return .done
  | .insertSlots id n offset => do insertSlots id n offset; return .done
  | .removeSlot id slot compact => do removeSlot id slot compact; return .done
  | .pushFrame f => do modify fun h => { h with frames := f :: h.frames }; return .done
  | .popFrame => .frame <$> popFrame
  | .editFrame edit => .flag <$> editFrame edit
  | .setResult v => do modify ({ · with result := v }); return .done
  | .setException v => do modify ({ · with exception := v }); return .done
  | .takeException => .reference <$> takeException
  | .addInitializer id => do
    modify fun h => { h with initializers := h.initializers ++ [id] }; return .done
  | .finishInitializer id => do
    modify fun h => { h with initializers := h.initializers.filter (· ≠ id) }; return .done
  | .collect mode => do return .info (some (← collect mode))
  | .collectIfRequired => .info <$> collectIfRequired
  | .enableCollector on => .flag <$> enableCollector on
  | .setAllocGeneration g => .generation <$> setAllocGeneration g
  | .makePermanent id => do makePermanent id; return .done
  | .makeTransient id => do makeTransient id; return .done
  | .printReport => do printReport; return .done

/-- The outcome of an operation and the heap afterwards. -/
def apply (op : Operation) (h : Heap) : Except Failure Answer × Heap :=
  match (perform op).run h with
  | .ok a h => (.ok a, h)
  | .error e h => (.error e, h)

/-- The heap after a run of operations, some of which may be refused. -/
def run (h : Heap) (ops : List Operation) : Heap := ops.foldl (fun h op => (apply op h).2) h

end Heap

end ScriptHeap
