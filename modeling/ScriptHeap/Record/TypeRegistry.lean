import ScriptHeap.Identifier
import ScriptHeap.Object.Basic

/-!
Types of records. A type fixes the kind of its records, the bytes charged for one, whether instances
are dynamic, and the names of their slots. Types are never removed.
-/

namespace ScriptHeap

inductive Kind where
  | object
  | string
  | number
  | boolean
  | native
deriving DecidableEq, Repr

def Kind.name : Kind → String
  | object => "object"
  | string => "string"
  | number => "number"
  | boolean => "boolean"
  | native => "native"

/-- What a type is defined by. -/
structure TypeDef where
  name : QName
  kind : Kind
  /-- Bytes per instance, the header not counted. -/
  size : Nat := 0
  /-- Instances accept new slots and deletes. -/
  dynamic : Bool := false
  /-- Instances get a name table of their own. -/
  separate : Bool := false
  /-- A payload is finalized when its record is reclaimed. -/
  finalizer : Bool := false
  properties : List QName := []
deriving DecidableEq, Repr

structure TypeInfo extends TypeDef where
  id : TypeId
  /-- The name table that instances start with. -/
  template : NameTable
deriving DecidableEq, Repr

/-- Bytes charged for the header of a record. -/
def headerBytes : Nat := 32

namespace TypeInfo

def make [NameHash] (id : TypeId) (d : TypeDef) : TypeInfo :=
  { d with id, template := (NameTable.ofNames d.properties).reindex d.properties.length }

/-- Bytes charged per instance, its body not counted. -/
def instanceSize (t : TypeInfo) : Nat := headerBytes + t.size

/-- An instance with `extra` unnamed slots behind those of the type. The number of all its slots is
assumed to be less than `2 ^ 64`. -/
def instantiate [NameHash] (t : TypeInfo) (extra : Nat) : Object :=
  .ofTemplate t.template extra t.dynamic t.separate

end TypeInfo

structure TypeRegistry where
  types : Array TypeInfo
deriving DecidableEq, Repr

namespace TypeRegistry

def empty : TypeRegistry := ⟨#[]⟩

instance : Inhabited TypeRegistry := ⟨empty⟩

def size (r : TypeRegistry) : Nat := r.types.size

def get? (r : TypeRegistry) (id : TypeId) : Option TypeInfo := r.types[id]?

/-- The first type with the name. -/
def lookup? (r : TypeRegistry) (q : QName) : Option TypeId :=
  (r.types.find? (·.name == q)).map (·.id)

variable [NameHash]

def define (r : TypeRegistry) (d : TypeDef) : TypeId × TypeRegistry :=
  (r.size, ⟨r.types.push (.make r.size d)⟩)

def defineAll (r : TypeRegistry) (ds : List TypeDef) : TypeRegistry :=
  ds.foldl (fun r d => (r.define d).2) r

def objectDef : TypeDef :=
  { name := .ofLocal "Object", kind := .object, size := 16, dynamic := true }

def builtinDefs : List TypeDef :=
  [objectDef,
   { name := .ofLocal "String", kind := .string, size := 16 },
   { name := .ofLocal "Number", kind := .number, size := 8 },
   { name := .ofLocal "Boolean", kind := .boolean, size := 1 },
   { name := .ofLocal "Native", kind := .native, size := 16, finalizer := true }]

/-- The registry that every heap starts with. -/
def withBuiltins : TypeRegistry := empty.defineAll builtinDefs

end TypeRegistry

/-- The built-in types, in the order in which they are defined. -/
def TypeId.object : TypeId := 0

def TypeId.string : TypeId := 1

def TypeId.number : TypeId := 2

def TypeId.boolean : TypeId := 3

def TypeId.native : TypeId := 4

end ScriptHeap
