import Interop.Descriptor
import Interop.ObjectKind
import Interop.Registry.Error
import Interop.Registry.Hierarchy
import Interop.Text.Quoted
import Interop.TypeHash

/-! # The table of classes

What is known about the native types that have managed wrappers. A type without an entry is
wrapped as its nearest ancestor that has one.
-/

namespace Interop

/-- A class that natives can be wrapped as. -/
structure NativeClass where
  typeName : String
  hash : TypeHash
  kind : ObjectKind
  library : Option String := none
  hooks : Option RefHooks := none
  getType : Option String := none
  size : Option Nat := none
  /-- What a new wrapper of a handle carries along. -/
  payload : Option (Handle → String) := none
  deriving Inhabited

namespace NativeClass

def named (typeName : String) (kind : ObjectKind) : NativeClass where
  typeName := typeName
  hash := .ofName typeName
  kind := kind

def kindDebugText (kind : ObjectKind) : String :=
  match kind with
  | .gobject => "Gobject"
  | .boxed => "Boxed"
  | .fundamental => "Fundamental"
  | .struct => "Struct"
  | .interface => "Interface"

def debugText (cls : NativeClass) : String :=
  let hooks := cls.hooks.map fun hooks => Quoted.record "RefHooks"
    [("ref_fn", Quoted.text hooks.refFn), ("unref_fn", Quoted.text hooks.unrefFn)]
  Quoted.record "NativeClass" [("type_name", Quoted.text cls.typeName),
    ("kind", kindDebugText cls.kind), ("library", Quoted.option (cls.library.map Quoted.text)),
    ("hooks", Quoted.option hooks), ("has_payload", toString cls.payload.isSome)]

end NativeClass

structure ClassTable where
  classes : List NativeClass := []
  deriving Inhabited

namespace ClassTable

def findHash? (table : ClassTable) (hash : TypeHash) : Option NativeClass :=
  table.classes.find? (·.hash == hash)

def get? (table : ClassTable) (typeName : String) : Option NativeClass :=
  table.findHash? (.ofName typeName)

def contains (table : ClassTable) (typeName : String) : Bool := (table.get? typeName).isSome

/-- Adds a class. A second class of one name is refused. -/
def register (table : ClassTable) (cls : NativeClass) : Except RegistrationError ClassTable :=
  if cls.typeName.isEmpty then .error .emptyTypeName
  else if (table.findHash? cls.hash).isSome then .error (.duplicateClass cls.typeName)
  else .ok ⟨table.classes ++ [cls]⟩

/-- The class of a type, or of the nearest ancestor that has one. -/
def resolve (table : ClassTable) (parents : ParentTable) (typeName : String) :
    Except IdentityError NativeClass :=
  let chain := parents.chain typeName
  match chain.findSome? table.get? with
  | some cls => .ok cls
  | none => .error (.unregisteredType typeName chain)

/-- The class of a type; ancestors count only on request. -/
def find? (table : ClassTable) (parents : ParentTable) (typeName : String)
    (walkParents : Bool) : Option NativeClass :=
  if walkParents then (table.resolve parents typeName).toOption else table.get? typeName

def size (table : ClassTable) : Nat := table.classes.length

def isEmpty (table : ClassTable) : Bool := table.classes.isEmpty

def typeNames (table : ClassTable) : List String :=
  Hierarchy.sorted (table.classes.map (·.typeName))

end ClassTable

end Interop
