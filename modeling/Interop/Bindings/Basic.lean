import Interop.Call.Async
import Interop.Layout.Basic

/-! # Compiled bindings

What a namespace looks like once everything in it that can be mapped has been: functions, classes
and records with their plans, and a list of what was left out and why.
-/

namespace Interop

open Schema

/-- Why an item was left out. -/
inductive SkipReason where
  | unsupported (error : MappingError)
  | deprecated
  | notIntrospectable
  deriving DecidableEq, Repr, Inhabited

def SkipReason.message : SkipReason → String
  | unsupported error => error.message
  | deprecated => "deprecated"
  | notIntrospectable => "not introspectable"

/-- An item that was left out, with the type that declares it. -/
structure SkippedItem where
  owner : Option String
  name : String
  reason : SkipReason
  deriving DecidableEq, Repr, Inhabited

def SkippedItem.path (item : SkippedItem) : String :=
  match item.owner with
  | some owner => join owner item.name
  | none => item.name

structure FieldBinding where
  layout : FieldLayout
  descriptor : Descriptor
  /-- Whether the value itself is stored in the field. -/
  inPlace : Bool
  readable : Bool
  writable : Bool
  deriving Repr, Inhabited

structure RecordBinding where
  name : String
  typeName : String
  kind : ObjectKind
  getType : Option String
  shape : RecordShape
  fields : List FieldBinding
  methods : List CallPlan
  constructors : List CallPlan
  functions : List CallPlan
  deriving Repr, Inhabited

def RecordBinding.field? (record : RecordBinding) (name : String) : Option FieldBinding :=
  record.fields.find? (·.layout.field == name)

structure ClassBinding where
  name : String
  typeName : String
  kind : ObjectKind
  parent : Option String
  interfaces : List String
  hooks : Option RefHooks
  getType : Option String
  isAbstract : Bool
  shape : Option RecordShape
  fields : List FieldBinding
  methods : List CallPlan
  constructors : List CallPlan
  functions : List CallPlan
  asyncMethods : List AsyncPlan
  signals : List SignalPlan
  deriving Repr, Inhabited

namespace ClassBinding

def method? (cls : ClassBinding) (name : String) : Option CallPlan :=
  cls.methods.find? (·.name == name)

def constructor? (cls : ClassBinding) (name : String) : Option CallPlan :=
  cls.constructors.find? (·.name == name)

def asyncMethod? (cls : ClassBinding) (name : String) : Option AsyncPlan :=
  cls.asyncMethods.find? (·.name == name)

def signal? (cls : ClassBinding) (name : String) : Option SignalPlan :=
  cls.signals.find? (·.name == name)

end ClassBinding

structure NamespaceBinding where
  name : String
  library : String
  functions : List CallPlan
  classes : List ClassBinding
  records : List RecordBinding
  skipped : List SkippedItem
  deriving Repr, Inhabited

namespace NamespaceBinding

/-- The full name of a type of the namespace; a name with a point in it stays as it is. -/
def qualify (space : NamespaceBinding) (name : String) : String :=
  if name.toList.contains '.' then name else join space.name name

def class? (space : NamespaceBinding) (name : String) : Option ClassBinding :=
  space.classes.find? (·.name == space.qualify name)

def record? (space : NamespaceBinding) (name : String) : Option RecordBinding :=
  space.records.find? (·.name == space.qualify name)

def function? (space : NamespaceBinding) (name : String) : Option CallPlan :=
  space.functions.find? (·.name == name)

def isSkipped (space : NamespaceBinding) (path : String) : Bool :=
  space.skipped.any (·.path == path)

end NamespaceBinding

end Interop
