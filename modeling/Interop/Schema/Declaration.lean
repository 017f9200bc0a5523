import Interop.Schema.Callable

/-! # Declarations of types

Records, unions, classes, interfaces, enumerations and flags as a schema declares them, and the
namespaces that hold them.
-/

namespace Interop.Schema

structure Field where
  name : String
  type : TypeRef
  hidden : Bool := false
  readable : Bool := true
  writable : Bool := false
  deriving DecidableEq, Repr, Inhabited

namespace Field

/-- A field that everyone may read and write. -/
def shown (name : String) (type : TypeRef) : Field := { name, type, writable := true }

/-- A field that takes room and is otherwise out of reach. -/
def concealed (name : String) (type : TypeRef) : Field :=
  { name, type, hidden := true, readable := false }

end Field

inductive RecordKind where
  | struct
  | union
  deriving DecidableEq, Repr, Inhabited

structure Record where
  name : String
  cType : Option String := none
  kind : RecordKind := .struct
  getType : Option String := none
  typeName : Option String := none
  disguised : Bool := false
  fields : List Field := []
  methods : List Callable := []
  constructors : List Callable := []
  functions : List Callable := []
  deriving DecidableEq, Repr, Inhabited

namespace Record

/-- Whether values of the record have a runtime type of their own. -/
def isBoxed (record : Record) : Bool := record.getType.isSome

/-- Whether the fields are nobody's business: a disguised pointer, or fields that are all hidden. -/
def isOpaque (record : Record) : Bool :=
  record.disguised || (!record.fields.isEmpty && record.fields.all (·.hidden))

def findField? (record : Record) (name : String) : Option Field :=
  record.fields.find? (·.name == name)

def boxed (record : Record) (typeName getType : String) : Record :=
  { record with typeName := some typeName, getType := some getType }

end Record

/-- A class with single inheritance. -/
structure ObjectClass where
  name : String
  cType : Option String := none
  parent : Option String := none
  interfaces : List String := []
  typeName : Option String := none
  getType : Option String := none
  fundamental : Bool := false
  refFunc : Option String := none
  unrefFunc : Option String := none
  isAbstract : Bool := false
  fields : List Field := []
  methods : List Callable := []
  constructors : List Callable := []
  functions : List Callable := []
  signals : List Signal := []
  deriving DecidableEq, Repr, Inhabited

namespace ObjectClass

def findMethod? (cls : ObjectClass) (name : String) : Option Callable :=
  cls.methods.find? (·.name == name)

/-- A class whose references are counted by functions of its own. -/
def counted (cls : ObjectClass) (refFunc unrefFunc : String) : ObjectClass :=
  { cls with fundamental := true, refFunc := some refFunc, unrefFunc := some unrefFunc }

end ObjectClass

structure Interface where
  name : String
  cType : Option String := none
  typeName : Option String := none
  getType : Option String := none
  prerequisites : List String := []
  methods : List Callable := []
  functions : List Callable := []
  signals : List Signal := []
  deriving DecidableEq, Repr, Inhabited

structure Member where
  name : String
  value : Int
  deriving DecidableEq, Repr, Inhabited

structure Enum where
  name : String
  cType : Option String := none
  members : List Member := []
  deriving DecidableEq, Repr, Inhabited

structure Namespace where
  name : String
  version : String := ""
  libraries : List String := []
  classes : List ObjectClass := []
  interfaces : List Interface := []
  records : List Record := []
  unions : List Record := []
  enums : List Enum := []
  flags : List Enum := []
  callbacks : List Callback := []
  functions : List Callable := []
  deriving DecidableEq, Repr, Inhabited

/-- The kinds of types, in the order in which a namespace lists them. -/
inductive DeclarationKind where
  | cls
  | interface
  | record
  | union
  | enum
  | flags
  | callback
  deriving DecidableEq, Repr, Inhabited

/-- All kinds, in order. -/
def DeclarationKind.all : List DeclarationKind :=
  [.cls, .interface, .record, .union, .enum, .flags, .callback]

/-- Whatever a namespace can declare under a type name. -/
inductive Declaration where
  | cls (value : ObjectClass)
  | interface (value : Interface)
  | record (value : Record)
  | union (value : Record)
  | enum (value : Enum)
  | flags (value : Enum)
  | callback (value : Callback)
  deriving DecidableEq, Repr, Inhabited

namespace Declaration

def kindName : Declaration → String
  | cls _ => "class"
  | interface _ => "interface"
  | record _ => "record"
  | union _ => "union"
  | enum _ => "enum"
  | flags _ => "flags"
  | callback _ => "callback"

def name : Declaration → String
  | cls value => value.name
  | interface value => value.name
  | record value => value.name
  | union value => value.name
  | enum value => value.name
  | flags value => value.name
  | callback value => value.name

/-- The fields that values of the declared type store side by side or over each other. -/
def asRecord? : Declaration → Option Record
  | record value | union value => some value
  | _ => none

end Declaration

namespace Namespace

/-- The library that holds the symbols; the empty name if none is given. -/
def library (space : Namespace) : String := space.libraries.headD ""

def qualify (space : Namespace) (name : String) : String := join space.name name

/-- Every type that the namespace declares, kind by kind. -/
def declarations (space : Namespace) : List Declaration :=
  space.classes.map .cls ++ space.interfaces.map .interface ++ space.records.map .record ++
    space.unions.map .union ++ space.enums.map .enum ++ space.flags.map .flags ++
    space.callbacks.map .callback

/-- The types of one kind that the namespace declares. -/
def ofKind (space : Namespace) : DeclarationKind → List Declaration
  | .cls => space.classes.map .cls
  | .interface => space.interfaces.map .interface
  | .record => space.records.map .record
  | .union => space.unions.map .union
  | .enum => space.enums.map .enum
  | .flags => space.flags.map .flags
  | .callback => space.callbacks.map .callback

end Namespace

end Interop.Schema
