import Interop.Json.Reader
import Interop.Schema.Repository

/-! # Schemas as JSON

Each part of a schema is written with every field, absent ones as `null`, and read back with the
defaults of its type for fields that are left out. Unknown keys are passed over; a known key that
is repeated is an error.
-/

namespace Interop.Schema

open Json

/-- The word of a value in a table of spellings. -/
def wordIn {α : Type} [DecidableEq α] (table : List (String × α)) (value : α) : String :=
  ((table.find? (·.2 = value)).map (·.1)).getD ""

def transferWords : List (String × Ownership) :=
  Ownership.all.map fun transfer => (transfer.name, transfer)

def directionWords : List (String × Direction) :=
  [("in", .input), ("out", .output), ("inout", .inout)]

def scopeWords : List (String × CallbackScope) :=
  [("call", .call), ("async", .async), ("notified", .notified), ("forever", .forever)]

def callableKindWords : List (String × CallableKind) :=
  [("function", .function), ("method", .method), ("constructor", .constructor)]

def recordKindWords : List (String × RecordKind) :=
  [("struct", .struct), ("union", .union)]

def arrayKindWords : List (String × ArrayKind) :=
  [("c", .c), ("array", .array), ("ptrarray", .ptrArray), ("bytearray", .byteArray)]

def readWord {α : Type} (table : List (String × α)) : Reader α :=
  Reader.spelled fun word => table.lookup word

def writeWord {α : Type} [DecidableEq α] (table : List (String × α)) (value : α) : Json :=
  .str (wordIn table value)

def writeText (text : Option String) : Json := Json.ofOption .str text

def writeCount (count : Option Nat) : Json := Json.ofOption Json.nat count

def readText : Reader (Option String) := Reader.optional Reader.string

def readCount : Reader (Option Nat) := Reader.optional Reader.word

/-! ## Type references -/

namespace TypeRef

/-- The shape of an array with its element. -/
def shapeJson (form : ArrayForm) (element : Json) : Json :=
  .obj [("element", element), ("kind", writeWord arrayKindWords form.kind),
    ("fixed_size", writeCount form.fixedSize), ("length_param", writeCount form.lengthParam),
    ("zero_terminated", .bool form.zeroTerminated)]

def toJson : TypeRef → Json
  | plain s =>
    .obj [("name", .str s.name), ("c_type", writeText s.cType), ("array", .null),
      ("nullable", .bool s.nullable), ("transfer", writeWord transferWords s.transfer)]
  | array s form element =>
    .obj [("name", .str s.name), ("c_type", writeText s.cType),
      ("array", shapeJson form element.toJson), ("nullable", .bool s.nullable),
      ("transfer", writeWord transferWords s.transfer)]

def keys : List String := ["name", "c_type", "array", "nullable", "transfer"]

def shapeKeys : List String :=
  ["element", "kind", "fixed_size", "length_param", "zero_terminated"]

def readForm (room : Nat) (parts : Parts) : Option ArrayForm :=
  return {
    kind := ← parts.withDefault "kind" .c (readWord arrayKindWords room)
    fixedSize := ← parts.withDefault "fixed_size" none (readCount room)
    lengthParam := ← parts.withDefault "length_param" none (readCount room)
    zeroTerminated := ← parts.withDefault "zero_terminated" false (Reader.bool room) }

mutual

def read : Reader TypeRef
  | 0, _ => none
  | room + 1, value => do
    let parts ← Parts.ofJson? keys value
    let spelling : Spelling := {
      name := ← parts.required "name" (Reader.string room)
      cType := ← parts.withDefault "c_type" none (readText room)
      nullable := ← parts.withDefault "nullable" false (Reader.bool room)
      transfer := ← parts.withDefault "transfer" .none (readWord transferWords room) }
    match (parts.lookup "array").getD .null with
    | .null => return .plain spelling
    | shape =>
      let (form, element) ← readShape room shape
      return .array spelling form element

def readShape : Reader (ArrayForm × TypeRef)
  | 0, _ => none
  | room + 1, value => do
    let parts ← Parts.ofJson? shapeKeys value
    let element ← parts.required "element" (read room)
    return (← readForm room parts, element)

end

end TypeRef

/-! ## Callables -/

namespace Param

def toJson (param : Param) : Json :=
  .obj [("name", .str param.name), ("type", param.type.toJson),
    ("direction", writeWord directionWords param.direction),
    ("caller_allocates", .bool param.callerAllocates), ("optional", .bool param.optional),
    ("closure_index", writeCount param.closureIndex),
    ("destroy_index", writeCount param.destroyIndex),
    ("scope", Json.ofOption (writeWord scopeWords) param.scope)]

def keys : List String :=
  ["name", "type", "direction", "caller_allocates", "optional", "closure_index", "destroy_index",
    "scope"]

def read : Reader Param
  | 0, _ => none
  | room + 1, value => do
    let parts ← Parts.ofJson? keys value
    return {
      name := ← parts.required "name" (Reader.string room)
      type := ← parts.required "type" (TypeRef.read room)
      direction := ← parts.withDefault "direction" .input (readWord directionWords room)
      callerAllocates := ← parts.withDefault "caller_allocates" false (Reader.bool room)
      optional := ← parts.withDefault "optional" false (Reader.bool room)
      closureIndex := ← parts.withDefault "closure_index" none (readCount room)
      destroyIndex := ← parts.withDefault "destroy_index" none (readCount room)
      scope := ← parts.withDefault "scope" none (Reader.optional (readWord scopeWords) room) }

end Param

def writeParams (params : List Param) : Json := .arr (params.map Param.toJson)

namespace Callable

def toJson (callable : Callable) : Json :=
  .obj [("name", .str callable.name), ("c_symbol", .str callable.symbol),
    ("kind", writeWord callableKindWords callable.kind), ("params", writeParams callable.params),
    ("return_type", callable.returns.toJson), ("throws", .bool callable.throws),
    ("deprecated", .bool callable.deprecated), ("introspectable", .bool callable.introspectable)]

def keys : List String :=
  ["name", "c_symbol", "kind", "params", "return_type", "throws", "deprecated", "introspectable"]

def read : Reader Callable
  | 0, _ => none
  | room + 1, value => do
    let parts ← Parts.ofJson? keys value
    return {
      name := ← parts.required "name" (Reader.string room)
      symbol := ← parts.required "c_symbol" (Reader.string room)
      kind := ← parts.withDefault "kind" .function (readWord callableKindWords room)
      params := ← parts.withDefault "params" [] (Reader.list Param.read room)
      returns := ← parts.withDefault "return_type" .void (TypeRef.read room)
      throws := ← parts.withDefault "throws" false (Reader.bool room)
      deprecated := ← parts.withDefault "deprecated" false (Reader.bool room)
      introspectable := ← parts.withDefault "introspectable" true (Reader.bool room) }

end Callable

def writeCallables (callables : List Callable) : Json := .arr (callables.map Callable.toJson)

def readCallables (parts : Parts) (key : String) (room : Nat) : Option (List Callable) :=
  parts.withDefault key [] (Reader.list Callable.read room)

namespace Callback

def toJson (callback : Callback) : Json :=
  .obj [("name", .str callback.name), ("c_type", writeText callback.cType),
    ("params", writeParams callback.params), ("return_type", callback.returns.toJson),
    ("throws", .bool callback.throws)]

def keys : List String := ["name", "c_type", "params", "return_type", "throws"]

def read : Reader Callback
  | 0, _ => none
  | room + 1, value => do
    let parts ← Parts.ofJson? keys value
    return {
      name := ← parts.required "name" (Reader.string room)
      cType := ← parts.withDefault "c_type" none (readText room)
      params := ← parts.withDefault "params" [] (Reader.list Param.read room)
      returns := ← parts.withDefault "return_type" .void (TypeRef.read room)
      throws := ← parts.withDefault "throws" false (Reader.bool room) }

end Callback

namespace Signal

def toJson (signal : Signal) : Json :=
  .obj [("name", .str signal.name), ("params", writeParams signal.params),
    ("return_type", signal.returns.toJson)]

def keys : List String := ["name", "params", "return_type"]

def read : Reader Signal
  | 0, _ => none
  | room + 1, value => do
    let parts ← Parts.ofJson? keys value
    return {
      name := ← parts.required "name" (Reader.string room)
      params := ← parts.withDefault "params" [] (Reader.list Param.read room)
      returns := ← parts.withDefault "return_type" .void (TypeRef.read room) }

end Signal

/-! ## Declarations -/

namespace Field

def toJson (field : Field) : Json :=
  .obj [("name", .str field.name), ("type", field.type.toJson), ("private", .bool field.hidden),
    ("readable", .bool field.readable), ("writable", .bool field.writable)]

def keys : List String := ["name", "type", "private", "readable", "writable"]

def read : Reader Field
  | 0, _ => none
  | room + 1, value => do
    let parts ← Parts.ofJson? keys value
    return {
      name := ← parts.required "name" (Reader.string room)
      type := ← parts.required "type" (TypeRef.read room)
      hidden := ← parts.withDefault "private" false (Reader.bool room)
      readable := ← parts.withDefault "readable" true (Reader.bool room)
      writable := ← parts.withDefault "writable" false (Reader.bool room) }

end Field

def writeFields (fields : List Field) : Json := .arr (fields.map Field.toJson)

def readFields (parts : Parts) (room : Nat) : Option (List Field) :=
  parts.withDefault "fields" [] (Reader.list Field.read room)

def writeSignals (signals : List Signal) : Json := .arr (signals.map Signal.toJson)

def readSignals (parts : Parts) (room : Nat) : Option (List Signal) :=
  parts.withDefault "signals" [] (Reader.list Signal.read room)

def writeTexts (texts : List String) : Json := .arr (texts.map .str)

def readTexts (parts : Parts) (key : String) (room : Nat) : Option (List String) :=
  parts.withDefault key [] (Reader.list Reader.string room)

namespace Record

def toJson (record : Record) : Json :=
  .obj [("name", .str record.name), ("c_type", writeText record.cType),
    ("kind", writeWord recordKindWords record.kind), ("get_type", writeText record.getType),
    ("type_name", writeText record.typeName), ("disguised", .bool record.disguised),
    ("fields", writeFields record.fields), ("methods", writeCallables record.methods),
    ("constructors", writeCallables record.constructors),
    ("functions", writeCallables record.functions)]

def keys : List String :=
  ["name", "c_type", "kind", "get_type", "type_name", "disguised", "fields", "methods",
    "constructors", "functions"]

def read : Reader Record
  | 0, _ => none
  | room + 1, value => do
    let parts ← Parts.ofJson? keys value
    return {
      name := ← parts.required "name" (Reader.string room)
      cType := ← parts.withDefault "c_type" none (readText room)
      kind := ← parts.withDefault "kind" .struct (readWord recordKindWords room)
      getType := ← parts.withDefault "get_type" none (readText room)
      typeName := ← parts.withDefault "type_name" none (readText room)
      disguised := ← parts.withDefault "disguised" false (Reader.bool room)
      fields := ← readFields parts room
      methods := ← readCallables parts "methods" room
      constructors := ← readCallables parts "constructors" room
      functions := ← readCallables parts "functions" room }

end Record

namespace ObjectClass

def toJson (cls : ObjectClass) : Json :=
  .obj [("name", .str cls.name), ("c_type", writeText cls.cType),
    ("parent", writeText cls.parent), ("interfaces", writeTexts cls.interfaces),
    ("type_name", writeText cls.typeName), ("get_type", writeText cls.getType),
    ("fundamental", .bool cls.fundamental), ("ref_func", writeText cls.refFunc),
    ("unref_func", writeText cls.unrefFunc), ("abstract", .bool cls.isAbstract),
    ("fields", writeFields cls.fields), ("methods", writeCallables cls.methods),
    ("constructors", writeCallables cls.constructors),
    ("functions", writeCallables cls.functions), ("signals", writeSignals cls.signals)]

def keys : List String :=
  ["name", "c_type", "parent", "interfaces", "type_name", "get_type", "fundamental", "ref_func",
    "unref_func", "abstract", "fields", "methods", "constructors", "functions", "signals"]

def read : Reader ObjectClass
  | 0, _ => none
  | room + 1, value => do
    let parts ← Parts.ofJson? keys value
    return {
      name := ← parts.required "name" (Reader.string room)
      cType := ← parts.withDefault "c_type" none (readText room)
      parent := ← parts.withDefault "parent" none (readText room)
      interfaces := ← readTexts parts "interfaces" room
      typeName := ← parts.withDefault "type_name" none (readText room)
      getType := ← parts.withDefault "get_type" none (readText room)
      fundamental := ← parts.withDefault "fundamental" false (Reader.bool room)
      refFunc := ← parts.withDefault "ref_func" none (readText room)
      unrefFunc := ← parts.withDefault "unref_func" none (readText room)
      isAbstract := ← parts.withDefault "abstract" false (Reader.bool room)
      fields := ← readFields parts room
      methods := ← readCallables parts "methods" room
      constructors := ← readCallables parts "constructors" room
      functions := ← readCallables parts "functions" room
      signals := ← readSignals parts room }

end ObjectClass

namespace Interface

def toJson (interface : Interface) : Json :=
  .obj [("name", .str interface.name), ("c_type", writeText interface.cType),
    ("type_name", writeText interface.typeName), ("get_type", writeText interface.getType),
    ("prerequisites", writeTexts interface.prerequisites),
    ("methods", writeCallables interface.methods),
    ("functions", writeCallables interface.functions),
    ("signals", writeSignals interface.signals)]

def keys : List String :=
  ["name", "c_type", "type_name", "get_type", "prerequisites", "methods", "functions", "signals"]

def read : Reader Interface
  | 0, _ => none
  | room + 1, value => do
    let parts ← Parts.ofJson? keys value
    return {
      name := ← parts.required "name" (Reader.string room)
      cType := ← parts.withDefault "c_type" none (readText room)
      typeName := ← parts.withDefault "type_name" none (readText room)
      getType := ← parts.withDefault "get_type" none (readText room)
      prerequisites := ← readTexts parts "prerequisites" room
      methods := ← readCallables parts "methods" room
      functions := ← readCallables parts "functions" room
      signals := ← readSignals parts room }

end Interface

namespace Member

def toJson (member : Member) : Json :=
  .obj [("name", .str member.name), ("value", .int member.value)]

def keys : List String := ["name", "value"]

def read : Reader Member
  | 0, _ => none
  | room + 1, value => do
    let parts ← Parts.ofJson? keys value
    return {
      name := ← parts.required "name" (Reader.string room)
      value := ← parts.required "value" (Reader.signed room) }

end Member

namespace Enum

def toJson (enum : Enum) : Json :=
  .obj [("name", .str enum.name), ("c_type", writeText enum.cType),
    ("members", .arr (enum.members.map Member.toJson))]

def keys : List String := ["name", "c_type", "members"]

def read : Reader Enum
  | 0, _ => none
  | room + 1, value => do
    let parts ← Parts.ofJson? keys value
    return {
      name := ← parts.required "name" (Reader.string room)
      cType := ← parts.withDefault "c_type" none (readText room)
      members := ← parts.withDefault "members" [] (Reader.list Member.read room) }

end Enum

namespace Namespace

def toJson (space : Namespace) : Json :=
  .obj [("name", .str space.name), ("version", .str space.version),
    ("shared_libraries", writeTexts space.libraries),
    ("classes", .arr (space.classes.map ObjectClass.toJson)),
    ("interfaces", .arr (space.interfaces.map Interface.toJson)),
    ("records", .arr (space.records.map Record.toJson)),
    ("unions", .arr (space.unions.map Record.toJson)),
    ("enums", .arr (space.enums.map Enum.toJson)),
    ("flags", .arr (space.flags.map Enum.toJson)),
    ("callbacks", .arr (space.callbacks.map Callback.toJson)),
    ("functions", writeCallables space.functions)]

def keys : List String :=
  ["name", "version", "shared_libraries", "classes", "interfaces", "records", "unions", "enums",
    "flags", "callbacks", "functions"]

def read : Reader Namespace
  | 0, _ => none
  | room + 1, value => do
    let parts ← Parts.ofJson? keys value
    return {
      name := ← parts.required "name" (Reader.string room)
      version := ← parts.withDefault "version" "" (Reader.string room)
      libraries := ← readTexts parts "shared_libraries" room
      classes := ← parts.withDefault "classes" [] (Reader.list ObjectClass.read room)
      interfaces := ← parts.withDefault "interfaces" [] (Reader.list Interface.read room)
      records := ← parts.withDefault "records" [] (Reader.list Record.read room)
      unions := ← parts.withDefault "unions" [] (Reader.list Record.read room)
      enums := ← parts.withDefault "enums" [] (Reader.list Enum.read room)
      flags := ← parts.withDefault "flags" [] (Reader.list Enum.read room)
      callbacks := ← parts.withDefault "callbacks" [] (Reader.list Callback.read room)
      functions := ← readCallables parts "functions" room }

end Namespace

namespace Repository

def read : Reader Repository
  | 0, _ => none
  | room + 1, value => do
    let parts ← Parts.ofJson? ["namespaces"] value
    return ofSpaces (← parts.required "namespaces" (Reader.list Namespace.read room))

end Repository

end Interop.Schema
