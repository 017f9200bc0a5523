import Interop.Descriptor
import Interop.Layout.Calculator
import Interop.Mapping.Error
import Interop.Mapping.Import
import Interop.Options

/-! # From types to descriptors

How a type reference is represented at the boundary, depending on where it is used. Ownership is
copied from the transfer annotation. A shape without a representation is an error, and whoever
asked leaves the item out.
-/

namespace Interop

open Schema

/-- What descriptors depend on besides the types they describe. -/
structure Usage where
  imports : List Import := []
  /-- The declared types whose sizes were asked for, the last one first. -/
  sized : List String := []
  deriving Inhabited

abbrev Mapping (α : Type) := EStateM MappingFailure Usage α

namespace Mapping

/-- Runs a mapping step; the usage is known even if the step fails. -/
def finish {α : Type} (step : Mapping α) : Except MappingFailure α × Usage :=
  match step.run {} with
  | .ok value usage => (.ok value, usage)
  | .error error usage => (.error error, usage)

def useImport (new : Import) : Mapping Unit :=
  modify fun usage => { usage with imports := new.insert usage.imports }

def useSize (qualified : String) : Mapping Unit :=
  modify fun usage => { usage with sized := qualified :: usage.sized }

/-- Refuses what has an error. -/
def ofExcept {α : Type} : Except MappingError α → Mapping α
  | .ok value => return value
  | .error error => throw (.refused error)

end Mapping

/-- The functions that count references of a class, if it brings its own. -/
def classHooks (cls : ObjectClass) : Option RefHooks :=
  match cls.fundamental, cls.refFunc, cls.unrefFunc with
  | true, some refFn, some unrefFn => some ⟨refFn, unrefFn⟩
  | _, _, _ => none

/-- Whether a text ends with another one. -/
def endsWith (text ending : String) : Bool := ending.toList.isSuffixOf text.toList

/-- The trampoline that the name of a callback type asks for. -/
def trampolineFor (callbackType : String) : Trampoline :=
  if endsWith callbackType "AsyncReadyCallback" then .asyncReady
  else if endsWith callbackType "DestroyNotify" then .destroyNotify
  else .closure

/-- A record of native errors. -/
def errorType : String := "GLib.Error"

def unsupportedContainers : List String := ["GLib.List", "GLib.SList", "GLib.HashTable"]

/-- How the items of an array are counted. -/
def lengthOf (form : ArrayForm) : ArrayLength :=
  if form.kind ≠ .c then .container
  else match form.lengthParam, form.fixedSize with
    | some index, _ => .param index
    | none, some count => .fixed count
    | none, none => .zeroTerminated

/-- The mapping of the types of one namespace. -/
structure Mapper where
  platform : Platform
  options : Options
  space : String

namespace Mapper

/-- The slot for errors at the end of the arguments of a throwing callable. -/
def errorSlot (mapper : Mapper) : Descriptor :=
  let library := (mapper.platform.repo.resolveQualified? errorType).map (·.space.library)
  .reference (.boxed errorType (library.getD "") .full (some "g_error_get_type"))

/-- Whether a record is stored in place in this context. -/
def storedInPlace (context : UseContext) (type : TypeRef) : Bool :=
  match context with
  | .field => type.isInline
  | .element => !type.isPointerSpelled
  | .parameter | .returned => false

def mapRecord (mapper : Mapper) (context : UseContext) (type : TypeRef) (qualified : String)
    (space : Namespace) (record : Record) : Mapping Descriptor := do
  let inPlace := storedInPlace context type
  Mapping.useImport (.support "wrap")
  if record.isBoxed && !inPlace then
    return .boxed qualified space.library type.transfer record.getType
  Mapping.useSize qualified
  let (size, _) := mapper.platform.calculator.typeSize qualified
  return .struct qualified space.library size inPlace type.transfer

/-- How a callback type of a qualified name is described where it is a parameter. -/
abbrev CallbackStep := String → Option Param → Mapping Descriptor

/-- The descriptor of anything but an array. -/
def mapSingle (mapper : Mapper) (callbackStep : CallbackStep) (context : UseContext)
    (param : Option Param) (type : TypeRef) : Mapping Descriptor := do
  if type.isVoid then return .null
  if isStringSpelling type.name then return .string type.transfer
  if let some kind := PrimitiveKind.ofSpelling? type.name then
    return .ofPrimitive kind mapper.options.pointerSize
  if type.name == "va_list" || type.name == "..." then
    throw (.refused (.unsupportedInContext type.name context))
  let qualified := qualify mapper.space type.name
  if unsupportedContainers.contains qualified then
    throw (.refused (.unsupportedContainer qualified))
  let some resolved := mapper.platform.repo.resolveQualified? qualified
    | throw (.refused (.unresolvedType qualified))
  Mapping.useImport ⟨resolved.space.name, resolved.localName⟩
  match resolved.decl with
  | .cls cls =>
    Mapping.useImport (.support "wrap")
    return .object type.transfer (classHooks cls)
  | .interface _ =>
    Mapping.useImport (.support "wrap")
    return .object type.transfer none
  | .record record | .union record =>
    mapper.mapRecord context type qualified resolved.space record
  | .enum _ => return .ofPrimitive .int32 mapper.options.pointerSize
  | .flags _ => return .ofPrimitive .uint32 mapper.options.pointerSize
  | .callback _ =>
    match context with
    | .parameter => callbackStep qualified param
    | .field | .element => return .ofPrimitive .pointer mapper.options.pointerSize
    | .returned => throw (.refused (.unsupportedInContext qualified context))

def mapWith (mapper : Mapper) (callbackStep : CallbackStep) (context : UseContext)
    (param : Option Param) : TypeRef → Mapping Descriptor
  | .plain spelling => mapper.mapSingle callbackStep context param (.plain spelling)
  | .array spelling form element => do
    if element.isArray then throw (.refused .nestedArray)
    let described ← mapper.mapSingle callbackStep .element none element
    if described.isNull then throw (.refused (.unsupportedInContext element.name .element))
    return .array described spelling.transfer (lengthOf form) form.kind
      (described.slotSize mapper.options.pointerSize)

/-- The descriptor of a parameter; what travels out of the native side does so in a slot. -/
def mapParamWith (mapper : Mapper) (callbackStep : CallbackStep) (param : Param) :
    Mapping Descriptor := do
  let inner ← mapper.mapWith callbackStep .parameter (some param) param.type
  if !param.direction.isByReference then return inner
  match inner with
  | .callback .. => throw (.refused (.unsupportedReference param.type.name))
  | _ => return .reference inner

/-- How long a callback parameter is kept, unless it says so itself. -/
def scopeOf (param : Option Param) : CallbackScope :=
  match param with
  | none => .call
  | some param =>
    param.scope.getD (if param.destroyIndex.isSome then .notified else .call)

/-- The mapping of the types of another namespace. -/
def reading (mapper : Mapper) (space : String) : Mapper := { mapper with space }

/-- The descriptor of a managed function with the signature of a callback type. -/
def mapSignature (mapper : Mapper) (callbackStep : CallbackStep) (qualified : String)
    (callback : Callback) (param : Option Param) : Mapping Descriptor := do
  if callback.isVariadic then throw (.refused (.variadicCallback qualified))
  let params ← callback.params.mapM (mapper.mapParamWith callbackStep)
  let params := if callback.throws then params ++ [mapper.errorSlot] else params
  let result ← mapper.mapWith callbackStep .returned none callback.returns
  Mapping.useImport (.support "closure")
  return .callback (trampolineFor qualified) params result (scopeOf param)
    (param.bind (·.closureIndex)) (param.bind (·.destroyIndex))

/-- The descriptor of a callback type. Its signature is read in the namespace that declares it.
`path` holds the callback types whose signatures are being read. A type that is met among them is
met again each time its signature is read, so there is no end to it. -/
def mapCallback (mapper : Mapper) (path : List String) (qualified : String)
    (param : Option Param) : Mapping Descriptor :=
  if _hpath : path.contains qualified then throw (.overflow qualified)
  else match _hresolve : mapper.platform.repo.resolveQualified? qualified with
    | some ⟨space, .callback callback⟩ =>
      (mapper.reading space.name).mapSignature (mapCallback mapper (qualified :: path)) qualified
        callback param
    | _ => throw (.refused (.unresolvedType qualified))
termination_by mapper.platform.repo.remaining path
decreasing_by exact Repository.remaining_cons_lt _hresolve (by simpa using _hpath)

/-- The step for callback types that are not inside of another one. -/
def outermost (mapper : Mapper) : CallbackStep := mapper.mapCallback []

def map (mapper : Mapper) (context : UseContext) (type : TypeRef) : Mapping Descriptor :=
  mapper.mapWith mapper.outermost context none type

/-- The descriptor of a parameter. Callback indices in it count schema parameters. -/
def mapParam (mapper : Mapper) (param : Param) : Mapping Descriptor :=
  mapper.mapParamWith mapper.outermost param

end Mapper

end Interop
