import Interop.Call.Plan
import Interop.Mapping.Mapper

/-! # Building plans

A callable becomes a plan: every parameter gets a native argument, parameters that only serve
another one (the length of an array, the data and the release function of a callback) are hidden
from the caller, and indices are moved past the instance of a method.
-/

namespace Interop

open Schema

/-- The type that declares a callable, and how its instances are described. -/
structure Owner where
  qualified : String
  kind : ObjectKind
  descriptor : Descriptor
  deriving Repr, Inhabited

/-- What a parameter serves if it is hidden from the caller. Indices are those of the schema. -/
inductive Companion where
  /-- It holds the length of an array parameter, or of the returned array. -/
  | length (array : Option Nat)
  | closure (callback : Nat)
  | destroy (callback : Nat)
  deriving DecidableEq, Repr, Inhabited

namespace Companion

/-- The parameters that a parameter of the given index and descriptor has serve it. -/
def servants (index : Nat) (param : Param) (descriptor : Descriptor) : List (Nat × Companion) :=
  let lengths := match param.type with
    | .array _ form _ => (form.lengthParam.map fun i => (i, length (some index))).toList
    | .plain _ => []
  let slots := match descriptor with
    | .callback .. =>
      (param.closureIndex.map fun i => (i, closure index)).toList ++
        (param.destroyIndex.map fun i => (i, destroy index)).toList
    | _ => []
  lengths ++ slots

/-- The parameter that holds the length of a returned array. -/
def returnServants : TypeRef → List (Nat × Companion)
  | .array _ form _ => (form.lengthParam.map fun i => (i, length none)).toList
  | .plain _ => []

/-- Whose servant this is. -/
def master? : Companion → Option Nat
  | length array => array
  | closure callback | destroy callback => some callback

/-- Everything that the parameters of a callable and its result ask of other parameters. -/
def requests (callable : Callable) (described : List Descriptor) : List (Nat × Companion) :=
  returnServants callable.returns ++
    (callable.params.zip described).zipIdx.flatMap fun ((param, descriptor), index) =>
      servants index param descriptor

/-- The first request for a parameter that is not there is an error. -/
def check (count : Nat) (requests : List (Nat × Companion)) : Except MappingError Unit :=
  match requests.find? fun request => count ≤ request.1 with
  | some request => .error (.invalidParamIndex request.1 count)
  | none => .ok ()

/-- What a parameter serves: of several requests the last one counts, and nobody serves itself. -/
def find? (requests : List (Nat × Companion)) (index : Nat) : Option Companion :=
  (requests.reverse.find? fun request =>
    request.1 == index && request.2.master? != some index).map (·.2)

end Companion

/-- Moves the native indices of a descriptor's outermost layer. -/
def Descriptor.shift (offset : Nat) : Descriptor → Descriptor
  | .reference inner => .reference (shift offset inner)
  | .array element ownership (.param index) kind elementSize =>
    .array element ownership (.param (index + offset)) kind elementSize
  | .callback trampoline params result scope userDataIndex destroyIndex =>
    .callback trampoline params result scope (userDataIndex.map (· + offset))
      (destroyIndex.map (· + offset))
  | other => other

structure CallBuilder where
  mapper : Mapper
  library : String

namespace CallBuilder

def pointerSize (builder : CallBuilder) : Nat := builder.mapper.options.pointerSize

def ownerOf? (builder : CallBuilder) (qualified : String) : Option Owner := do
  let resolved ← builder.mapper.platform.repo.resolveQualified? qualified
  let library := resolved.space.library
  match resolved.decl with
  | .cls cls =>
    let hooks := classHooks cls
    return ⟨qualified, if hooks.isSome then .fundamental else .gobject, .object .none hooks⟩
  | .interface _ => return ⟨qualified, .interface, .object .none none⟩
  | .record record | .union record =>
    if record.isBoxed then
      return ⟨qualified, .boxed, .boxed qualified library .none record.getType⟩
    else
      let (size, _) := builder.mapper.platform.calculator.typeSize qualified
      return ⟨qualified, .struct, .struct qualified library size false .none⟩
  | .enum _ | .flags _ | .callback _ => none

def destroyNotify (builder : CallBuilder) : Descriptor :=
  .callback .destroyNotify [.ofPrimitive .pointer builder.pointerSize] .null .forever none none

def visible (param : Param) (descriptor : Descriptor) : VisibleParam where
  name := param.name
  descriptor := descriptor
  optional := param.optional || param.type.nullable
  nullable := param.type.nullable

/-- The flags that a parameter brings along. -/
def flagsOf (param : Param) (hidden : Bool) : ArgFlags where
  optional := param.optional || param.type.nullable
  nullable := param.type.nullable
  hidden := hidden
  output := param.direction.isByReference
  callerAllocates := param.callerAllocates

/-- The native argument of a parameter. `shown` counts the caller's values before it. -/
def argOf (builder : CallBuilder) (offset : Nat) (role : Option Companion) (shown : Nat)
    (param : Param) (descriptor : Descriptor) : CallArg :=
  match role with
  | some (.length (some array)) =>
    ⟨param.name, descriptor, .arrayLength (array + offset), flagsOf param true⟩
  | some (.length none) => ⟨param.name, descriptor, .returnLength, flagsOf param true⟩
  | some (.closure callback) =>
    ⟨param.name, .ofPrimitive .pointer builder.pointerSize, .closureData (callback + offset),
      { hidden := true, nullable := true }⟩
  | some (.destroy callback) =>
    ⟨param.name, builder.destroyNotify, .destroyNotify (callback + offset),
      { hidden := true, nullable := true }⟩
  | none =>
    if param.direction = .output then ⟨param.name, descriptor, .outSlot, flagsOf param true⟩
    else ⟨param.name, descriptor, .caller shown, flagsOf param false⟩

/-- The native arguments of the parameters from an index on, and what the caller sees of them. -/
def place (builder : CallBuilder) (offset : Nat) (role : Nat → Option Companion) :
    Nat → Nat → List (Param × Descriptor) → List CallArg × List VisibleParam
  | _, _, [] => ([], [])
  | index, shown, (param, descriptor) :: rest =>
    let descriptor := descriptor.shift offset
    let arg := builder.argOf offset (role index) shown param descriptor
    match arg.source with
    | .caller _ =>
      let (args, params) := place builder offset role (index + 1) (shown + 1) rest
      (arg :: args, visible param descriptor :: params)
    | _ =>
      let (args, params) := place builder offset role (index + 1) shown rest
      (arg :: args, params)

def receiver (owner : Owner) : CallArg := ⟨"self", owner.descriptor, .receiver, {}⟩

/-- The argument for the slot that takes an error. -/
def errorArg (builder : CallBuilder) : CallArg :=
  ⟨"error", builder.mapper.errorSlot, .errorSlot,
    { hidden := true, output := true, nullable := true }⟩

def instanceOf (callable : Callable) (owner : Option Owner) :
    Except MappingError (Option Owner) :=
  match callable.kind, owner with
  | .method, some owner => .ok (some owner)
  | .method, none => .error (.methodWithoutInstance callable.symbol)
  | .function, _ | .constructor, _ => .ok none

def build (builder : CallBuilder) (callable : Callable) (owner : Option Owner) :
    Mapping CallPlan := do
  if callable.isVariadic then throw (.refused (.variadicCallable callable.symbol))
  let instanceType ← Mapping.ofExcept (instanceOf callable owner)
  let offset := instanceType.toList.length
  let described ← callable.params.mapM builder.mapper.mapParam
  let requests := Companion.requests callable described
  Mapping.ofExcept (Companion.check callable.params.length requests)
  let (args, params) :=
    builder.place offset (Companion.find? requests) 0 0 (callable.params.zip described)
  let returns ← builder.mapper.map .returned callable.returns
  return {
    name := callable.name
    symbol := callable.symbol
    library := builder.library
    kind := callable.kind
    args := instanceType.toList.map receiver ++ args ++
      (if callable.throws then [builder.errorArg] else [])
    params := params
    returns := returns.shift offset
    returnNullable := callable.returns.nullable
    throws := callable.throws
    imports := (← get).imports }

def buildSignal (builder : CallBuilder) (signal : Signal) (owner : Owner) :
    Mapping SignalPlan := do
  let described ← signal.params.mapM builder.mapper.mapParam
  let returns ← builder.mapper.map .returned signal.returns
  Mapping.useImport (.support "closure")
  let handlerParams := owner.descriptor :: described ++ [.ofPrimitive .pointer builder.pointerSize]
  return {
    name := signal.name
    handler := .callback .closure handlerParams returns .notified
      (some (described.length + 1)) none
    params := (signal.params.zip described).map fun (param, descriptor) => {
      name := param.name
      descriptor := descriptor
      optional := param.optional
      nullable := param.type.nullable }
    returns := returns
    imports := (← get).imports }

end CallBuilder

end Interop
