import Interop.Bindings.Codec
import Interop.Bindings.Compile
import Interop.Service.Request

/-! # Questions about descriptors, plans and bindings -/

namespace Interop.Service

open Schema

def unmapped : MappingFailure → Refusal
  | .refused error => .failed error.kindName error.message
  | .overflow _ => .overflow

def mapping {α : Type} (step : Mapping α) : Decode (α × Usage) :=
  match step.finish with
  | (.ok value, usage) => .ok (value, usage)
  | (.error failure, _) => .error (unmapped failure)

def options (request : Json) : Decode Options := do
  match field? request "options" with
  | none => return {}
  | some part =>
    return {
      pointerSize := pointerSize part
      skipDeprecated := ← flag part "skip_deprecated"
      includeUnintrospectable := ← flag part "include_unintrospectable" }

def ofMapped (result : Descriptor × Usage) : Json :=
  .obj [("descriptor", result.1.toJson), ("display", .str result.1.text),
    ("imports", writeImports result.2.imports)]

def context (value : Json) : Decode UseContext := do
  match ← text value "context" with
  | "parameter" => return .parameter
  | "return" => return .returned
  | "field" => return .field
  | "element" => return .element
  | _ => .error .malformed

def mapQuery (mapper : Mapper) (query : Json) : Decode Json := do
  if let some part := query.get? "param" then
    let param ← model Param.read part
    return ofMapped (← mapping (mapper.mapParam param))
  else if let some part := query.get? "type" then
    let type ← model TypeRef.read part
    return ofMapped (← mapping (mapper.map (← context query) type))
  else if (query.get? "error_slot").isSome then
    return .arr [.str mapper.space, mapper.errorSlot.toJson]
  else if let some name := query.get? "trampoline" then
    return writeWord trampolineWords (trampolineFor (← asText name))
  else if let some part := query.get? "hooks" then
    return Json.ofOption RefHooks.toJson (classHooks (← model ObjectClass.read part))
  else .error .malformed

def mapper (request : Json) : Decode Mapper := do
  let repo ← repository request
  let options ← options request
  let pointerSize := natOr request "layout_pointer_size" options.pointerSize
  return ⟨⟨repo, pointerSize⟩, options, ← text request "ns"⟩

def map (request : Json) : Decode Json := do
  let mapper ← mapper request
  answers ((← list request "queries").map (mapQuery mapper))

def buildQuery (builder : CallBuilder) (query : Json) : Decode Json := do
  let owner? := match ← text? query "owner" with
    | some name => builder.ownerOf? name
    | none => none
  if let some part := query.get? "callable" then
    let callable ← model Callable.read part
    return (← mapping (builder.build callable owner?)).1.toJson
  else if let some part := query.get? "signal" then
    let signal ← model Signal.read part
    match owner? with
    | none => .error .noOwner
    | some owner => return (← mapping (builder.buildSignal signal owner)).1.toJson
  else if let some part := query.get? "async" then
    let start ← model Callable.read (← need (field? part "start"))
    let finish ← model Callable.read (← need (field? part "finish"))
    let name ← text part "name"
    let (start, _) ← mapping (builder.build start owner?)
    let (finish, _) ← mapping (builder.build finish owner?)
    return Json.ofOption AsyncPlan.toJson (AsyncPlan.ofPlans? name start finish)
  else if (field? query "owner").isSome then
    return Json.ofOption Owner.toJson owner?
  else .error .malformed

def build (request : Json) : Decode Json := do
  let builder : CallBuilder := ⟨← mapper request, ← text request "library"⟩
  answers ((← list request "queries").map (buildQuery builder))

def asyncPairs (request : Json) : Decode Json := do
  let callables ← (← list request "callables").mapM (model Callable.read)
  let pairs := (AsyncPair.findAll callables).map fun pair =>
    Json.arr [.str (operationName ((callables[pair.start]?.map (·.name)).getD "")),
      .nat pair.start, .nat pair.finish]
  let shown := callables.map fun callable => Json.arr [.bool callable.isMethod,
    .bool callable.isVariadic, .arr (callable.params.map fun param =>
      .arr [.bool (isReadyCallback param), .bool (isResultToken param)])]
  return .obj [("pairs", .arr pairs), ("callables", .arr shown)]

def findIn (space : NamespaceBinding) (member : String) (name : String) : Json :=
  let cls := space.class? name
  let record := space.record? name
  .obj [("class", writeText (cls.map (·.name))), ("record", writeText (record.map (·.name))),
    ("function", writeText ((space.function? name).map (·.symbol))),
    ("skipped", .bool (space.isSkipped name)),
    ("method", writeText ((cls.bind (·.method? member)).map (·.symbol))),
    ("constructor", writeText ((cls.bind (·.constructor? member)).map (·.symbol))),
    ("async", writeText ((cls.bind (·.asyncMethod? member)).map (·.name))),
    ("signal", writeText ((cls.bind (·.signal? member)).map (·.name))),
    ("field", writeCount ((record.bind (·.field? member)).map (·.layout.offset)))]

def compile (request : Json) : Decode Json := do
  let repo ← repository request
  let options ← options request
  let pointerSize := natOr request "layout_pointer_size" options.pointerSize
  let compiler : Compiler := ⟨⟨repo, pointerSize⟩, options⟩
  match ← text? request "ns" with
  | none =>
    let (all, cached) ← compiler.compileAll.mapError unmapped
    return .obj [("all", .arr (all.map NamespaceBinding.toJson)), ("cached", .nat cached)]
  | some name =>
    let space ← (compiler.namespace? name).mapError unmapped
    let names ← (← listOr request "find").mapM asText
    let member ← textOr request "member" ""
    return .obj [("namespace", space.toJson), ("finds", .arr (names.map (findIn space member)))]

end Interop.Service
