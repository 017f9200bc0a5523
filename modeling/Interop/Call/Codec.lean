import Interop.Call.Async
import Interop.Descriptor.Codec

/-! # Plans as JSON -/

namespace Interop

open Schema

def Import.toJson (item : Import) : Json := .arr [.str item.module, .str item.symbol]

def writeImports (imports : List Import) : Json := .arr (imports.map Import.toJson)

def ArgSource.toJson : ArgSource → Json
  | receiver => .str "instance"
  | caller index => .obj [("caller", .nat index)]
  | arrayLength array => .obj [("array_length", .nat array)]
  | returnLength => .str "return_length"
  | closureData callback => .obj [("closure_data", .nat callback)]
  | destroyNotify callback => .obj [("destroy_notify", .nat callback)]
  | outSlot => .str "out_slot"
  | errorSlot => .str "error_slot"

def CallArg.toJson (arg : CallArg) : Json :=
  .obj [("name", .str arg.name), ("descriptor", arg.descriptor.toJson),
    ("source", arg.source.toJson), ("flags", .nat arg.flags.bits),
    ("visible", .bool arg.isVisible), ("result", .bool arg.isResult)]

def VisibleParam.toJson (param : VisibleParam) : Json :=
  .arr [.str param.name, param.descriptor.toJson, .bool param.optional, .bool param.nullable]

def writeVisible (params : List VisibleParam) : Json := .arr (params.map VisibleParam.toJson)

def CallPlan.toJson (plan : CallPlan) : Json :=
  .obj [("name", .str plan.name), ("symbol", .str plan.symbol), ("library", .str plan.library),
    ("kind", writeWord callableKindWords plan.kind),
    ("args", .arr (plan.args.map CallArg.toJson)), ("params", writeVisible plan.params),
    ("returns", plan.returns.toJson), ("return_nullable", .bool plan.returnNullable),
    ("throws", .bool plan.throws), ("imports", writeImports plan.imports),
    ("method", .bool plan.isMethod), ("error_index", writeCount plan.errorIndex?),
    ("outputs", .arr (plan.outputs.map .nat)), ("arity", .nat plan.arity),
    ("required", .nat plan.requiredArity)]

def SignalPlan.toJson (plan : SignalPlan) : Json :=
  .obj [("name", .str plan.name), ("handler", plan.handler.toJson),
    ("params", writeVisible plan.params), ("returns", plan.returns.toJson),
    ("imports", writeImports plan.imports)]

def AsyncPlan.toJson (plan : AsyncPlan) : Json :=
  .obj [("name", .str plan.name), ("start", .str plan.start.name),
    ("finish", .str plan.finish.name), ("callback_arg", .nat plan.callbackArg),
    ("callback_param", .nat plan.callbackParam), ("result_arg", .nat plan.resultArg),
    ("params", writeVisible plan.params), ("arity", .nat plan.arity),
    ("returns_void", .bool plan.returnsVoid)]

def Owner.toJson (owner : Owner) : Json :=
  .obj [("qualified", .str owner.qualified), ("kind", .str owner.kind.name),
    ("descriptor", owner.descriptor.toJson)]

end Interop
