import Interop.Bridge.Lift
import Interop.Bridge.Lower

/-! # Calls

A call makes the native arguments, enters the native function and converts what comes back. An
error that the native side stored comes before any result. When the call has ended, whatever its
outcome, everything that was made only for it is given back.
-/

namespace Interop

open Schema

variable {H : Host}

/-- What a call gives back: its value, and its outputs in native order. -/
structure CallResult where
  value : Value
  outputs : List Value
  deriving Inhabited

namespace CallResult

def values (result : CallResult) : List Value := result.value :: result.outputs

end CallResult

/-- Refuses values that are too many or too few for the parameters. -/
def checkArity (callable : String) (params : List VisibleParam) (values : List Value) :
    Run H Unit := do
  if params.length < values.length then
    throw (.marshal (.tooManyArguments callable params.length values.length))
  if let some missing := (params.drop values.length).find? (!·.optional) then
    throw (.marshal (.missingArgument missing.name))

namespace Bridge

def enter (env : Env H) (library : String) (call : NativeCall) : Native H Value := do
  let fn ← MonadExcept.ofExcept ((← get).symbols.find library call.symbol)
  let value ← fn.run env call
  if call.returns.isNull then
    modify (drop env [value])
    return .null
  else return value

/-! ## Native errors -/

/-- The function that gives the name of an error's domain. -/
def quarkNamer : String := "g_quark_to_string"

/-- The library that names the domains of errors. -/
def errorLibrary (env : Env H) : String :=
  (((repo env).resolveQualified? errorType).map (·.space.library)).getD coreLibrary

/-- The name of an error's domain; one that has none is named by its number. -/
def domainName (env : Env H) (quark : Value) : Native H String := fun bridge =>
  let unnamed := "quark-" ++ toString (quark.asUInt?.getD 0).toNat
  let call : NativeCall := {
    symbol := quarkNamer
    args := [{ descriptor := .ofPrimitive .uint32 Heap.pointerSize, value := quark }]
    returns := .string .none }
  match enter env (errorLibrary env) call bridge with
  | .ok (.string name) bridge => .ok name bridge
  | .ok other bridge => .ok unnamed (bridge.drop env [other])
  | .error _ bridge => .ok unnamed bridge

def takeError (env : Env H) (handle : Handle) : Native H NativeError := do
  let quark ← read handle (.ofPrimitive .uint32 Heap.pointerSize) 0
  let code ← read handle (.ofPrimitive .int32 Heap.pointerSize) NativeCall.errorOffsets.1
  let message ← read handle (.string .none) NativeCall.errorOffsets.2
  let domain ← domainName env quark
  modify (attempt (release env handle none))
  return {
    domain := domain
    code := (code.asInt?.map Int64.toInt).getD 0
    message := message.asString?.getD "" }

/-- The error that the native side stored, if there is one. -/
def pendingError (env : Env H) (plan : CallPlan) (frame : Frame) :
    Native H (Option NativeError) := do
  let some index := plan.errorIndex? | return none
  let some arg := frame.args[index]? | return none
  match arg.descriptor, arg.value.nonNull? with
  | .reference inner, some slot =>
    match (← read slot inner 0).nonNull? with
    | some error => return some (← takeError env error)
    | none => return none
  | _, _ => return none

/-! ## Results -/

def discardRecords (env : Env H) (frame : Frame) (bridge : Bridge H) : Bridge H :=
  frame.records.foldl (fun bridge record => attempt (release env record.2 none) bridge) bridge

def liftOutput (env : Env H) (frame : Frame) (index : Nat) : Run H Value := do
  let some arg := frame.args[index]? | return .null
  match arg.descriptor, frame.records.lookup index with
  | .reference (.boxed innerType _ _ _), some record
  | .reference (.struct innerType _ _ _ _), some record => wrapAs env record innerType .full
  | .reference inner, _ =>
    let some slot := arg.value.nonNull? | return .null
    lift env frame.args inner (← inCall (read slot inner 0))
  | descriptor, _ => lift env frame.args descriptor arg.value

def complete (env : Env H) (plan : CallPlan) (frame : Frame) (raw : Value) : Run H CallResult := do
  if let some error ← orDrop env [raw] (inCall (pendingError env plan frame)) then
    modify fun bridge => (bridge.discardRecords env frame).drop env [raw]
    throw (.native error)
  let value ← thenDrop env [raw] (lift env frame.args plan.returns raw)
  let places := plan.outputs
  let outputs ← orDrop env [value]
    (collect env (fun i => liftOutput env frame (places.getD i 0)) places.length)
  return ⟨value, outputs⟩

/-- Takes back what native code was to keep, since it was not reached or failed. -/
def abandon (env : Env H) (frame : Frame) (bridge : Bridge H) : Bridge H :=
  let bridge := frame.lastingTokens.foldl (fun bridge token => (bridge.removeClosure env token).2)
    bridge
  bridge.discardRecords env frame

def releaseFrame (env : Env H) (frame : Frame) (bridge : Bridge H) : Bridge H :=
  let bridge := frame.callTokens.foldl (fun bridge token => (bridge.removeClosure env token).2)
    bridge
  let bridge := frame.scratch.foldl (fun bridge handle => attempt (release env handle none) bridge)
    bridge
  bridge.drop env frame.held

/-- Makes the native arguments and enters native code. -/
def enterPlan (env : Env H) (plan : CallPlan) (receiver : Option Value) (values : List Value) :
    Lowering H Value := do
  Lowering.lower env plan receiver values
  let frame := (← get).frame
  Lowering.onBridge (inCall (enter env plan.library
    { symbol := plan.symbol, args := frame.args.toList, returns := plan.returns }))

/-- Makes a call with the values of a caller and, for a method, an instance. -/
def invoke (env : Env H) (plan : CallPlan) (receiver : Option Value) (values : List Value) :
    Run H CallResult := do
  checkArity plan.name plan.params values
  fun bridge =>
    match enterPlan env plan receiver values ⟨bridge, {}⟩ with
    | .error error ⟨bridge, frame⟩ =>
      .error error ((bridge.abandon env frame).releaseFrame env frame)
    | .ok raw ⟨bridge, frame⟩ =>
      match complete env plan frame raw bridge with
      | .ok result bridge => .ok result (bridge.releaseFrame env frame)
      | .error error bridge => .error error (bridge.releaseFrame env frame)

/-! ## Callables by name -/

def callFunction (env : Env H) (space name : String) (values : List Value) :
    Run H CallResult := do
  match (← registerNamespace env space).function? name with
  | some plan => invoke env plan none values
  | none => throw (.marshal (.unknownCallable (join space name)))

/-- The constructors of a class or a record, and its methods with the functions behind them. -/
def callables (env : Env H) (owner : String) : Run H (List CallPlan × List CallPlan) := do
  let space ← namespaceOf env owner
  match space.class? owner, space.record? owner with
  | some cls, _ => return (cls.constructors, cls.methods ++ cls.functions)
  | none, some record => return (record.constructors, record.methods ++ record.functions)
  | none, none => throw (.marshal (.unknownType owner))

def planOf (owner name : String) (plans : List CallPlan) : Run H CallPlan :=
  match plans.find? (·.name == name) with
  | some plan => return plan
  | none => throw (.marshal (.unknownCallable (join owner name)))

def callMethod (env : Env H) (owner name : String) (receiver : Option Value)
    (values : List Value) : Run H CallResult := do
  let plan ← planOf owner name (← callables env owner).2
  invoke env plan receiver values

def construct (env : Env H) (owner name : String) (values : List Value) : Run H Value := do
  let plan ← planOf owner name (← callables env owner).1
  let result ← invoke env plan none values
  modify (drop env result.outputs)
  return result.value

end Bridge

end Interop
