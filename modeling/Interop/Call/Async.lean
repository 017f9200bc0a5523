import Interop.Call.Build

/-! # Pairs of start and finish functions

An asynchronous operation is a function that takes a ready callback, and a second function that
turns the result token of that callback into the outcome. Pairs are found by their names.
-/

namespace Interop

open Schema

/-- Whether a parameter is the callback that announces a result. -/
def isReadyCallback (param : Param) : Bool := endsWith param.type.name "AsyncReadyCallback"

def isResultToken (param : Param) : Bool := endsWith param.type.name "AsyncResult"

/-- The name of an operation: that of its start function without the ending `_async`. -/
def operationName (start : String) : String :=
  if endsWith start "_async" then String.ofList (start.toList.take (start.length - 6)) else start

/-- The names that the finish function of an operation can have, the likelier one first. -/
def finishNames (start : String) : List String :=
  if endsWith start "_async" then [operationName start ++ "_finish", start ++ "_finish"]
  else [start ++ "_finish"]

structure AsyncPair where
  start : Nat
  finish : Nat
  deriving DecidableEq, Repr, Inhabited

namespace AsyncPair

/-- The finish function of the callable at a place, if that one starts an operation. The first name
that any callable has decides. -/
def finishOf? (callables : List Callable) (start : Callable) (place : Nat) : Option AsyncPair := do
  guard (start.params.any isReadyCallback)
  let finish ← (finishNames start.name).findSome? fun name =>
    callables.findIdx? (·.name == name)
  let candidate ← callables[finish]?
  guard (candidate.kind == start.kind && finish != place && candidate.params.any isResultToken)
  return ⟨place, finish⟩

/-- Every pair in a list of callables, in the order of the start functions. -/
def findAll (callables : List Callable) : List AsyncPair :=
  callables.zipIdx.filterMap fun (start, place) => finishOf? callables start place

end AsyncPair

structure AsyncPlan where
  name : String
  start : CallPlan
  finish : CallPlan
  /-- The native argument of the start call that takes the ready callback. -/
  callbackArg : Nat
  /-- The caller's value of the start call that is the ready callback. -/
  callbackParam : Nat
  /-- The native argument of the finish call that takes the result token. -/
  resultArg : Nat
  /-- The parameters of the operation: those of the start call but the ready callback. -/
  params : List VisibleParam
  deriving Repr, Inhabited

namespace AsyncPlan

def readySlot? (arg : CallArg) : Option Nat :=
  match arg.descriptor, arg.source with
  | .callback .asyncReady _ _ _ _ _, .caller index => some index
  | _, _ => none

/-- Joins two plans, if the first takes a ready callback and the second nothing but a token. -/
def ofPlans? (name : String) (start finish : CallPlan) : Option AsyncPlan := do
  let (callbackArg, callbackParam) ← start.args.zipIdx.findSome? fun (arg, place) =>
    (readySlot? arg).map (place, ·)
  guard (finish.arity = 1)
  let resultArg ← finish.args.findIdx? (·.source == .caller 0)
  return {
    name, start, finish, callbackArg, callbackParam, resultArg
    params := start.params.eraseIdx callbackParam }

def arity (plan : AsyncPlan) : Nat := plan.params.length

def returnsVoid (plan : AsyncPlan) : Bool := plan.finish.returns.isNull

end AsyncPlan

end Interop
