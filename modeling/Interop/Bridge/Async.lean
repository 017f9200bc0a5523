import Interop.Bridge.Call

/-! # Asynchronous operations

An operation starts with a call that gets a ready callback made for it. The first token that the
callback is invoked with completes the operation, and the finish call turns the token into the
outcome. Native code that lets go of the callback without invoking it completes the operation with
an error.
-/

namespace Interop

open Schema

variable {H : Host}

structure Operation where
  plan : AsyncPlan
  completion : CompletionId
  deriving Inhabited

namespace Bridge

/-- The values of the start call: those of the caller with the ready callback at its place. -/
def startValues (plan : AsyncPlan) (ready : CallbackId) (values : List Value) : List Value :=
  let padded := values ++ List.replicate (plan.callbackParam - values.length) .null
  padded.take plan.callbackParam ++ .callback ready :: padded.drop plan.callbackParam

/-- Makes the start call of an operation. Only native code keeps the ready callback past it. -/
def startPlan (env : Env H) (plan : AsyncPlan) (receiver : Option Value) (values : List Value) :
    Run H Operation := do
  checkArity plan.name plan.params values
  fun bridge =>
    let (completion, ready, bridge) := bridge.newReady
    match invoke env plan.start receiver (startValues plan ready values) bridge with
    | .ok result bridge =>
      .ok ⟨plan, completion⟩ (bridge.drop env (result.values ++ [.callback ready]))
    | .error error bridge =>
      .error error ((bridge.drop env [.callback ready]).closeCompletion env completion)

def startMethod (env : Env H) (owner name : String) (receiver : Option Value)
    (values : List Value) : Run H Operation := do
  let space ← namespaceOf env owner
  match (space.class? owner).bind (·.asyncMethod? name) with
  | some plan => startPlan env plan receiver values
  | none => throw (.marshal (.unknownCallable (join owner name)))

/-- The outcome of an operation, once it has completed; it is asked for with the instance that the
operation was started with. -/
def outcome? (env : Env H) (operation : Operation) (receiver : Option Value) :
    Run H (Option CallResult) := do
  match (← get).completions[operation.completion.index]? with
  | some .waiting => return none
  | some (.delivered token) =>
    modify fun bridge => { bridge with
      completions := bridge.completions.setIfInBounds operation.completion.index .closed }
    let finish : Run H CallResult :=
      if token.isNull then throw (.async (.missingResultToken operation.plan.name))
      else invoke env operation.plan.finish receiver [token]
    return some (← thenDrop env [token] finish)
  | _ => throw (.async (.completionDropped operation.plan.name))

end Bridge

end Interop
