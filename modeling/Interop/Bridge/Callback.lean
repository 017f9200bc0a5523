import Interop.Bridge.Lifetime

/-! # Invoking callbacks

A callback that was passed to native code sees handles of instances as wrappers, and gives native
code handles in place of wrappers.
-/

namespace Interop

variable {H : Host}

namespace Bridge

/-- An argument as a lifting callback passes it on; the second part says whether it was made for
that. What cannot be wrapped is passed as it came. -/
def liftArgument (env : Env H) (param : Option Descriptor) (value : Value) :
    StateM (Bridge H) (Value × Bool) := do
  match param, value with
  | some (.object ownership _), .pointer handle =>
    match ← modifyGet (wrapRaw env handle none ownership) with
    | .ok wrapped => return (wrapped, true)
    | .error _ => return (value, false)
  | _, _ => return (value, false)

/-- Invokes a callback. A lifting callback is always newer than the one it holds. -/
def invokeCallback (env : Env H) (id : CallbackId) (args : List Value) :
    StateM (Bridge H) Value := do
  match (← get).callbacks[id.index]? with
  | none => return .null
  | some cell =>
    match cell.behaviour with
    | .managed fn => env.managed fn cell.captured args
    | .destroyNotify token =>
      modify fun bridge => (bridge.removeClosure env token).2
      return .null
    | .ready completion =>
      let token := args[1]?.getD .null
      modify fun bridge => (bridge.retain token).deliver env completion token
      return .null
    | .lifting params inner =>
      if _hnewer : inner.index < id.index then
        let lifted ← args.zipIdx.mapM fun (value, index) => liftArgument env params[index]? value
        let result ← invokeCallback env inner (lifted.map (·.1))
        let made := (lifted.filter (·.2)).map (·.1)
        match result with
        | .object _ handle =>
          modify (drop env (result :: made))
          return .pointer handle
        | _ =>
          modify (drop env made)
          return result
      else return .null
termination_by id.index

end Bridge

end Interop
