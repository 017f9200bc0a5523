import Interop.Number.Power
import Interop.Bridge.NativeCall

/-! # What is kept alive

Wrappers and callbacks are counted: every place that holds a value has a share of what the value
stands for. A callback that loses its last share gives up what it captured; a wrapper that does
gives back the reference it owns, which may run native code.

A function of the bridge borrows its arguments, and what it gives belongs to its caller.
-/

namespace Interop

variable {H : Host}

namespace NativeFn

def run (env : Env H) (fn : NativeFn H) (call : NativeCall) : Native H Value := do
  match fn with
  | .host fn => env.native fn call
  | .quarkToString =>
    let quark ← call.uint 0
    return .ofText? ((← get).quarks.name? (quark.toNat % twoPow 32))
  | .quarkFromString =>
    let name ← call.string 0
    return .ofNat (← Bridge.internQuark (name.getD ""))

/-- Enters a native function for what it does. -/
def runEffect (env : Env H) (fn : NativeFn H) (call : NativeCall) : Native H Unit :=
  match fn with
  | .host fn => env.effect fn call
  | other => discard (other.run env call)

end NativeFn

namespace Bridge

/-- Gives a reference back: by the unref function of the hooks if there is one, else by counting
down. -/
def release (env : Env H) (handle : Handle) (hooks : Option RefHooks) : Native H Unit := do
  let bridge ← get
  match hooks.bind fun hooks => (bridge.symbols.findAny? hooks.unrefFn).map (hooks.unrefFn, ·) with
  | some (symbol, fn) =>
    fn.runEffect env {
      symbol := symbol
      args := [{ descriptor := .ofPrimitive .pointer Heap.pointerSize, value := .pointer handle }]
      returns := .null }
  | none => set { bridge with heap := ← MonadExcept.ofExcept (bridge.heap.unref handle) }

/-- Runs a step whose failure is of no consequence. -/
def attempt (step : Native H Unit) (bridge : Bridge H) : Bridge H :=
  match step bridge with
  | .ok _ bridge | .error _ bridge => bridge

/-- Gives back what the registry asks to be given back. -/
def settle (env : Env H) (due : Option Release) (bridge : Bridge H) : Bridge H :=
  match due with
  | none => bridge
  | some due => attempt (release env due.handle due.cls.hooks) bridge

/-! ## Shares -/

def modifyCallback (bridge : Bridge H) (id : CallbackId)
    (f : CallbackCell H → CallbackCell H) : Bridge H :=
  { bridge with callbacks := bridge.callbacks.modify id.index f }

/-- One more share. -/
def retainShare (bridge : Bridge H) : Value.Share → Bridge H
  | .wrapper id => { bridge with registry := bridge.registry.retain id }
  | .callback id => bridge.modifyCallback id fun cell => { cell with strong := cell.strong + 1 }

def retain (value : Value) (bridge : Bridge H) : Bridge H :=
  value.shares.foldl retainShare bridge

/-- A completion whose ready callback is gone is lost, unless a token came before. -/
def lose (bridge : Bridge H) (id : CompletionId) : Bridge H :=
  { bridge with completions := bridge.completions.modify id.index fun
    | .waiting => .lost
    | other => other }

/-- Takes away a callback's last share: what it captured is no longer held by it. -/
def bury (bridge : Bridge H) (id : CallbackId) (cell : CallbackCell H) : Bridge H :=
  let bridge := bridge.modifyCallback id fun cell => { cell with strong := 0, captured := [] }
  match cell.behaviour with
  | .ready completion => bridge.lose completion
  | _ => bridge

/-- How many shares the callbacks hold. -/
def heldShares (bridge : Bridge H) : Nat :=
  bridge.callbacks.foldl (fun count cell => count + (Value.sharesOf cell.captured).length) 0

def dropWrapper (env : Env H) (bridge : Bridge H) (id : WrapperId) : Bridge H :=
  let (due, registry) := bridge.registry.drop id
  settle env due { bridge with registry }

/-- Gives up shares one after the other. Those that a callback held come right after its last one,
and native code that a share sets going finds the later ones still held. The first argument bounds
the number of shares. -/
def giveUp (env : Env H) : Nat → List Value.Share → Bridge H → Bridge H
  | 0, _, bridge | _, [], bridge => bridge
  | bound + 1, .wrapper id :: rest, bridge => giveUp env bound rest (dropWrapper env bridge id)
  | bound + 1, .callback id :: rest, bridge =>
    match bridge.callbacks[id.index]? with
    | none => giveUp env bound rest bridge
    | some cell =>
      if cell.strong ≤ 1 then
        giveUp env bound (Value.sharesOf cell.captured ++ rest) (bridge.bury id cell)
      else
        giveUp env bound rest
          (bridge.modifyCallback id fun cell => { cell with strong := cell.strong - 1 })

/-- Drops values, the first one first. What a callback captures is older than the callback, so all
that goes is held by the values or by callbacks that are there now. -/
def drop (env : Env H) (values : List Value) (bridge : Bridge H) : Bridge H :=
  let shares := Value.sharesOf values
  giveUp env (shares.length + bridge.heldShares + 1) shares bridge

/-! ## Callbacks -/

def newCallback (behaviour : Behaviour H) (captured : List Value) (bridge : Bridge H) :
    CallbackId × Bridge H :=
  (⟨bridge.callbacks.size⟩,
    { bridge with callbacks := bridge.callbacks.push ⟨1, behaviour, captured⟩ })

def registerClosure (callback : CallbackId) (scope : Schema.CallbackScope) (bridge : Bridge H) :
    Nat × Bridge H :=
  let (token, closures) := bridge.closures.register callback scope
  let bridge := { bridge with closures }
  (token, if scope = .async then bridge else bridge.retain (.callback callback))

def removeClosure (env : Env H) (token : Nat) (bridge : Bridge H) : Bool × Bridge H :=
  match bridge.closures.get? token with
  | none => (false, bridge)
  | some callback =>
    let bridge := { bridge with closures := bridge.closures.remove token }
    (true, bridge.drop env [.callback callback])

def newReady (bridge : Bridge H) : CompletionId × CallbackId × Bridge H :=
  let completion : CompletionId := ⟨bridge.completions.size⟩
  let (callback, bridge) := newCallback (.ready completion) []
    { bridge with completions := bridge.completions.push .waiting }
  (completion, callback, bridge)

/-- Delivers a token to a completion that waits, which takes it over; any other gives it up. -/
def deliver (env : Env H) (id : CompletionId) (token : Value) (bridge : Bridge H) : Bridge H :=
  match bridge.completions[id.index]? with
  | some .waiting =>
    { bridge with completions := bridge.completions.setIfInBounds id.index (.delivered token) }
  | _ => bridge.drop env [token]

/-- Stops waiting for a completion; a token that was delivered is dropped. -/
def closeCompletion (env : Env H) (id : CompletionId) (bridge : Bridge H) : Bridge H :=
  let closed :=
    { bridge with completions := bridge.completions.modify id.index fun _ => .closed }
  match bridge.completions[id.index]? with
  | some (.delivered token) => closed.drop env [token]
  | _ => closed

/-! ## Wrapping -/

/-- Wraps a handle. The registry's answer belongs to the caller. -/
def wrapRaw (env : Env H) (handle : Handle) (target : Option String) (ownership : Ownership) :
    Bridge H → Except IdentityError Value × Bridge H := fun bridge =>
  let (result, registry) := bridge.registry.wrap bridge.introspection handle target ownership
  let bridge := { bridge with registry }
  match result with
  | .error error => (.error error, bridge)
  | .ok wrapped =>
    (.ok (wrapped.id.elim .null (.object · handle)), bridge.settle env wrapped.release)

def wrap (env : Env H) (handle : Handle) (target : Option String) (ownership : Ownership) :
    Run H Value := fun bridge =>
  match wrapRaw env handle target ownership bridge with
  | (.ok value, bridge) => .ok value bridge
  | (.error error, bridge) => .error (.identity error) bridge

end Bridge

end Interop
