import Interop.Bridge.Fields
import Interop.Call.Plan

/-! # The native arguments of a call

Every native argument of a plan gets a value: those the caller passes are converted, the others are
made up. What is allocated and registered on the way is noted in a frame, which knows of it also
when a later argument fails.
-/

namespace Interop

open Schema

variable {H : Host}

/-- A callback of the caller as native code gets it. -/
structure PassedCallback where
  arg : Nat
  callback : CallbackId
  token : Nat
  deriving DecidableEq, Repr, Inhabited

/-- The native arguments of one call and what they hold. The frame has a share of each callback in
it. -/
structure Frame where
  args : Array NativeArg := #[]
  /-- Blocks that go when the call has ended. -/
  scratch : Array Handle := #[]
  /-- Records for the native side to fill, by native argument. -/
  records : List (Nat × Handle) := []
  /-- Tokens that go when the call has ended. -/
  callTokens : List Nat := []
  /-- Tokens that go if native code is never reached or fails. -/
  lastingTokens : List Nat := []
  callbacks : List PassedCallback := []
  /-- The release functions made for the callbacks. -/
  notifies : List CallbackId := []
  deriving Inhabited

namespace Frame

def callback? (frame : Frame) (arg : Nat) : Option PassedCallback :=
  frame.callbacks.find? (·.arg == arg)

/-- What the frame has shares of. -/
def held (frame : Frame) : List Value :=
  frame.callbacks.map (.callback ·.callback) ++ frame.notifies.map .callback

end Frame

structure Calling (H : Host) where
  bridge : Bridge H
  frame : Frame

abbrev Lowering (H : Host) (α : Type) := EStateM BindError (Calling H) α

namespace Lowering

/-- A step of a call that leaves the frame alone. -/
def onBridge {α : Type} (step : Run H α) : Lowering H α := fun calling =>
  match step calling.bridge with
  | .ok value bridge => .ok value { calling with bridge }
  | .error error bridge => .error error { calling with bridge }

def update {α : Type} (step : Bridge H → α × Bridge H) : Lowering H α := fun calling =>
  let (value, bridge) := step calling.bridge
  .ok value { calling with bridge }

def modifyFrame (f : Frame → Frame) : Lowering H Unit :=
  modify fun calling => { calling with frame := f calling.frame }

def scratch (size : Nat) : Lowering H Handle := do
  let handle ← onBridge (inCall (Bridge.alloc size none none))
  modifyFrame fun frame => { frame with scratch := frame.scratch.push handle }
  return handle

def write (handle : Handle) (descriptor : Descriptor) (offset : Nat) (value : Value) :
    Lowering H Unit :=
  onBridge (inCall (Bridge.write handle descriptor offset value))

/-- Room for what an argument points at, at least that of a pointer. -/
def slot (descriptor : Descriptor) : Lowering H Handle :=
  let size := match descriptor with
    | .reference inner => inner.slotSize Heap.pointerSize
    | other => other.slotSize Heap.pointerSize
  scratch (max size Heap.pointerSize)

/-! ## Callbacks -/

/-- The callback that native code gets for one of the caller's, with a share for the frame. -/
def passOn (trampoline : Trampoline) (params : List Descriptor) (callback : CallbackId)
    (bridge : Bridge H) : CallbackId × Bridge H :=
  let bridge := bridge.retain (.callback callback)
  match trampoline with
  | .closure => bridge.newCallback (.lifting params callback) [.callback callback]
  | .asyncReady | .destroyNotify => (callback, bridge)

/-- Registers a callback of the caller, if that is what an argument is. -/
def prepareCallback (values : List Value) (arg : CallArg) (index : Nat) : Lowering H Unit := do
  match arg.descriptor, arg.source with
  | .callback trampoline params _ scope _ _, .caller visible =>
    match values[visible]? with
    | some (.callback id) =>
      let callback ← update (passOn trampoline params id)
      let token ← update (Bridge.registerClosure callback scope)
      modifyFrame fun frame => { frame with
        callbacks := frame.callbacks ++ [⟨index, callback, token⟩]
        callTokens := if scope = .call then frame.callTokens ++ [token] else frame.callTokens
        lastingTokens :=
          if scope = .notified ∨ scope = .forever then frame.lastingTokens ++ [token]
          else frame.lastingTokens }
    | _ => return
  | _, _ => return

/-! ## Values of the caller -/

mutual

/-- A value of the caller as native code gets it. An array is laid out in a block, which goes when
the call has ended unless it is given away; an empty one is null unless its end is marked. -/
def lowerValue (descriptor : Descriptor) (value : Value) : Lowering H Value :=
  match descriptor, value with
  | .array element ownership length _ elementSize, .array items => do
    if items.isEmpty && length != .zeroTerminated then return .pointer .null
    let size := arrayBytes items.length elementSize length
    let handle ← if ownership = .full then onBridge (inCall (Bridge.alloc size none none))
      else scratch size
    lowerItems handle element elementSize 0 items
    return .pointer handle
  | .array .., other =>
    if other.isNull then return other
    else throw (.marshal (.invalidValue descriptor.kindName "array" other.typeName))
  | _, .object _ handle => return .pointer handle
  | _, other => return other

/-- Lowers items and writes them one behind the other, from an index on. -/
def lowerItems (handle : Handle) (element : Descriptor) (elementSize index : Nat) :
    List Value → Lowering H Unit
  | [] => return
  | item :: rest => do
    let lowered ← lowerValue element item
    write handle element (index * elementSize) lowered
    lowerItems handle element elementSize (index + 1) rest

end

/-- A value of the caller for an argument: behind a slot if the native side writes to it. -/
def lowerCaller (arg : CallArg) (value : Value) : Lowering H Value := do
  match arg.descriptor with
  | .reference inner =>
    if arg.flags.output then
      let handle ← slot arg.descriptor
      let lowered ← lowerValue inner value
      write handle inner 0 lowered
      return .pointer handle
    else lowerValue arg.descriptor value
  | descriptor => lowerValue descriptor value

/-! ## Arguments that are made up -/

def itemCount (plan : CallPlan) (values : List Value) (array : Nat) : Nat :=
  match plan.args[array]?.map CallArg.source with
  | some (.caller visible) => ((values[visible]?.bind Value.asArray?).map List.length).getD 0
  | _ => 0

def countValue (descriptor : Descriptor) (count : Nat) : Value :=
  match descriptor with
  | .primitive kind _ => if kind.isSigned then .int (Int64.ofNat count) else .ofNat count
  | _ => .ofNat count

/-- The number of items in an array argument, behind a slot if the native side writes to it. -/
def lowerLength (arg : CallArg) (count : Nat) : Lowering H Value := do
  if arg.flags.output then
    let handle ← slot arg.descriptor
    match arg.descriptor with
    | .reference inner => write handle inner 0 (countValue inner count)
    | _ => pure ()
    return .pointer handle
  else return countValue arg.descriptor count

/-- The size, type and library of the record that the caller makes for an argument. -/
def callerRecord? (env : Env H) (arg : CallArg) : Option (Nat × String × String) :=
  if arg.flags.callerAllocates then
    match arg.descriptor with
    | .reference (.boxed innerType library _ _) | .reference (.struct innerType library _ _ _) =>
      (env.compiler.platform.calculator.typeLayout? innerType).1.map fun layout =>
        (layout.size, schemaTypeName (Bridge.repo env) innerType, library)
    | _ => none
  else none

/-- Room for an output: a record if the caller makes it, else a slot. -/
def lowerOutput (env : Env H) (arg : CallArg) (index : Nat) : Lowering H Value := do
  match callerRecord? env arg with
  | some (size, typeName, library) =>
    let handle ← onBridge (inCall (Bridge.alloc size (some typeName) (some library)))
    modifyFrame fun frame => { frame with records := frame.records ++ [(index, handle)] }
    return .pointer handle
  | none => return .pointer (← slot arg.descriptor)

def lowerNotify (callback : Nat) : Lowering H Value := do
  match (← get).frame.callback? callback with
  | none => return .null
  | some passed =>
    let notify ← update (Bridge.newCallback (.destroyNotify passed.token) [])
    modifyFrame fun frame => { frame with notifies := frame.notifies ++ [notify] }
    return .callback notify

/-! ## All arguments -/

def lowerArg (env : Env H) (plan : CallPlan) (receiver : Option Value) (values : List Value)
    (arg : CallArg) (index : Nat) : Lowering H Value := do
  match arg.source with
  | .receiver =>
    match receiver.bind Value.nonNull? with
    | some handle => return .pointer handle
    | none => throw (.marshal (.missingInstance plan.name))
  | .caller visible =>
    match (← get).frame.callback? index with
    | some passed => return .callback passed.callback
    | none => match values[visible]? with
      | some value => lowerCaller arg value
      | none => return .null
  | .arrayLength array => lowerLength arg (itemCount plan values array)
  | .returnLength | .errorSlot => return .pointer (← slot arg.descriptor)
  | .outSlot => lowerOutput env arg index
  | .closureData callback =>
    return ((← get).frame.callback? callback).elim .null fun passed =>
      .pointer (.ofNat passed.token)
  | .destroyNotify callback => lowerNotify callback

/-- Makes the native arguments of a plan, the callbacks first. -/
def lower (env : Env H) (plan : CallPlan) (receiver : Option Value) (values : List Value) :
    Lowering H Unit := do
  plan.args.zipIdx.forM fun (arg, index) => prepareCallback values arg index
  plan.args.zipIdx.forM fun (arg, index) => do
    let value ← lowerArg env plan receiver values arg index
    modifyFrame fun frame => { frame with
      args := frame.args.push ⟨arg.descriptor, value, arg.flags.optional⟩ }

end Lowering

end Interop
