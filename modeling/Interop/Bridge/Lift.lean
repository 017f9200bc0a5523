import Interop.Bridge.Fields

/-! # Results of a call

What native code gives back as managed values: handles are wrapped with the ownership that the
descriptor declares, arrays are read item by item.
-/

namespace Interop

open Schema

variable {H : Host}

namespace Bridge

/-- Runs a step; if it fails, values that were made before it are dropped. -/
def orDrop {α : Type} (env : Env H) (values : List Value) (step : Run H α) : Run H α :=
  fun bridge =>
    match step bridge with
    | .ok value bridge => .ok value bridge
    | .error error bridge => .error error (bridge.drop env values)

def thenDrop {α : Type} (env : Env H) (values : List Value) (step : Run H α) : Run H α :=
  fun bridge =>
    match step bridge with
    | .ok value bridge => .ok value (bridge.drop env values)
    | .error error bridge => .error error (bridge.drop env values)

def keep (value : Value) : Run H Value := do
  modify (retain value)
  return value

/-- Wraps a handle as an instance of a record; a value without a handle is kept as it is. -/
def liftRecord (env : Env H) (innerType : String) (ownership : Ownership) (raw : Value) :
    Run H Value :=
  match raw.asHandle? with
  | some handle => wrapAs env handle innerType ownership
  | none => keep raw

/-- A copy of a record that lies in an array, owned by its wrapper. -/
def copyRecord (env : Env H) (element : Descriptor) (innerType : String) (size : Nat)
    (base : Handle) (offset : Nat) : Run H Value := do
  let some source := base.offset? offset | throw (.dispatch (.invalidHandle base))
  let copy ← inCall (alloc size (some (schemaTypeName (repo env) innerType)) none)
  inCall (write copy element 0 (.pointer source))
  wrapAs env copy innerType .full

/-! ## Lengths of arrays -/

/-- The number that a native argument holds, or points at. -/
def lengthAt (args : Array NativeArg) (index : Nat) : Run H Nat := do
  let some arg := args[index]?
    | throw (.dispatch (.argumentCount "array length" (index + 1) args.size))
  let value ← match arg.descriptor with
    | .reference inner =>
      match arg.value.nonNull? with
      | some slot => inCall (read slot inner 0)
      | none => pure (.uint 0)
    | _ => pure arg.value
  return match value.asInt?, value.asUInt? with
    | some n, _ => n.toInt.toNat
    | none, some n => n.toNat
    | none, none => 0

/-- The place of the first zero element from an index on. The bound is the number of elements that
may be looked at. -/
def findEnd (base : Handle) (element : Descriptor) (elementSize : Nat) :
    Nat → Nat → Native H Nat
  | _, 0 => throw (.invalidHandle base)
  | index, bound + 1 => do
    let value ← read base element (index * elementSize)
    if value.isZero then return index
    else findEnd base element elementSize (index + 1) bound

/-- How many elements lie before the zero that ends an array. An array cannot have more elements
than its block has bytes. -/
def terminatedLength (base : Handle) (element : Descriptor) (elementSize : Nat) :
    Native H Nat := do
  let isRecord := match element with
    | .struct _ _ _ true _ => true
    | _ => false
  if isRecord || elementSize == 0 then
    throw (.unsupported "zero-terminated arrays of inline records")
  let bound := ((← get).heap.locate? base.toNat).elim 0 (·.size)
  findEnd base element elementSize 0 (bound + 1)

def elementCount (args : Array NativeArg) (base : Handle) (element : Descriptor)
    (elementSize : Nat) : ArrayLength → Run H Nat
  | .fixed count => return count
  | .param index => lengthAt args index
  | .zeroTerminated => inCall (terminatedLength base element elementSize)
  | .container => throw (.dispatch (.unsupported "container-managed arrays"))

/-! ## Values -/

/-- A native value as the caller gets it. An array that was given away is freed once it is read. -/
def lift (env : Env H) (args : Array NativeArg) : Descriptor → Value → Run H Value
  | .null, _ => return .null
  | .object ownership _, raw =>
    match raw.asHandle? with
    | some handle => wrap env handle none ownership
    | none => keep raw
  | .boxed innerType _ ownership _, raw => liftRecord env innerType ownership raw
  | .struct innerType _ _ _ ownership, raw => liftRecord env innerType ownership raw
  | .array element ownership length _ elementSize, raw => do
    let some base := raw.nonNull? | return .null
    let count ← elementCount args base element elementSize length
    let items ← collect env (fun index => do
      match element with
      | .struct innerType _ size true _ =>
        copyRecord env element innerType size base (index * elementSize)
      | _ => lift env args element (← inCall (read base element (index * elementSize)))) count
    if ownership = .full then modify (attempt (release env base none))
    return .array items
  | .reference inner, raw => do
    let some slot := raw.nonNull? | return .null
    lift env args inner (← inCall (read slot inner 0))
  | .primitive .., raw | .string _, raw | .callback .., raw => keep raw

end Bridge

end Interop
