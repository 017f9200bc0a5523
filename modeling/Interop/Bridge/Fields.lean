import Interop.Bridge.Registration

/-! # Fields and elements of records -/

namespace Interop

open Schema

variable {H : Host}

namespace Bridge

/-- Runs a step for so many indices from the given one on, up to the first that fails. The values
go behind those seen already, the last of which comes first. -/
def gather (step : Nat → Run H Value) (seen : List Value) :
    Nat → Nat → Bridge H → (List Value × Option BindError) × Bridge H
  | _, 0, bridge => ((seen.reverse, none), bridge)
  | index, count + 1, bridge =>
    match step index bridge with
    | .error error bridge => ((seen.reverse, some error), bridge)
    | .ok value bridge => gather step (value :: seen) (index + 1) count bridge

/-- Runs a step for the indices below a number and collects the values; if one fails, those before
it are dropped. -/
def collect (env : Env H) (step : Nat → Run H Value) (count : Nat) : Run H (List Value) :=
  fun bridge =>
    match gather step [] 0 count bridge with
    | ((values, none), bridge) => .ok values bridge
    | ((values, some error), bridge) => .error error (bridge.drop env values)

def needInstance (value : Value) (owner : String) : Run H Handle :=
  match value.nonNull? with
  | some handle => return handle
  | none => throw (.marshal (.missingInstance owner))

def fieldOf (env : Env H) (owner name : String) : Run H FieldBinding := do
  let space ← namespaceOf env owner
  let fields ← match space.record? owner, space.class? owner with
    | some record, _ =>
      if record.shape.isSealed then throw (.marshal (.opaqueRecord owner)) else pure record.fields
    | none, some cls => pure cls.fields
    | none, none => throw (.marshal (.unknownRecord owner))
  match fields.find? (·.layout.field == name) with
  | some field => return field
  | none => throw (.marshal (.unknownField owner name))

/-- The element, the stride and the number of elements of an array that is stored in its field. -/
def inlineArray? (field : FieldBinding) : Option (Descriptor × Nat × Nat) :=
  match field.descriptor with
  | .array element _ (.fixed count) _ elementSize =>
    if field.inPlace then some (element, elementSize, count) else none
  | _ => none

/-- A value read from memory that stays where it is: instances are wrapped without owning them. -/
def liftBorrowed (env : Env H) (descriptor : Descriptor) (raw : Value) : Run H Value :=
  match raw.asHandle? with
  | none => return raw
  | some handle =>
    if handle.isNull then return .null
    else match descriptor with
      | .object .. => wrap env handle none .none
      | .boxed innerType _ _ _ | .struct innerType _ _ _ _ => wrapAs env handle innerType .none
      | _ => return raw

def readField (env : Env H) (owner : Value) (type name : String) : Run H Value := do
  let field ← fieldOf env type name
  if !field.readable then throw (.marshal (.fieldAccess type name "readable"))
  let base ← needInstance owner type
  let offset := field.layout.offset
  match inlineArray? field with
  | some (element, elementSize, count) =>
    return .array (← collect env (fun index => do
      liftBorrowed env element
        (← inCall (read base element (offset + index * elementSize)))) count)
  | none => liftBorrowed env field.descriptor (← inCall (read base field.descriptor offset))

mutual

/-- A value as it is stored in memory for good: arrays are laid out in blocks of their own. -/
def lowerStored (descriptor : Descriptor) (value : Value) : Run H Value :=
  match descriptor, value with
  | .array element _ length _ elementSize, .array items => do
    let handle ← inCall (alloc (arrayBytes items.length elementSize length) none none)
    storeItems handle element elementSize 0 items
    return .pointer handle
  | _, .object _ handle => return .pointer handle
  | _, _ => return value

/-- Stores items one behind the other, from an index on. -/
def storeItems (handle : Handle) (element : Descriptor) (elementSize index : Nat) :
    List Value → Run H Unit
  | [] => return
  | item :: rest => do
    let lowered ← lowerStored element item
    inCall (write handle element (index * elementSize) lowered)
    storeItems handle element elementSize (index + 1) rest

end

/-- Writes a field of an instance. An array in its field may be given by its first elements; the
elements before one that cannot be stored have been written then. -/
def writeField (env : Env H) (owner : Value) (type name : String) (value : Value) :
    Run H Unit := do
  let field ← fieldOf env type name
  if !field.writable then throw (.marshal (.fieldAccess type name "writable"))
  let base ← needInstance owner type
  let offset := field.layout.offset
  match inlineArray? field with
  | some (element, elementSize, count) =>
    let path := join type name
    let some items := value.asArray?
      | throw (.marshal (.invalidValue path "array" value.typeName))
    if count < items.length then
      throw (.marshal (.invalidValue path "array within the fixed length" "longer array"))
    items.zipIdx.forM fun (item, index) => do
      let lowered ← lowerStored element item
      inCall (write base element (offset + index * elementSize) lowered)
  | none =>
    let lowered ← lowerStored field.descriptor value
    inCall (write base field.descriptor offset lowered)

def allocRecord (env : Env H) (qualified : String) : Run H Value := do
  let space ← namespaceOf env qualified
  let some record := space.record? qualified | throw (.marshal (.unknownRecord qualified))
  let handle ←
    inCall (alloc record.shape.total.size (some record.typeName) (some space.library))
  match ← wrap env handle (some record.typeName) .full with
  | .null => throw (.marshal (.unknownRecord qualified))
  | value => return value

def element (env : Env H) (base : Value) (qualified : String) (index : Nat) : Run H Value := do
  let some layout := (env.compiler.platform.calculator.typeLayout? qualified).1
    | throw (.marshal (.unknownRecord qualified))
  let start ← needInstance base qualified
  match (layout.elementOffset? index).bind start.offset? with
  | some handle => wrapAs env handle qualified .none
  | none =>
    throw (.marshal (.invalidValue qualified "addressable array" "overflowing offset"))

end Bridge

end Interop
