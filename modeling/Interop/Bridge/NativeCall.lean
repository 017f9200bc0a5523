import Interop.Bridge.Basic

/-! # What native functions can do

Reading their arguments, storing outputs, making instances and arrays, and reporting errors.
-/

namespace Interop

open Schema

variable {H : Host}

namespace Bridge

def onHeap {α : Type} (step : Heap.Write α) : Native H α := fun bridge =>
  match step bridge.heap with
  | .ok value heap => .ok value { bridge with heap }
  | .error error heap => .error error { bridge with heap }

def read (handle : Handle) (descriptor : Descriptor) (offset : Nat) : Native H Value := do
  MonadExcept.ofExcept ((← get).heap.read handle descriptor offset)

def write (handle : Handle) (descriptor : Descriptor) (offset : Nat) (value : Value) :
    Native H Unit :=
  onHeap (Heap.write handle descriptor offset value)

/-- Makes a block. If a library is named it must be there. -/
def alloc (size : Nat) (typeName library : Option String) : Native H Handle := do
  let bridge ← get
  if let some library := library then
    if !bridge.symbols.hasLibrary library then throw (.libraryNotFound library)
  let (handle, heap) := bridge.heap.alloc size typeName
  set { bridge with heap }
  return handle

def writeItems (handle : Handle) (element : Descriptor) (elementSize : Nat) (items : List Value) :
    Native H Unit :=
  items.zipIdx.forM fun (item, index) => write handle element (index * elementSize) item

/-- Reads so many items that lie one behind the other, from an index on, behind those that have been
read already, the last of which comes first. -/
def readItems (handle : Handle) (element : Descriptor) (elementSize : Nat) (seen : List Value) :
    Nat → Nat → Native H (List Value)
  | _, 0 => return seen.reverse
  | index, count + 1 => do
    let item ← read handle element (index * elementSize)
    readItems handle element elementSize (item :: seen) (index + 1) count

def internQuark (name : String) : Native H Nat :=
  modifyGet fun bridge =>
    let (quark, quarks) := bridge.quarks.intern name
    (quark, { bridge with quarks })

end Bridge

def mismatch {α : Type} (expected : String) (actual : Value) : Native H α :=
  throw (.typeMismatch expected actual.typeName)

/-- How many bytes a number of elements takes, with one more where a zero ends the array. -/
def arrayBytes (count elementSize : Nat) (length : ArrayLength) : Nat :=
  (if length = .zeroTerminated then count + 1 else count) * elementSize

namespace NativeCall

def arg (call : NativeCall) (index : Nat) : Native H Value :=
  match call.args[index]? with
  | some arg => return arg.value
  | none => throw (.argumentCount call.symbol (index + 1) call.args.length)

def descriptor (call : NativeCall) (index : Nat) : Descriptor :=
  (call.args[index]?.map (·.descriptor)).getD .null

def view {α : Type} (call : NativeCall) (index : Nat) (expected : String)
    (look : Value → Option α) : Native H α := do
  let value ← call.arg index
  match look value with
  | some a => return a
  | none => mismatch expected value

def int (call : NativeCall) (index : Nat) : Native H Int64 := call.view index "int" Value.asInt?

def uint (call : NativeCall) (index : Nat) : Native H UInt64 :=
  call.view index "uint" Value.asUInt?

def float (call : NativeCall) (index : Nat) : Native H UInt64 :=
  call.view index "float" Value.asFloat?

def bool (call : NativeCall) (index : Nat) : Native H Bool := call.view index "bool" Value.asBool?

def handle (call : NativeCall) (index : Nat) : Native H Handle :=
  call.view index "pointer" Value.asHandle?

/-- A text, passed as such or by its address. -/
def string (call : NativeCall) (index : Nat) : Native H (Option String) := do
  match ← call.arg index with
  | .null => return none
  | .string text => return some text
  | .pointer handle =>
    if handle.isNull then return none
    else return some (← MonadExcept.ofExcept ((← get).heap.readText handle))
  | other => mismatch "string" other

def callback (call : NativeCall) (index : Nat) : Native H (Option CallbackId) := do
  match ← call.arg index with
  | .callback id => return some id
  | .null => return none
  | other => mismatch "callback" other

/-- The first elements of an array. -/
def array (call : NativeCall) (index count : Nat) : Native H (List Value) := do
  let base ← call.handle index
  match call.descriptor index with
  | .array element _ _ _ elementSize =>
    Bridge.readItems base element elementSize [] 0 count
  | other => throw (.typeMismatch "array" other.kindName)

def setOut (call : NativeCall) (index : Nat) (value : Value) : Native H Unit := do
  let slot ← call.handle index
  if slot.isNull then return
  match call.descriptor index with
  | .reference inner => Bridge.write slot inner 0 value
  | other => throw (.typeMismatch "reference" other.kindName)

def newInstance (typeName : String) (size : Nat) : Native H Handle :=
  Bridge.alloc size (some typeName) none

/-- A new array of values, laid out as the returned array is described. -/
def returnArray (call : NativeCall) (values : List Value) : Native H Value := do
  match call.returns with
  | .array element _ length _ elementSize =>
    let handle ← Bridge.alloc (arrayBytes values.length elementSize length) none none
    Bridge.writeItems handle element elementSize values
    return .pointer handle
  | other => throw (.typeMismatch "array" other.kindName)

/-- Whether a descriptor is that of a slot for native errors. -/
def isErrorSlot : Descriptor → Bool
  | .reference (.boxed innerType _ _ _) => innerType == errorType
  | _ => false

/-- The place of the last slot for native errors. -/
def errorSlot? (call : NativeCall) : Option Nat :=
  ((call.args.zipIdx.filter fun entry => isErrorSlot entry.1.descriptor).getLast?).map (·.2)

/-- Offsets of the code and of the message in a native error, behind the domain. -/
def errorOffsets : Nat × Nat := (4, 8)

def errorSize : Nat := 16

def raise (call : NativeCall) (domain : String) (code : Int) (message : String) :
    Native H Unit := do
  match call.errorSlot? with
  | none => throw (.unsupported ("'" ++ call.symbol ++ "' does not throw"))
  | some index =>
    let slot ← call.handle index
    if slot.isNull then return
    let error ← Bridge.alloc errorSize (some "GError") (some coreLibrary)
    let quark ← Bridge.internQuark domain
    Bridge.write error (.ofPrimitive .uint32 Heap.pointerSize) 0 (.ofNat quark)
    Bridge.write error (.ofPrimitive .int32 Heap.pointerSize) errorOffsets.1
      (.int (Int64.ofInt code))
    Bridge.write error (.string .full) errorOffsets.2 (.string message)
    Bridge.write slot (.ofPrimitive .pointer Heap.pointerSize) 0 (.pointer error)

end NativeCall

end Interop
