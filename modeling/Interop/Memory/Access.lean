import Interop.Number.Power
import Interop.Descriptor
import Interop.Memory.Heap
import Interop.Value

/-! # Values in native memory

How values are laid out in bytes, lowest byte first, and how a descriptor reads one from memory
and writes one to it.
-/

namespace Interop

/-- The number whose bytes are given, the lowest one first. -/
def littleEndian (bytes : List UInt8) : Nat :=
  bytes.foldr (fun byte n => n * 256 + byte.toNat) 0

/-- The lowest bytes of a number, the lowest one first. -/
def bytesOf : Nat → Nat → List UInt8
  | 0, _ => []
  | count + 1, n => UInt8.ofNat n :: bytesOf count (n / 256)

/-- A number of so many bits read with a sign. -/
def signedOf (bits n : Nat) : Int := if n < twoPow (bits - 1) then n else n - twoPow bits

namespace PrimitiveKind

def decode (kind : PrimitiveKind) (bytes : List UInt8) : Value :=
  let n := littleEndian bytes
  match kind with
  | void => .null
  | bool => .bool (n != 0)
  | int8 | int16 | int32 | int64 => .int (Int64.ofInt (signedOf (8 * bytes.length) n))
  | uint8 | uint16 | uint32 | uint64 | unichar | gtype => .uint (UInt64.ofNat n)
  | float => .float (Binary.ofSingle (UInt32.ofNat n))
  | double => .float (UInt64.ofNat n)
  | pointer => if n = 0 then .null else .pointer (.ofNat n)

/-- The number that is stored for a value in a slot of the given size. One that does not fit is
refused; the width of a slot is counted in 32 bits. -/
def encode (kind : PrimitiveKind) (size : Nat) (value : Value) : Except DispatchError Nat :=
  let width := 8 * size % twoPow 32
  let need {α : Type} (view : Option α) : Except DispatchError α :=
    match view with
    | some a => .ok a
    | none => .error (.typeMismatch kind.name value.typeName)
  match kind with
  | void => .ok 0
  | bool => do return (← need value.asBool?).toNat
  | int8 | int16 | int32 | int64 => do
    let n := (← need value.asInt?).toInt
    need <| if 64 ≤ width ∨ 0 < width ∧ -twoPow (width - 1) ≤ n ∧ n < twoPow (width - 1) then
      some (n % twoPow 64).toNat else none
  | uint8 | uint16 | uint32 | uint64 | unichar | gtype => do
    let n := (← need value.asUInt?).toNat
    need <| if 64 ≤ width ∨ n < twoPow width then some n else none
  | float => do return (Binary.toSingle (← need value.asFloat?)).toNat
  | double => do return (← need value.asFloat?).toNat
  | pointer => do return (← need value.asHandle?).toNat

end PrimitiveKind

namespace Heap

/-- The pointer stored in a range; null is no value. -/
def readPointer (heap : Heap) (handle : Handle) (offset : Nat) : Except DispatchError Handle := do
  return .ofNat (littleEndian (← heap.bytes handle offset pointerSize))

/-- Reads a value. A record in place is read as its address. -/
def read (heap : Heap) (handle : Handle) (descriptor : Descriptor) (offset : Nat) :
    Except DispatchError Value :=
  if handle.isNull then .error (.invalidHandle handle)
  else match descriptor with
    | .null => .ok .null
    | .primitive kind size => do return kind.decode (← heap.bytes handle offset size)
    | .struct _ _ size true _ => do
      let _ ← heap.span handle offset size
      match handle.offset? offset with
      | some inner => return .pointer inner
      | none => .error (.invalidHandle handle)
    | .string _ => do
      let target ← heap.readPointer handle offset
      if target.isNull then return .null else return .string (← heap.readText target)
    | _ => do
      let target ← heap.readPointer handle offset
      return if target.isNull then .null else .pointer target

/-- A writing step: whether it succeeded, and the heap after it. -/
abbrev Write (α : Type) := EStateM DispatchError Heap α

/-- Checks that a range of bytes is there. -/
def reach (handle : Handle) (offset size : Nat) : Write Unit := do
  let _ ← MonadExcept.ofExcept ((← get).span handle offset size)

def put (handle : Handle) (offset : Nat) (bytes : List UInt8) : Write Unit := do
  match (← get).store handle offset bytes with
  | .ok heap => set heap
  | .error error => throw error

def putText (text : String) : Write Handle := modifyGet fun heap => heap.allocText text

/-- Writes a value. A text goes into a block of its own, which stays even if there is no room for
its address. -/
def write (handle : Handle) (descriptor : Descriptor) (offset : Nat) (value : Value) :
    Write Unit := do
  if handle.isNull then throw (.invalidHandle handle)
  match descriptor with
  | .null => return
  | .primitive kind size =>
    let n ← MonadExcept.ofExcept (kind.encode size value)
    reach handle offset size
    put handle offset (bytesOf size n)
  | .struct _ _ size true _ =>
    match value.asHandle? with
    | none => throw (.typeMismatch "struct" value.typeName)
    | some source =>
      if source.isNull then
        reach handle offset size
        put handle offset (List.replicate size 0)
      else put handle offset (← MonadExcept.ofExcept ((← get).bytes source 0 size))
  | .string _ =>
    let target ← match value with
      | .string text => putText text
      | other => match other.asHandle? with
        | some target => pure target
        | none => throw (.typeMismatch "string" other.typeName)
    put handle offset (bytesOf pointerSize target.toNat)
  | other =>
    match other, value with
    | .callback .., .callback _ =>
      throw (.unsupported "storing a managed callback in native memory")
    | _, _ =>
      match value.asHandle? with
      | none => throw (.typeMismatch other.kindName value.typeName)
      | some target => put handle offset (bytesOf pointerSize target.toNat)

end Heap

end Interop
