import Interop.Primitive
import Interop.Schema.Callable

/-! # Call descriptors

A descriptor says how one value crosses the native boundary: its representation, its size, and who
owns it afterwards.
-/

namespace Interop

open Schema

/-- The functions that count references of a fundamental type. -/
structure RefHooks where
  refFn : String
  unrefFn : String
  deriving DecidableEq, Repr, Inhabited

/-- How native code enters a managed callback. -/
inductive Trampoline where
  /-- With the user data behind the last argument. -/
  | closure
  /-- As the completion of a pair of a start and a finish function. -/
  | asyncReady
  | destroyNotify
  deriving DecidableEq, Repr, Inhabited

/-- How the number of elements of an array is known. -/
inductive ArrayLength where
  | fixed (count : Nat)
  | zeroTerminated
  /-- By the native argument at an index. -/
  | param (index : Nat)
  | container
  deriving DecidableEq, Repr, Inhabited

/-- The representation of one value. -/
inductive Descriptor where
  | primitive (kind : PrimitiveKind) (size : Nat)
  | string (ownership : Ownership)
  /-- A record with a registered identity type. -/
  | boxed (innerType library : String) (ownership : Ownership) (getTypeFn : Option String)
  /-- A record of fixed size, in place or behind a pointer. -/
  | struct (innerType library : String) (size : Nat) (inPlace : Bool) (ownership : Ownership)
  | object (ownership : Ownership) (hooks : Option RefHooks)
  /-- A managed function. The indices are native arguments. -/
  | callback (trampoline : Trampoline) (params : List Descriptor) (result : Descriptor)
      (scope : CallbackScope) (userDataIndex destroyIndex : Option Nat)
  | array (element : Descriptor) (ownership : Ownership) (length : ArrayLength)
      (kind : ArrayKind) (elementSize : Nat)
  /-- A slot that holds the inner value. -/
  | reference (inner : Descriptor)
  | null
  deriving Repr, Inhabited

namespace Descriptor

/-- A primitive with its size from the table; `void` is no value. -/
def ofPrimitive (kind : PrimitiveKind) (pointerSize : Nat) : Descriptor :=
  if kind = .void then null else primitive kind (kind.size pointerSize)

/-- The transfer annotation; a slot has that of its inner value. -/
def ownership? : Descriptor → Option Ownership
  | string ownership | boxed _ _ ownership _ | struct _ _ _ _ ownership | object ownership _
  | array _ ownership _ _ _ => some ownership
  | reference inner => inner.ownership?
  | primitive .. | callback .. | null => none

def kindName : Descriptor → String
  | primitive .. => "primitive"
  | string .. => "string"
  | boxed .. => "boxed"
  | struct .. => "struct"
  | object .. => "object"
  | callback .. => "callback"
  | array .. => "array"
  | reference .. => "reference"
  | null => "null"

/-- Bytes of the value in a native slot: all but primitives and records in place is a pointer. -/
def slotSize (pointerSize : Nat) : Descriptor → Nat
  | primitive _ size => size
  | struct _ _ size true _ => size
  | null => 0
  | _ => pointerSize

def isNull : Descriptor → Bool
  | null => true
  | _ => false

/-- Whether values get a managed wrapper. -/
def isWrapped : Descriptor → Bool
  | object .. | boxed .. | struct .. => true
  | _ => false

mutual

def text : Descriptor → String
  | primitive kind _ => kind.name
  | string ownership => "string[" ++ ownership.name ++ "]"
  | boxed innerType _ ownership _ => "boxed<" ++ innerType ++ ">[" ++ ownership.name ++ "]"
  | struct innerType _ _ _ ownership => "struct<" ++ innerType ++ ">[" ++ ownership.name ++ "]"
  | object ownership _ => "object[" ++ ownership.name ++ "]"
  | callback _ params result _ _ _ =>
    "callback(" ++ String.intercalate ", " (texts params) ++ ") -> " ++ text result
  | array element ownership _ _ _ => "array<" ++ text element ++ ">[" ++ ownership.name ++ "]"
  | reference inner => "&" ++ text inner
  | null => "null"

def texts : List Descriptor → List String
  | [] => []
  | descriptor :: rest => text descriptor :: texts rest

end

end Descriptor

end Interop
