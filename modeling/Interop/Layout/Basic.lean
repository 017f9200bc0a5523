import Interop.Number.Power
import Interop.Schema.Declaration

/-! # Sizes, alignments and placements

Where the members of a record come to lie once the size and the alignment of each is known. Struct
members follow each other at the next aligned offset, union members all start at zero, and the
total is rounded up to the largest alignment.
-/

namespace Interop

open Schema

/-- The least multiple of an alignment that is not below an offset. -/
def alignUp (offset alignment : Nat) : Nat :=
  if alignment ≤ 1 then offset else (offset + alignment - 1) / alignment * alignment

/-- The size and the alignment of a value. -/
structure TypeLayout where
  size : Nat
  alignment : Nat
  deriving DecidableEq, Repr, Inhabited

namespace TypeLayout

def pointer (pointerSize : Nat) : TypeLayout := ⟨pointerSize, pointerSize⟩

/-- The distance between two neighbours in an array. -/
def stride (layout : TypeLayout) : Nat := alignUp layout.size layout.alignment

/-- Where an element of an array starts, if that is an address at all. -/
def elementOffset? (layout : TypeLayout) (index : Nat) : Option Nat :=
  if layout.stride * index < twoPow 64 then some (layout.stride * index) else none

/-- An array of a fixed number of elements. -/
def times (element : TypeLayout) (count : Nat) : TypeLayout :=
  ⟨element.stride * count, element.alignment⟩

end TypeLayout

structure FieldLayout where
  field : String
  offset : Nat
  size : Nat
  alignment : Nat
  deriving DecidableEq, Repr, Inhabited

namespace FieldLayout

/-- A field of the given layout at an offset. -/
def placed (name : String) (offset : Nat) (layout : TypeLayout) : FieldLayout :=
  ⟨name, offset, layout.size, layout.alignment⟩

def endOffset (field : FieldLayout) : Nat := field.offset + field.size

end FieldLayout

namespace Placement

/-- The largest alignment of a list, at least one. -/
def alignment (slots : List (String × TypeLayout)) : Nat :=
  slots.foldl (fun most slot => max most slot.2.alignment) 1

/-- Fields one behind the other, the first one not before the given offset. -/
def following (offset : Nat) : List (String × TypeLayout) → List FieldLayout
  | [] => []
  | (name, layout) :: rest =>
    let start := alignUp offset layout.alignment
    .placed name start layout :: following (start + layout.size) rest

/-- The first offset behind the last field, or the given one if there is none. -/
def endOf (offset : Nat) (fields : List FieldLayout) : Nat :=
  (fields.getLast?.map FieldLayout.endOffset).getD offset

def sequential (slots : List (String × TypeLayout)) : List FieldLayout × TypeLayout :=
  let fields := following 0 slots
  let alignment := alignment slots
  (fields, ⟨alignUp (endOf 0 fields) alignment, alignment⟩)

def overlapping (slots : List (String × TypeLayout)) : List FieldLayout × TypeLayout :=
  let fields := slots.map fun slot => .placed slot.1 0 slot.2
  let alignment := alignment slots
  let largest := slots.foldl (fun most slot => max most slot.2.size) 0
  (fields, ⟨alignUp largest alignment, alignment⟩)

/-- The members of a record of either kind and the record itself. -/
def ofKind : RecordKind → List (String × TypeLayout) → List FieldLayout × TypeLayout
  | .struct => sequential
  | .union => overlapping

end Placement

/-- What is known about the inside of a record. -/
inductive RecordShape where
  | shown (fields : List FieldLayout) (total : TypeLayout)
  | sealed (total : TypeLayout)
  deriving DecidableEq, Repr, Inhabited

namespace RecordShape

def total : RecordShape → TypeLayout
  | shown _ total | sealed total => total

def fieldLayouts : RecordShape → List FieldLayout
  | shown fields _ => fields
  | sealed _ => []

def field? (shape : RecordShape) (name : String) : Option FieldLayout :=
  shape.fieldLayouts.find? (·.field == name)

def isSealed : RecordShape → Bool
  | shown .. => false
  | sealed _ => true

end RecordShape

end Interop
