import Interop.Layout.Basic
import Interop.Primitive
import Interop.Schema.Repository

/-! # What a slot holds

A field or an array element stores a scalar or a pointer, a compound value in place, or a fixed
number of elements. Which of these it is depends on the type reference and on what the repository
declares under its name, and on no layout.
-/

namespace Interop

open Schema

inductive Slot where
  /-- A value of known size: a number, or a pointer to anything. -/
  | scalar (layout : TypeLayout)
  /-- A record, a union or a class instance stored in place. -/
  | nested (qualified : String)
  | repeated (count : Nat) (element : Slot)
  deriving DecidableEq, Repr, Inhabited

namespace Slot

/-- Enumerations and flags are stored in four bytes. -/
def enumLayout : TypeLayout := ⟨4, 4⟩

/-- What a single value of a type holds. Elements of arrays are stored in place unless they are
spelled as pointers; fields only if they are spelled without a star. -/
def ofSpelling (repo : Repository) (pointerSize : Nat) (space : String) (inArray : Bool)
    (type : TypeRef) : Slot :=
  let pointer := scalar (.pointer pointerSize)
  if type.isVoid || isStringSpelling type.name then pointer
  else match PrimitiveKind.ofSpelling? type.name with
    | some kind => scalar ⟨kind.size pointerSize, kind.alignment pointerSize⟩
    | none =>
      match (repo.resolve? space type.name).map Resolved.decl with
      | some (.enum _) | some (.flags _) => scalar enumLayout
      | some (.record _) | some (.union _) | some (.cls _) =>
        if (if inArray then !type.isPointerSpelled else type.isInline) then
          nested (qualify space type.name)
        else pointer
      | _ => pointer

/-- What a type reference holds in a slot. -/
def ofType (repo : Repository) (pointerSize : Nat) (space : String) (inArray : Bool) :
    TypeRef → Slot
  | .plain spelling => ofSpelling repo pointerSize space inArray (.plain spelling)
  | .array spelling form element =>
    match form.fixedSize with
    | some count =>
      if (TypeRef.plain spelling).isPointerSpelled then scalar (.pointer pointerSize)
      else repeated count (ofType repo pointerSize space true element)
    | none => scalar (.pointer pointerSize)

/-- The layout of a slot, given those of the compound types. -/
def layout (compound : String → TypeLayout) : Slot → TypeLayout
  | scalar layout => layout
  | nested qualified => compound qualified
  | repeated count element => (layout compound element).times count

/-- The compound type that is stored in the slot, if there is one. -/
def compound? : Slot → Option String
  | scalar _ => none
  | nested qualified => some qualified
  | repeated _ element => element.compound?

end Slot

/-- A type whose values are made of fields. -/
structure Compound where
  space : String
  kind : RecordKind
  fields : List Field
  sealed : Bool
  deriving DecidableEq, Repr, Inhabited

namespace Compound

/-- The fields behind a declaration. -/
def ofResolved? (type : Resolved) : Option Compound :=
  match type.decl with
  | .record record | .union record =>
    some ⟨type.space.name, record.kind, record.fields, record.isOpaque⟩
  | .cls cls => some ⟨type.space.name, .struct, cls.fields, false⟩
  | _ => none

/-- The compound type of a qualified name. -/
def find? (repo : Repository) (qualified : String) : Option Compound :=
  (repo.resolveQualified? qualified).bind ofResolved?

def slots (repo : Repository) (pointerSize : Nat) (space : String) (fields : List Field) :
    List (String × Slot) :=
  fields.map fun field => (field.name, Slot.ofType repo pointerSize space false field.type)

/-- The layouts of the fields that are shown. -/
def shownOnly (fields : List Field) (layouts : List FieldLayout) : List FieldLayout :=
  ((layouts.zip fields).filter fun entry => !entry.2.hidden).map (·.1)

/-- The shape of a compound type whose fields have been placed. -/
def shape (compound : Compound) (placed : List FieldLayout × TypeLayout) : RecordShape :=
  if compound.sealed then .sealed placed.2
  else .shown (shownOnly compound.fields placed.1) placed.2

end Compound

end Interop
