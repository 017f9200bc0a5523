import Interop.Layout.Slot

/-! # Layouts of declared types

The layout of a compound type follows from those of the types stored in it. A type that is reached
again from inside of itself counts as a pointer there, so every type has a layout. The expansion
ends because each step opens a declared name that was not open before.
-/

namespace Interop

open Schema

/-- A repository and the size of its pointers. -/
structure Platform where
  repo : Repository
  pointerSize : Nat

namespace Platform

/-- The layout of a compound type, given the names that are being expanded around it. -/
def expand? (platform : Platform) (path : List String) (qualified : String) : Option TypeLayout :=
  if _hpath : path.contains qualified then some (.pointer platform.pointerSize)
  else match _hfind : Compound.find? platform.repo qualified with
    | none => none
    | some compound =>
      let slots := Compound.slots platform.repo platform.pointerSize compound.space compound.fields
      let layouts := slots.map fun (name, slot) =>
        (name, slot.layout fun inner =>
          (expand? platform (qualified :: path) inner).getD (.pointer platform.pointerSize))
      some (Placement.ofKind compound.kind layouts).2
termination_by platform.repo.remaining path
decreasing_by
  obtain ⟨_, hresolve, _⟩ := Option.bind_eq_some_iff.1 _hfind
  exact Repository.remaining_cons_lt hresolve (by simpa using _hpath)

def slotLayout (platform : Platform) (path : List String) (space : String) (inArray : Bool)
    (type : TypeRef) : TypeLayout :=
  (Slot.ofType platform.repo platform.pointerSize space inArray type).layout fun inner =>
    (platform.expand? path inner).getD (.pointer platform.pointerSize)

/-- Fields placed as a record of the given kind. -/
def place (platform : Platform) (path : List String) (space : String) (kind : RecordKind)
    (fields : List Field) : List FieldLayout × TypeLayout :=
  Placement.ofKind kind <| fields.map fun field =>
    (field.name, platform.slotLayout path space false field.type)

def typeLayout? (platform : Platform) (qualified : String) : Option TypeLayout :=
  platform.expand? [] qualified

/-- The size of a declared type; that of a pointer where there is none. -/
def typeSize (platform : Platform) (qualified : String) : Nat :=
  ((platform.typeLayout? qualified).map (·.size)).getD platform.pointerSize

def recordShape? (platform : Platform) (qualified : String) : Option RecordShape :=
  (Compound.find? platform.repo qualified).map fun compound =>
    compound.shape (platform.place [qualified] compound.space compound.kind compound.fields)

def fieldTypeLayout (platform : Platform) (space : String) (type : TypeRef) : TypeLayout :=
  platform.slotLayout [] space false type

def elementLayout (platform : Platform) (space : String) (type : TypeRef) : TypeLayout :=
  platform.slotLayout [] space true type

end Platform

end Interop
