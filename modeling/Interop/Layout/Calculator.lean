import Interop.Layout.Compute

/-! # A calculator that remembers

The layouts of `Platform`, computed with a memo. A type is remembered when its own expansion met no
type that was already open, so what is remembered never depends on where the expansion started.
-/

namespace Interop

open Schema

/-- What a calculator carries from one step to the next. -/
structure Walk where
  /-- The layouts remembered so far, at most one for each name. -/
  memo : List (String × TypeLayout)
  /-- Whether the expansion in progress met a type that was already open. -/
  provisional : Bool := false
  deriving Inhabited

namespace Walk

/-- Remembers a layout unless one is remembered already. -/
def remember (walk : Walk) (qualified : String) (layout : TypeLayout) : Walk :=
  if (walk.memo.lookup qualified).isSome then walk
  else { walk with memo := (qualified, layout) :: walk.memo }

/-- The end of the expansion of one type, which began with nothing provisional. -/
def close (walk : Walk) (outer : Bool) (qualified : String) (layout : TypeLayout) : Walk :=
  if walk.provisional then walk
  else { walk.remember qualified layout with provisional := outer }

end Walk

namespace Platform

/-- The layout of a slot, given steps that find the layouts of compound types. -/
def slotStep (compound : String → StateM Walk TypeLayout) : Slot → StateM Walk TypeLayout
  | .scalar layout => pure layout
  | .nested qualified => compound qualified
  | .repeated count element => return (← slotStep compound element).times count

/-- The layout of a compound type, remembered or computed. -/
def memoized? (platform : Platform) (path : List String) (qualified : String) :
    StateM Walk (Option TypeLayout) := do
  match (← get).memo.lookup qualified with
  | some layout => return some layout
  | none =>
    if _hpath : path.contains qualified then
      modify fun walk => { walk with provisional := true }
      return some (.pointer platform.pointerSize)
    else match _hfind : Compound.find? platform.repo qualified with
      | none => return none
      | some compound =>
        let outer := (← get).provisional
        modify fun walk => { walk with provisional := false }
        let slots :=
          Compound.slots platform.repo platform.pointerSize compound.space compound.fields
        let layouts ← slots.mapM fun (name, slot) => do
          let layout ← slotStep (fun inner => do
            return (← memoized? platform (qualified :: path) inner).getD
              (.pointer platform.pointerSize)) slot
          return (name, layout)
        let layout := (Placement.ofKind compound.kind layouts).2
        modify fun walk => walk.close outer qualified layout
        return some layout
termination_by platform.repo.remaining path
decreasing_by
  obtain ⟨_, hresolve, _⟩ := Option.bind_eq_some_iff.1 _hfind
  exact Repository.remaining_cons_lt hresolve (by simpa using _hpath)

end Platform

/-- A platform together with the layouts remembered so far. -/
structure Calculator where
  platform : Platform
  memo : List (String × TypeLayout) := []

/-- A calculator that remembers nothing yet. -/
def Platform.calculator (platform : Platform) : Calculator := { platform }

namespace Calculator

def size (calculator : Calculator) : Nat := calculator.memo.length

/-- Runs one query from a fresh walk. -/
def query {α : Type} (calculator : Calculator) (step : StateM Walk α) : α × Calculator :=
  let (answer, walk) := step.run ⟨calculator.memo, false⟩
  (answer, { calculator with memo := walk.memo })

def slot (platform : Platform) (path : List String) (space : String) (inArray : Bool)
    (type : TypeRef) : StateM Walk TypeLayout :=
  Platform.slotStep
    (fun inner => return (← platform.memoized? path inner).getD (.pointer platform.pointerSize))
    (Slot.ofType platform.repo platform.pointerSize space inArray type)

/-- Fields placed as a record of the given kind. -/
def place (platform : Platform) (path : List String) (space : String) (kind : RecordKind)
    (fields : List Field) : StateM Walk (List FieldLayout × TypeLayout) := do
  let layouts ← fields.mapM fun field => return (field.name,
    ← slot platform path space false field.type)
  return Placement.ofKind kind layouts

def typeLayout? (calculator : Calculator) (qualified : String) :
    Option TypeLayout × Calculator :=
  calculator.query (calculator.platform.memoized? [] qualified)

/-- The size of a declared type; that of a pointer where there is none. -/
def typeSize (calculator : Calculator) (qualified : String) : Nat × Calculator :=
  let (layout, calculator) := calculator.typeLayout? qualified
  ((layout.map (·.size)).getD calculator.platform.pointerSize, calculator)

def recordShape? (calculator : Calculator) (qualified : String) :
    Option RecordShape × Calculator :=
  let platform := calculator.platform
  match Compound.find? platform.repo qualified with
  | none => (none, calculator)
  | some compound => calculator.query do
    let placed ← place platform [qualified] compound.space compound.kind compound.fields
    modify fun walk => walk.close false qualified placed.2
    return some (compound.shape placed)

/-- Fields placed as a record of the given kind; hidden ones are shown on request. -/
def layout (calculator : Calculator) (space : String) (kind : RecordKind) (fields : List Field)
    (hidden : Bool) : List FieldLayout × Calculator :=
  calculator.query do
    let (layouts, _) ← place calculator.platform [] space kind fields
    return if hidden then layouts else Compound.shownOnly fields layouts

def recordSize (calculator : Calculator) (space : String) (kind : RecordKind)
    (fields : List Field) : Nat × Calculator :=
  calculator.query do return (← place calculator.platform [] space kind fields).2.size

def fieldTypeLayout (calculator : Calculator) (space : String) (type : TypeRef) :
    TypeLayout × Calculator :=
  calculator.query (slot calculator.platform [] space false type)

def elementLayout (calculator : Calculator) (space : String) (type : TypeRef) :
    TypeLayout × Calculator :=
  calculator.query (slot calculator.platform [] space true type)

end Calculator

end Interop
