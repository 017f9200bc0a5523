import Interop.Registry.Parents

/-! # The hierarchy of types

Types with at most one parent each and any number of interfaces. Types are numbered in the order
in which they were first mentioned.
-/

namespace Interop

structure Hierarchy where
  /-- Every type that was mentioned, in that order. -/
  names : List String := []
  parents : ParentTable := []
  interfaces : List (String × String) := []
  deriving Inhabited

namespace Hierarchy

def add (hierarchy : Hierarchy) (name : String) : Hierarchy :=
  if hierarchy.names.contains name then hierarchy
  else { hierarchy with names := hierarchy.names ++ [name] }

def indexOf? (hierarchy : Hierarchy) (name : String) : Option Nat :=
  hierarchy.names.findIdx? (· == name)

/-- Gives a type its parent, in place of any earlier one. -/
def setParent (hierarchy : Hierarchy) (child parent : String) : Hierarchy :=
  let hierarchy := (hierarchy.add child).add parent
  { hierarchy with
    parents := (child, parent) :: hierarchy.parents.filter fun entry => entry.1 != child }

def addInterface (hierarchy : Hierarchy) (name interface : String) : Hierarchy :=
  let hierarchy := (hierarchy.add name).add interface
  if hierarchy.interfaces.contains (name, interface) then hierarchy
  else { hierarchy with interfaces := hierarchy.interfaces ++ [(name, interface)] }

def contains (hierarchy : Hierarchy) (name : String) : Bool := hierarchy.names.contains name

def size (hierarchy : Hierarchy) : Nat := hierarchy.names.length

def isEmpty (hierarchy : Hierarchy) : Bool := hierarchy.names.isEmpty

def parent? (hierarchy : Hierarchy) (name : String) : Option String :=
  hierarchy.parents.lookup name

/-- The parents of a type up to the first repetition, without the type itself. -/
def ancestors (hierarchy : Hierarchy) (name : String) : List String :=
  hierarchy.parents.ancestors name

def sorted (names : List String) : List String := names.mergeSort fun a b => decide (a ≤ b)

def interfacesOf (hierarchy : Hierarchy) (name : String) : List String :=
  sorted ((hierarchy.interfaces.filter (·.1 == name)).map (·.2))

/-- The types whose parent or whose interface this is; a type for which it is both stands twice. -/
def children (hierarchy : Hierarchy) (name : String) : List String :=
  sorted (((hierarchy.parents ++ hierarchy.interfaces).filter (·.2 == name)).map (·.1))

/-- Whether a type is another one, descends from it, or has it as an interface on its chain. -/
def isA (hierarchy : Hierarchy) (name ancestor : String) : Bool :=
  (hierarchy.parents.chain name).any fun type =>
    type == ancestor || hierarchy.interfaces.contains (type, ancestor)

end Hierarchy

end Interop
