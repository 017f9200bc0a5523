import Interop.Lists

/-! # Chains of parents

A finite table of parents may be cyclic. The chain of a name is the name, its parent, the parent
of that, and so on up to the first name that would be repeated.
-/

namespace Interop

/-- Parents by child. The first entry of a child counts. -/
abbrev ParentTable := List (String × String)

namespace ParentTable

/-- The chain of a name, cut where it would enter the given path. -/
def chainFrom (table : ParentTable) (path : List String) (name : String) : List String :=
  if _hpath : path.contains name then []
  else name :: match _hparent : table.lookup name with
    | none => []
    | some parent => chainFrom table (name :: path) parent
termination_by (table.filter fun entry => !path.contains entry.1).length
decreasing_by
  apply Lists.length_filter_lt (a := (name, parent)) _ (Lists.mem_of_lookup _hparent)
  · simpa using _hpath
  · simp
  · intro entry _
    simp

def chain (table : ParentTable) (name : String) : List String := table.chainFrom [] name

def ancestors (table : ParentTable) (name : String) : List String := (table.chain name).tail

end ParentTable

end Interop
