/-! # Quarks

Small numbers for strings. A string gets the next number the first time it is asked for and keeps
it; zero is no string's number.
-/

namespace Interop

structure QuarkTable where
  /-- The strings by their numbers, which count from one. -/
  names : List String := []
  deriving DecidableEq, Repr, Inhabited

namespace QuarkTable

def intern (table : QuarkTable) (name : String) : Nat × QuarkTable :=
  match table.names.findIdx? (· == name) with
  | some index => (index + 1, table)
  | none => (table.names.length + 1, ⟨table.names ++ [name]⟩)

def name? (table : QuarkTable) (quark : Nat) : Option String :=
  match quark with
  | 0 => none
  | index + 1 => table.names[index]?

end QuarkTable

end Interop
