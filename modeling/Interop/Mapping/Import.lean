/-! # Imports

The symbols that code which uses a descriptor has to import, kept in order of module and symbol
without repetitions.
-/

namespace Interop

structure Import where
  module : String
  symbol : String
  deriving DecidableEq, Repr, Inhabited

namespace Import

/-- The module of the support library. -/
def supportModule : String := "nativebind"

def support (symbol : String) : Import := ⟨supportModule, symbol⟩

def before (a b : Import) : Bool :=
  a.module < b.module || (a.module == b.module && a.symbol < b.symbol)

/-- Adds an import to an ordered list unless it is there. -/
def insert (new : Import) : List Import → List Import
  | [] => [new]
  | first :: rest =>
    if new.before first then new :: first :: rest
    else if new == first then first :: rest
    else first :: insert new rest

end Import

end Interop
