import Interop.Memory.Heap

/-! # Libraries and their symbols -/

namespace Interop

/-- The functions of each library, in the order in which they were first defined. -/
structure SymbolTable (Fn : Type) where
  libraries : List (String × List (String × Fn)) := []
  deriving Inhabited

namespace SymbolTable

variable {Fn : Type}

def define (table : SymbolTable Fn) (library symbol : String) (fn : Fn) : SymbolTable Fn :=
  let place (symbols : List (String × Fn)) : List (String × Fn) :=
    if symbols.any (·.1 == symbol) then
      symbols.map fun entry => if entry.1 == symbol then (symbol, fn) else entry
    else symbols ++ [(symbol, fn)]
  if table.libraries.any (·.1 == library) then
    ⟨table.libraries.map fun entry =>
      if entry.1 == library then (library, place entry.2) else entry⟩
  else ⟨table.libraries ++ [(library, place [])]⟩

def hasLibrary (table : SymbolTable Fn) (library : String) : Bool :=
  table.libraries.any (·.1 == library)

def find (table : SymbolTable Fn) (library symbol : String) : Except DispatchError Fn :=
  match table.libraries.lookup library with
  | none => .error (.libraryNotFound library)
  | some symbols =>
    match symbols.lookup symbol with
    | some fn => .ok fn
    | none => .error (.symbolNotFound library symbol)

def contains (table : SymbolTable Fn) (library symbol : String) : Bool :=
  (table.find library symbol).toOption.isSome

/-- The function of a symbol in the first library that has one. -/
def findAny? (table : SymbolTable Fn) (symbol : String) : Option Fn :=
  table.libraries.findSome? fun entry => entry.2.lookup symbol

end SymbolTable

end Interop
