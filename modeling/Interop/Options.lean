/-! # Options of the compilation of bindings -/

namespace Interop

structure Options where
  /-- Bytes of a native pointer. -/
  pointerSize : Nat := 8
  skipDeprecated : Bool := false
  /-- Whether callables that are not meant for bindings are compiled all the same. -/
  includeUnintrospectable : Bool := false
  deriving DecidableEq, Repr, Inhabited

end Interop
