import Interop.Handle

/-! # Errors of the registry -/

namespace Interop

/-- Why a class cannot be registered. -/
inductive RegistrationError where
  | duplicateClass (typeName : String)
  | emptyTypeName
  deriving DecidableEq, Repr, Inhabited

def RegistrationError.kindName : RegistrationError → String
  | duplicateClass _ => "DuplicateClass"
  | emptyTypeName => "EmptyTypeName"

def RegistrationError.message : RegistrationError → String
  | duplicateClass typeName =>
    "duplicate registration: class '" ++ typeName ++ "' is already registered"
  | emptyTypeName => "class registered with an empty type name"

/-- Why a handle cannot be wrapped. -/
inductive IdentityError where
  | unknownRuntimeType (handle : Handle)
  /-- Neither the type nor any of its ancestors is registered. -/
  | unregisteredType (typeName : String) (searched : List String)
  | unknownClass (typeName : String)
  deriving DecidableEq, Repr, Inhabited

def IdentityError.kindName : IdentityError → String
  | unknownRuntimeType _ => "UnknownRuntimeType"
  | unregisteredType .. => "UnregisteredType"
  | unknownClass _ => "UnknownClass"

def IdentityError.message : IdentityError → String
  | unknownRuntimeType handle => "cannot determine the runtime type of " ++ handle.text
  | unregisteredType typeName searched =>
    "no wrapper registered for '" ++ typeName ++ "' or any ancestor (searched: " ++
      String.intercalate " -> " searched ++ ")"
  | unknownClass typeName => "target class '" ++ typeName ++ "' is not registered"

end Interop
